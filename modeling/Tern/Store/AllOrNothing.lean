import Mathlib.Data.List.Find
import Tern.Store.Apply

/-! When an import that fails at one of its candidates leaves the store as it was. -/

namespace Tern.Store

section Schema

/-- What the schema demands of a row by itself, given the folders there are. -/
structure RowValid (folders : List Folder) (row : HostRow) : Prop where
  port : 1 ≤ row.port ∧ row.port ≤ 65535
  keepalive : ∀ value, row.keepaliveSecs = some value → 0 ≤ value
  reconnect : ∀ value, row.reconnectEnabled = some value → value = 0 ∨ value = 1
  folder : ∀ id, row.folderId = some id → ∃ known ∈ folders, known.id = id

/-- Another row was imported under the same alias. -/
def Clashes (hosts : List HostRow) (row : HostRow) : Prop :=
  row.source = "ssh_config" ∧ row.sourceAlias.isSome ∧
    ∃ other ∈ hosts, other.id ≠ row.id ∧ other.source = "ssh_config" ∧
      other.sourceAlias = row.sourceAlias

/-- A row is accepted when it is valid by itself and its alias is free. -/
theorem checkRow_eq_ok_iff {db : Database} {row : HostRow} :
    checkRow db row = .ok () ↔ RowValid db.folders row ∧ ¬Clashes db.hosts row := by
  unfold checkRow
  simp only [ite_error_eq_ok, and_true]
  -- The unique index is checked last, as a search for a row of the same alias.
  have clashes : (row.source = "ssh_config" ∧ row.sourceAlias.isSome ∧ (db.hosts.any fun other =>
      other.id != row.id && other.source == "ssh_config" && other.sourceAlias == row.sourceAlias) =
      true) ↔ Clashes db.hosts row := by
    simp [Clashes, and_assoc]
  rw [clashes, ← and_assoc, ← and_assoc, ← and_assoc]
  -- The checks in front of it are about the row's own columns, one by one.
  refine and_congr_left fun _ => ⟨?_, ?_⟩
  · rintro ⟨⟨⟨port, keepalive⟩, reconnect⟩, folder⟩
    refine ⟨not_not.mp port, ?_, ?_, ?_⟩
    · intro value given
      simpa [given] using keepalive
    · intro value given
      simp only [given, Option.any_some, decide_eq_true_eq] at reconnect
      omega
    · intro id given
      simpa [given] using folder
  · intro valid
    refine ⟨⟨⟨not_not.mpr valid.port, ?_⟩, ?_⟩, ?_⟩
    · -- A column that is empty is checked for nothing.
      cases given : row.keepaliveSecs with
      | none => simp
      | some value => simpa using valid.keepalive value given
    · cases given : row.reconnectEnabled with
      | none => simp
      | some value =>
        have switch := valid.reconnect value given
        simp only [Option.any_some, decide_eq_true_eq]
        omega
    · cases given : row.folderId with
      | none => simp
      | some id => simpa using valid.folder id given

/-- The row of a record is valid when its port is not zero and its folder exists. -/
theorem rowValid_rowOf_iff {folders : List Folder} {host : Host} :
    RowValid folders (rowOf host) ↔
      host.port ≠ 0 ∧ ∀ id, host.folderId = some id → ∃ known ∈ folders, known.id = id := by
  have bound := host.port.toNat_lt
  -- A port is at most 65535 by its type, so that only zero is left out.
  have zero : host.port ≠ 0 ↔ 1 ≤ host.port.toNat := by
    rw [Nat.one_le_iff_ne_zero, Ne, Ne, ← UInt16.toNat_inj]
    rfl
  refine ⟨?_, ?_⟩
  · intro valid
    have low : (1 : Int) ≤ host.port.toNat := valid.port.1
    exact ⟨zero.mpr (by omega), valid.folder⟩
  · rintro ⟨port, folder⟩
    rw [zero] at port
    refine ⟨?_, ?_, ?_, folder⟩
    · change (1 : Int) ≤ host.port.toNat ∧ (host.port.toNat : Int) ≤ 65535
      omega
    · intro value given
      -- An unsigned number is never below zero.
      obtain ⟨number, -, rfl⟩ := Option.map_eq_some_iff.mp given
      omega
    · intro value given
      obtain ⟨enabled, -, rfl⟩ := Option.map_eq_some_iff.mp given
      cases enabled <;> simp

/-- What the schema guarantees of every store: ids are unique, and every row is acceptable. -/
structure Consistent (db : Database) : Prop where
  unique : (db.hosts.map HostRow.id).Nodup
  valid : ∀ row ∈ db.hosts, RowValid db.folders row
  free : ∀ row ∈ db.hosts, ¬Clashes db.hosts row

end Schema

section Aliases

variable {now : Int} {db : Database} {c : Candidate}

/-- The row that was imported under an alias. -/
def importedRow (db : Database) (alias_ : String) : Option HostRow :=
  db.hosts.find? fun row => row.source == "ssh_config" && row.sourceAlias == some alias_

/-- A record keeps what its row says of its folder and its origin. -/
theorem rowToHost_origin {row : HostRow} {host : Host} (read : rowToHost row = .ok host) :
    host.folderId = row.folderId ∧ host.source.asStr = row.source ∧
      host.sourceAlias = row.sourceAlias := by
  obtain ⟨-, folder, -, -, -, -, alias_, origin⟩ := rowToHost_shows read
  refine ⟨folder, ?_, alias_⟩
  -- Only the text of a source is read as that source.
  unfold HostSource.tryFrom at origin
  split at origin
  · rename_i manual
    rw [← Except.ok.inj origin]
    exact manual.symm
  · split at origin
    · rename_i imported
      rw [← Except.ok.inj origin]
      exact imported.symm
    · cases origin

/-- Under an alias there is no row, a row that cannot be read, or one that is shown. -/
theorem findBySourceAlias_cases (db : Database) (alias_ : String) :
    (importedRow db alias_ = none ∧ findBySourceAlias db alias_ = .ok none) ∨
    (∃ row reason, importedRow db alias_ = some row ∧ rowToHost row = .error reason ∧
      findBySourceAlias db alias_ = .error reason) ∨
    ∃ row bare, importedRow db alias_ = some row ∧ rowToHost row = .ok bare ∧
      findBySourceAlias db alias_ = .ok (some { bare with tags := tagsFor db row.id }) := by
  unfold findBySourceAlias importedRow
  -- The row that is found first decides, and shows its record if it can be read.
  cases db.hosts.find? fun row => row.source == "ssh_config" && row.sourceAlias == some alias_ with
  | none => exact .inl ⟨rfl, rfl⟩
  | some row =>
    right
    cases read : rowToHost row with
    | error reason => exact .inl ⟨row, reason, rfl, read, by simp [attachTags, read, Except.map]⟩
    | ok bare => exact .inr ⟨row, bare, rfl, read, by simp [attachTags, read, Except.map]⟩

/-- What is found under an alias is the record of the row that was imported under it. -/
theorem findBySourceAlias_eq_some {alias_ : String} {host : Host} :
    findBySourceAlias db alias_ = .ok (some host) ↔
      ∃ row bare, importedRow db alias_ = some row ∧ rowToHost row = .ok bare ∧
        host = { bare with tags := tagsFor db row.id } := by
  -- Of the three ways a look-up can end, one finds a record.
  obtain ⟨missing, found⟩ | ⟨row, reason, there, read, found⟩ | ⟨row, bare, there, read, found⟩ :=
    findBySourceAlias_cases db alias_
  · simp [missing, found]
  · simp [there, read, found]
  · simp [there, read, found, eq_comm]

/-- Nothing is found under an alias that no row was imported under. -/
theorem findBySourceAlias_eq_none {alias_ : String} :
    findBySourceAlias db alias_ = .ok none ↔ importedRow db alias_ = none := by
  -- Of the three ways a look-up can end, one finds nothing.
  obtain ⟨missing, found⟩ | ⟨row, reason, there, read, found⟩ | ⟨row, bare, there, read, found⟩ :=
    findBySourceAlias_cases db alias_
  · simp [missing, found]
  · simp [there, found]
  · simp [there, found]

/-- A row that was imported under an alias is one of the table's, and says so. -/
theorem importedRow_eq_some {alias_ : String} {row : HostRow}
    (found : importedRow db alias_ = some row) :
    row ∈ db.hosts ∧ row.source = "ssh_config" ∧ row.sourceAlias = some alias_ := by
  refine ⟨List.mem_of_find?_eq_some found, ?_⟩
  simpa using List.find?_some found

/-- The store refuses a candidate: its port is no port, or its earlier import cannot be read. -/
def Refused (db : Database) (c : Candidate) : Prop :=
  c.port = 0 ∨ ∃ reason, findBySourceAlias db c.alias_ = .error reason

/-- The candidate was imported before, and importing it again changes nothing. -/
def Settled (now : Int) (db : Database) (c : Candidate) : Prop :=
  ∃ existing, findBySourceAlias db c.alias_ = .ok (some existing) ∧
    ∀ row ∈ db.hosts, row.id = existing.id → overwrite now (refreshed existing c) row = row

/-- A row of the table is found under its id. -/
theorem present_of_mem {row : HostRow} {id : Int} (member : row ∈ db.hosts) (named : id = row.id) :
    Present db id := by
  obtain ⟨other, found⟩ : ∃ other, lookup db id = some other := by
    rw [← Option.isSome_iff_exists, lookup, List.find?_isSome]
    exact ⟨row, member, by simp [named]⟩
  exact ⟨other, found⟩

/-- A first import is accepted when its port is one. -/
theorem create_draftOf_iff (new : findBySourceAlias db c.alias_ = .ok none) :
    (∃ result, create now db (draftOf c) = .ok result) ↔ c.port ≠ 0 := by
  have accepted : checkRow db (rowOf (hostOfDraft (nextId db) now (draftOf c))) = .ok () ↔
      c.port ≠ 0 := by
    rw [checkRow_eq_ok_iff, rowValid_rowOf_iff]
    -- No row was imported under the alias, so that there is none to clash with.
    have free : ¬Clashes db.hosts (rowOf (hostOfDraft (nextId db) now (draftOf c))) := by
      rintro ⟨-, -, other, member, -, source, same⟩
      have missed := List.find?_eq_none.mp (findBySourceAlias_eq_none.mp new) other member
      exact missed (by simp [source, same, rowOf, hostOfDraft, draftOf])
    rw [and_iff_left free]
    simp [hostOfDraft, draftOf]
  rw [← accepted]
  refine ⟨?_, ?_⟩
  · rintro ⟨result, created⟩
    obtain ⟨_, passed, -⟩ := bind_eq_ok created
    exact passed
  · intro passed
    exact ⟨_, by simp [create, passed, bind, Except.bind, pure, Except.pure]; rfl⟩

/-- A repeated import is accepted when its port is one. -/
theorem update_refreshed_iff (consistent : Consistent db) {existing : Host}
    (known : findBySourceAlias db c.alias_ = .ok (some existing)) :
    (∃ after, update now db (refreshed existing c) = .ok after) ↔ c.port ≠ 0 := by
  obtain ⟨row, bare, found, read, rfl⟩ := findBySourceAlias_eq_some.mp known
  obtain ⟨member, -, -⟩ := importedRow_eq_some found
  obtain ⟨folder, source, alias_⟩ := rowToHost_origin read
  have named := rowToHost_id read
  -- The row it replaces has the same folder, origin and alias, and those were accepted.
  have accepted : checkRow db (rowOf (refreshed { bare with tags := tagsFor db row.id } c)) =
      .ok () ↔ c.port ≠ 0 := by
    rw [checkRow_eq_ok_iff, rowValid_rowOf_iff]
    -- The alias is the row's own, so it clashes with no more than the row did.
    have free : ¬Clashes db.hosts
        (rowOf (refreshed { bare with tags := tagsFor db row.id } c)) := by
      have own := consistent.free row member
      rwa [Clashes, ← named, ← source, ← alias_] at own
    have filed := (consistent.valid row member).folder
    rw [← folder] at filed
    rw [and_iff_left free]
    exact and_iff_left filed
  rw [← accepted]
  refine ⟨?_, ?_⟩
  · rintro ⟨after, updated⟩
    exact (update_eq updated).2.1
  · intro passed
    refine update_of_accepted now ?_ passed
    exact present_of_mem member named

/-- The turn of a first import. -/
theorem upsertStep_of_new (new : findBySourceAlias db c.alias_ = .ok none) :
    upsertStep now db c = (create now db (draftOf c)).toOption.map Prod.snd := by
  -- The look-up finds nothing, so the turn is an insert with its id left out.
  unfold upsertStep upsert
  simp only [new]
  cases create now db (draftOf c) with
  | error reason => rfl
  | ok result => rfl

/-- The turn of a repeated import. -/
theorem upsertStep_of_known {existing : Host}
    (known : findBySourceAlias db c.alias_ = .ok (some existing)) :
    upsertStep now db c = (update now db (refreshed existing c)).toOption := by
  -- The look-up finds the record, so the turn is an update of it.
  unfold upsertStep upsert
  simp only [known]
  cases update now db (refreshed existing c) with
  | error reason => rfl
  | ok after => rfl

/-- What has no value fails. -/
theorem toOption_eq_none_iff {ε α : Type} {result : Except ε α} :
    result.toOption = none ↔ ¬∃ value, result = .ok value := by
  cases result with
  | error reason => simp [Except.toOption]
  | ok value => simp [Except.toOption]

/-- A turn is refused exactly when its candidate is. -/
theorem upsertStep_eq_none_iff (consistent : Consistent db) :
    upsertStep now db c = none ↔ Refused db c := by
  unfold Refused
  -- A lookup that fails refuses, and otherwise the port decides.
  cases known : findBySourceAlias db c.alias_ with
  | error reason => simp [upsertStep, upsert, known, Except.toOption]
  | ok found =>
    cases found with
    | none =>
      rw [upsertStep_of_new known, Option.map_eq_none_iff, toOption_eq_none_iff,
        create_draftOf_iff known]
      simp
    | some existing =>
      rw [upsertStep_of_known known, toOption_eq_none_iff, update_refreshed_iff consistent known]
      simp

/-- A turn changes nothing exactly when its candidate is settled. -/
theorem upsertStep_eq_self_iff (consistent : Consistent db) :
    upsertStep now db c = some db ↔ Settled now db c := by
  refine ⟨?_, ?_⟩
  · intro taken
    rcases upsertStep_cases taken with ⟨existing, known, updated⟩ | ⟨-, id, created⟩
    · refine ⟨existing, known, ?_⟩
      obtain ⟨-, -, same⟩ := update_eq updated
      -- A refreshed store is the same when each row it writes is the one there was.
      exact map_eq_self_iff.mp (congrArg Database.hosts same).symm
    · -- A row more is a change.
      obtain ⟨-, same⟩ := create_eq created
      have hosts := congrArg Database.hosts same
      simp at hosts
  · rintro ⟨existing, known, same⟩
    -- The row that is written is there already, so its port is one.
    have port : c.port ≠ 0 := by
      obtain ⟨row, bare, found, read, rfl⟩ := findBySourceAlias_eq_some.mp known
      obtain ⟨member, -, -⟩ := importedRow_eq_some found
      have valid := consistent.valid row member
      rw [← same row member (rowToHost_id read).symm] at valid
      have low : (1 : Int) ≤ c.port.toNat := valid.port.1
      rintro zero
      rw [zero] at low
      exact absurd low (by decide)
    -- So the update is accepted, and writes what is there.
    obtain ⟨after, updated⟩ := (@update_refreshed_iff now db c consistent existing known).mpr port
    obtain ⟨-, -, rfl⟩ := update_eq updated
    rw [upsertStep_of_known known, updated]
    have hosts := map_eq_self_iff.mpr same
    simp only [Except.toOption, Option.some.injEq]
    exact congrArg (fun rows => { db with hosts := rows }) hosts

/-- A store stays consistent when every row that is not an old one was accepted. -/
theorem Consistent.of_rows {after : Database} (consistent : Consistent db)
    (folders : after.folders = db.folders) (unique : (after.hosts.map HostRow.id).Nodup)
    (rows : ∀ row ∈ after.hosts, row ∈ db.hosts ∨ checkRow after row = .ok ()) :
    Consistent after := by
  refine ⟨unique, ?_, ?_⟩
  · intro row member
    rcases rows row member with old | accepted
    · rw [folders]
      -- What makes a row valid are its columns and the folders, which stay.
      exact consistent.valid row old
    · exact (checkRow_eq_ok_iff.mp accepted).1
  · intro row member clashes
    rcases rows row member with old | accepted
    · -- A clash goes both ways, so a new row in it would not have been accepted.
      obtain ⟨source, given, other, among, apart, likewise, same⟩ := clashes
      rcases rows other among with earlier | accepted
      · exact consistent.free row old ⟨source, given, other, earlier, apart, likewise, same⟩
      · exact (checkRow_eq_ok_iff.mp accepted).2
          ⟨likewise, same ▸ given, row, member, apart.symm, source, same.symm⟩
    · exact (checkRow_eq_ok_iff.mp accepted).2 clashes

/-- An insert keeps a store consistent. -/
theorem Consistent.create {id : Int} {after : Database} {draft : NewHost}
    (consistent : Consistent db) (created : create now db draft = .ok (id, after)) :
    Consistent after := by
  have accepted := accepted_of_create created
  obtain ⟨rfl, rfl⟩ := create_eq created
  refine consistent.of_rows rfl ?_ ?_
  · -- The new id is above all the others.
    have fresh := List.find?_eq_none.mp (lookup_nextId db)
    rw [List.map_append, List.nodup_append]
    refine ⟨consistent.unique, List.nodup_singleton _, ?_⟩
    intro id known other new same
    obtain ⟨row, member, rfl⟩ := List.mem_map.mp known
    rw [List.map_singleton, List.mem_singleton] at new
    exact fresh row member (decide_eq_true (same.trans new))
  · intro row member
    -- The one row that is new was accepted.
    rcases List.mem_append.mp member with old | new
    · exact .inl old
    · rw [List.mem_singleton.mp new]
      exact .inr accepted

/-- An update keeps a store consistent. -/
theorem Consistent.update {after : Database} {host : Host} (consistent : Consistent db)
    (updated : update now db host = .ok after) : Consistent after := by
  have accepted := accepted_of_update updated
  obtain ⟨-, -, rfl⟩ := update_eq updated
  refine consistent.of_rows rfl ?_ ?_
  · -- Every row keeps its id.
    have ids : ∀ row : HostRow,
        (if row.id = host.id then overwrite now host row else row).id = row.id := by
      intro row
      split
      · rename_i same
        exact same.symm
      · rfl
    simpa [Function.comp_def, ids] using consistent.unique
  · intro row member
    obtain ⟨old, before, rfl⟩ := List.mem_map.mp member
    by_cases same : old.id = host.id
    · -- Of the row that is written, the record was accepted.
      rw [if_pos same, checkRow_overwrite]
      exact .inr accepted
    · rw [if_neg same]
      exact .inl before

/-- A turn keeps a store consistent. -/
theorem Consistent.upsertStep {after : Database} (consistent : Consistent db)
    (taken : upsertStep now db c = some after) : Consistent after := by
  rcases upsertStep_cases taken with ⟨existing, -, updated⟩ | ⟨-, id, created⟩
  · exact consistent.update updated
  · exact consistent.create created

/-- An alias cannot be looked up when the row that was imported under it cannot be read. -/
theorem findBySourceAlias_eq_error {alias_ : String} :
    (∃ reason, findBySourceAlias db alias_ = .error reason) ↔
      ∃ row reason, importedRow db alias_ = some row ∧ rowToHost row = .error reason := by
  -- Of the three ways a look-up can end, one finds a row it cannot read.
  obtain ⟨missing, found⟩ | ⟨row, reason, there, read, found⟩ | ⟨row, bare, there, read, found⟩ :=
    findBySourceAlias_cases db alias_
  · simp [missing, found]
  · simp [there, read, found]
  · simp [there, read, found]

/-- A row that an update wrote can be read. -/
theorem readable_overwrite (now : Int) (host : Host) (row : HostRow) :
    ∃ bare, rowToHost (overwrite now host row) = .ok bare :=
  -- Whatever a host writes it can read, and the columns that are kept are not converted.
  ⟨_, rowToHost_rowOf
    { host with
      lastConnectedAt := row.lastConnectedAt
      connectCount := row.connectCount
      createdAt := row.createdAt
      updatedAt := now }⟩

/-- A repeated import leaves every row under the alias it was imported under. -/
theorem importedRow_update {existing : Host} {after : Database} (consistent : Consistent db)
    (known : findBySourceAlias db c.alias_ = .ok (some existing))
    (updated : update now db (refreshed existing c) = .ok after) (alias_ : String) :
    importedRow after alias_ = (importedRow db alias_).map fun row =>
      if row.id = existing.id then overwrite now (refreshed existing c) row else row := by
  obtain ⟨row, bare, found, read, rfl⟩ := findBySourceAlias_eq_some.mp known
  obtain ⟨member, -, -⟩ := importedRow_eq_some found
  obtain ⟨-, source, named⟩ := rowToHost_origin read
  obtain ⟨-, -, rfl⟩ := update_eq updated
  -- The search behind the update finds the same row as before it.
  unfold importedRow
  rw [List.find?_map]
  congr 1
  refine List.find?_congr fun other among => ?_
  by_cases same : other.id = bare.id
  · -- Only one row has the id, and its origin stays what it was.
    obtain rfl : other = row := List.inj_on_of_nodup_map consistent.unique among member
      (same.trans (rowToHost_id read))
    simp [same, overwrite, rowOf, refreshed, source, named]
  · simp [same, refreshed]

/-- Whether a candidate is refused does not change while others are imported. -/
theorem refused_step_iff {d : Candidate} {after : Database} (consistent : Consistent db)
    (taken : upsertStep now db d = some after) : Refused after c ↔ Refused db c := by
  unfold Refused
  rw [findBySourceAlias_eq_error, findBySourceAlias_eq_error]
  -- The port is the candidate's own, so that only the lookup could change.
  refine or_congr_right ?_
  rcases upsertStep_cases taken with ⟨existing, known, updated⟩ | ⟨new, id, created⟩
  · rw [importedRow_update consistent known updated]
    obtain ⟨own, bare, found, read, rfl⟩ := findBySourceAlias_eq_some.mp known
    obtain ⟨member, -, -⟩ := importedRow_eq_some found
    -- The look-up finds the same row before and after, and fails if that cannot be read.
    cases imported : importedRow db c.alias_ with
    | none => simp
    | some row =>
      by_cases same : row.id = bare.id
      · -- The row that was refreshed could be read before, and can be read now.
        obtain rfl : row = own := List.inj_on_of_nodup_map consistent.unique
          (importedRow_eq_some imported).1 member (same.trans (rowToHost_id read))
        obtain ⟨later, again⟩ :=
          readable_overwrite now (refreshed { bare with tags := tagsFor db row.id } d) row
        rw [Option.map_some, if_pos same]
        refine iff_of_false ?_ ?_
        · rintro ⟨_, reason, ⟨⟩, unread⟩
          rw [again] at unread
          cases unread
        · rintro ⟨_, reason, ⟨⟩, unread⟩
          rw [read] at unread
          cases unread
      · simp [same]
  · obtain ⟨rfl, rfl⟩ := create_eq created
    unfold importedRow
    rw [List.find?_append]
    cases imported : db.hosts.find? fun row =>
        row.source == "ssh_config" && row.sourceAlias == some c.alias_ with
    | some row => simp
    | none =>
      -- A row that was just written can be read.
      refine iff_of_false ?_ (by simp)
      rintro ⟨row, reason, found, unread⟩
      rw [Option.none_or] at found
      obtain rfl := List.mem_singleton.mp (List.mem_of_find?_eq_some found)
      rw [rowToHost_rowOf] at unread
      cases unread

end Aliases

section Imports

variable {now : Int} {db : Database}

/--
If the import failed, no turn of it has changed the store.

The stores it passed through are those that the first of its candidates lead to.
-/
def AllOrNothing (now : Int) (db : Database) (chosen : List Candidate) : Prop :=
  ∀ reason, (apply now db ⟨0, 0⟩ chosen).2 = .error reason →
    ∀ first, first <+: chosen → (apply now db ⟨0, 0⟩ first).1 = db

/-- An import fails when one of its turns is refused. -/
theorem apply_fails_iff (outcome : ImportOutcome) (chosen : List Candidate) :
    (∃ reason, (apply now db outcome chosen).2 = .error reason) ↔
      System.run (upsertStep now) db chosen = none := by
  induction chosen generalizing db outcome with
  | nil => simp [apply, System.run]
  | cons c rest ih =>
    -- The first turn decides whether there are more.
    have turn := upsert_outcome now db outcome c
    rw [apply, System.run, ← turn]
    cases upsert now db outcome c with
    | error reason => simp [Except.toOption]
    | ok result => exact ih result.2

/-- An import is refused when the store it starts from refuses one of its candidates. -/
theorem run_upsertStep_eq_none_iff (consistent : Consistent db) (chosen : List Candidate) :
    System.run (upsertStep now) db chosen = none ↔ ∃ c ∈ chosen, Refused db c := by
  induction chosen generalizing db with
  | nil => simp [System.run]
  | cons c rest ih =>
    rw [System.run]
    cases taken : upsertStep now db c with
    | none => simp [(upsertStep_eq_none_iff consistent).mp taken]
    | some after =>
      have accepted : ¬Refused db c := by
        rw [← @upsertStep_eq_none_iff now db c consistent, taken]
        simp
      -- The turn that was taken does not change which of the others are refused.
      rw [Option.bind_some, ih (consistent.upsertStep taken)]
      simp [accepted, refused_step_iff consistent taken]

/-- An import that starts with a refused candidate does nothing. -/
theorem allOrNothing_of_refused {c : Candidate} {rest : List Candidate}
    (refused : upsertStep now db c = none) : AllOrNothing now db (c :: rest) := by
  -- The import stops at its first turn, and so does any beginning of it.
  intro reason _ first early
  rw [apply_store]
  cases first with
  | nil => rfl
  | cons head tail =>
    obtain ⟨rfl, -⟩ := List.cons_prefix_cons.mp early
    rw [System.runWhile, refused]

/-- A candidate that changes nothing leaves the rest of the import to decide. -/
theorem allOrNothing_of_settled {c : Candidate} {rest : List Candidate}
    (settled : upsertStep now db c = some db) :
    AllOrNothing now db (c :: rest) ↔ AllOrNothing now db rest := by
  have fails : (∃ reason, (apply now db ⟨0, 0⟩ (c :: rest)).2 = .error reason) ↔
      ∃ reason, (apply now db ⟨0, 0⟩ rest).2 = .error reason := by
    rw [apply_fails_iff, apply_fails_iff, System.run_cons settled]
  -- What is imported behind it is imported into the same store.
  have passes (first : List Candidate) :
      (apply now db ⟨0, 0⟩ (c :: first)).1 = (apply now db ⟨0, 0⟩ first).1 := by
    rw [apply_store, apply_store, System.runWhile, settled]
  refine ⟨?_, ?_⟩
  · intro all reason failed first early
    obtain ⟨other, likewise⟩ := fails.mpr ⟨reason, failed⟩
    rw [← passes]
    exact all other likewise _ (List.cons_prefix_cons.mpr ⟨rfl, early⟩)
  · intro all reason failed first early
    obtain ⟨other, likewise⟩ := fails.mp ⟨reason, failed⟩
    -- A prefix of nothing leaves the store, and any other begins with the settled one.
    cases first with
    | nil => rfl
    | cons head tail =>
      obtain ⟨rfl, shorter⟩ := List.cons_prefix_cons.mp early
      rw [passes]
      exact all other likewise tail shorter

/-- A candidate that changes the store leaves the import no way to fail. -/
theorem allOrNothing_of_changed {c : Candidate} {rest : List Candidate} {after : Database}
    (taken : upsertStep now db c = some after) (changed : after ≠ db) :
    AllOrNothing now db (c :: rest) ↔ System.run (upsertStep now) db (c :: rest) ≠ none := by
  rw [Ne, ← apply_fails_iff ⟨0, 0⟩, not_exists]
  refine ⟨?_, ?_⟩
  · intro all reason failed
    -- A failure would mean that the first turn alone has changed nothing.
    have unchanged := all reason failed [c] (by simp)
    rw [apply_store, System.runWhile, taken] at unchanged
    exact changed unchanged
  · intro never reason failed
    exact absurd failed (never reason)

/-- The first candidate that is refused, behind candidates that change nothing. -/
def RefusedFirst (now : Int) (db : Database) (chosen : List Candidate) : Prop :=
  ∃ before c after, chosen = before ++ c :: after ∧ Refused db c ∧
    ∀ earlier ∈ before, Settled now db earlier

/-- A refused candidate is not the first one when that one is accepted. -/
theorem refusedFirst_cons_iff {c : Candidate} {rest : List Candidate} (accepted : ¬Refused db c) :
    RefusedFirst now db (c :: rest) ↔ Settled now db c ∧ RefusedFirst now db rest := by
  refine ⟨?_, ?_⟩
  · rintro ⟨before, other, after, split, refused, settled⟩
    -- The first candidate is accepted, so that it stands in front of the refused one.
    cases before with
    | nil =>
      obtain ⟨rfl, -⟩ := List.cons.inj split
      exact absurd refused accepted
    | cons head before =>
      obtain ⟨rfl, rfl⟩ := List.cons.inj split
      exact ⟨settled c List.mem_cons_self, before, other, after, rfl, refused,
        fun earlier member => settled earlier (List.mem_cons_of_mem _ member)⟩
  · rintro ⟨own, before, other, after, rfl, refused, settled⟩
    exact ⟨c :: before, other, after, rfl, refused, List.forall_mem_cons.mpr ⟨own, settled⟩⟩

/--
An import is all or nothing exactly when the store refuses none of its candidates,
or every candidate in front of one it refuses is there already, word for word.
-/
theorem import_all_or_nothing_iff (now : Int) {db : Database} (consistent : Consistent db)
    (chosen : List Candidate) :
    AllOrNothing now db chosen ↔
      (∀ c ∈ chosen, ¬Refused db c) ∨ RefusedFirst now db chosen := by
  induction chosen with
  | nil => exact iff_of_true (by simp [AllOrNothing, apply]) (by simp)
  | cons c rest ih =>
    cases taken : upsertStep now db c with
    | none =>
      -- The first candidate is refused, and nothing is in front of it.
      refine iff_of_true (allOrNothing_of_refused taken) (.inr ⟨[], c, rest, rfl, ?_, by simp⟩)
      exact (upsertStep_eq_none_iff consistent).mp taken
    | some after =>
      have accepted : ¬Refused db c := by
        rw [← @upsertStep_eq_none_iff now db c consistent, taken]
        simp
      by_cases changed : after = db
      · subst changed
        -- A turn that changes nothing leaves the rest to decide, by the induction.
        have settled := (upsertStep_eq_self_iff consistent).mp taken
        rw [allOrNothing_of_settled taken, ih, refusedFirst_cons_iff accepted, List.forall_mem_cons,
          and_iff_right accepted, and_iff_right settled]
      · -- A turn that changes something leaves a failure no excuse.
        have unsettled : ¬Settled now db c := by
          rw [← upsertStep_eq_self_iff consistent, taken]
          exact fun same => changed (Option.some.inj same)
        rw [allOrNothing_of_changed taken changed, Ne, run_upsertStep_eq_none_iff consistent,
          refusedFirst_cons_iff accepted, or_iff_left (fun both => unsettled both.1)]
        simp only [not_exists, not_and]

/-- A host as an ssh_config names it, on a port of its choice. -/
def candidateOn (alias_ : String) (port : UInt16) : Candidate where
  alias_ := alias_
  hostname := alias_ ++ ".example.com"
  port := port
  username := "deploy"
  auth := .agent
  keyPath := none
  proxyJump := none
  overrides := HostOverrides.default
  disposition := .new

/-- A store without hosts is consistent. -/
theorem consistent_fresh : Consistent Database.fresh :=
  ⟨List.nodup_nil, fun _ member => absurd member List.not_mem_nil,
    fun _ member => absurd member List.not_mem_nil⟩

/-- An import whose first candidate is refused leaves an empty store empty. -/
theorem import_all_or_nothing_of_first :
    Refused Database.fresh (candidateOn "web" 0) ∧
      AllOrNothing 0 Database.fresh [candidateOn "web" 0, candidateOn "db" 22] := by
  have refused : Refused Database.fresh (candidateOn "web" 0) := .inl rfl
  refine ⟨refused, (import_all_or_nothing_iff 0 consistent_fresh _).mpr (.inr ?_)⟩
  exact ⟨[], _, _, rfl, refused, by simp⟩

/-- The second host of a config names port zero, and the first one stays behind. -/
theorem import_stops_halfway :
    (apply 0 Database.fresh ⟨0, 0⟩ [candidateOn "web" 22, candidateOn "db" 0]).2 =
        .error (.constraint "port") ∧
      (apply 0 Database.fresh ⟨0, 0⟩
        [candidateOn "web" 22, candidateOn "db" 0]).1.hosts.map (·.name) = ["web"] ∧
      ¬AllOrNothing 0 Database.fresh [candidateOn "web" 22, candidateOn "db" 0] := by
  refine ⟨rfl, rfl, ?_⟩
  intro all
  have unchanged := congrArg Database.hosts (all _ rfl _ List.prefix_rfl)
  cases unchanged

end Imports

end Tern.Store
