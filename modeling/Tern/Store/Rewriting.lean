import Tern.Store.AllOrNothing

/-! Rewriting rows in place, and what that leaves of the operations on other rows. -/

namespace Tern.Store

section Rows

/-- Rewrite the rows of one id. -/
def rewriteAt (id : Int) (rewrite : HostRow → HostRow) (row : HostRow) : HostRow :=
  if row.id = id then rewrite row else row

/-- What a row says of where it is from: its id, its source, and its alias. -/
def origin (row : HostRow) : Int × String × Option String :=
  (row.id, row.source, row.sourceAlias)

/-- A rewriting leaves the origin of every row of a table. -/
def KeepsOrigins (rewrite : HostRow → HostRow) (hosts : List HostRow) : Prop :=
  ∀ row ∈ hosts, origin (rewrite row) = origin row

variable {id : Int} {rewrite : HostRow → HostRow} {row : HostRow} {hosts others : List HostRow}
  {db other after : Database}

/-- A row of the id is rewritten. -/
theorem rewriteAt_of_eq (same : row.id = id) : rewriteAt id rewrite row = rewrite row :=
  if_pos same

/-- A row of another id stays. -/
theorem rewriteAt_of_ne (apart : row.id ≠ id) : rewriteAt id rewrite row = row :=
  if_neg apart

/-- A row keeps its id when its origin is kept. -/
theorem KeepsOrigins.id_eq (keeps : KeepsOrigins rewrite hosts) (member : row ∈ hosts) :
    (rewrite row).id = row.id :=
  congrArg Prod.fst (keeps row member)

/-- A row is as imported as before when its origin is kept. -/
theorem KeepsOrigins.imported (keeps : KeepsOrigins rewrite hosts) (member : row ∈ hosts) :
    (rewrite row).source = row.source ∧ (rewrite row).sourceAlias = row.sourceAlias :=
  Prod.mk.inj (congrArg Prod.snd (keeps row member))

/-- The ids of a table stay when the origins are kept. -/
theorem KeepsOrigins.ids (keeps : KeepsOrigins rewrite hosts) :
    (hosts.map rewrite).map HostRow.id = hosts.map HostRow.id := by
  rw [List.map_map]
  exact List.map_congr_left fun row member => keeps.id_eq member

/-- The next id depends on the ids of the table. -/
theorem nextId_congr (same : other.hosts.map HostRow.id = db.hosts.map HostRow.id) :
    nextId other = nextId db := by
  unfold nextId
  have folded : ∀ rows : List HostRow, rows.foldl (fun largest row => max largest row.id) 0 =
      (rows.map HostRow.id).foldl max 0 := fun rows => List.foldl_map.symm
  rw [folded, folded, same]

/-- A clash stays one in a table that has at least the same origins. -/
theorem Clashes.mono (clashes : Clashes hosts row)
    (kept : ∀ known ∈ hosts, ∃ now ∈ others, origin now = origin known) : Clashes others row := by
  -- The row that it clashes with has one of the same origin in the other table.
  obtain ⟨source, given, known, member, apart, likewise, same⟩ := clashes
  obtain ⟨now, there, equal⟩ := kept known member
  obtain ⟨ids, equal⟩ := Prod.mk.inj equal
  obtain ⟨sources, aliases⟩ := Prod.mk.inj equal
  exact ⟨source, given, now, there, ids ▸ apart, sources.trans likewise, aliases.trans same⟩

/-- Whether a row clashes depends on its origin. -/
theorem Clashes.congr {other : HostRow} (clashes : Clashes hosts row)
    (same : origin other = origin row) : Clashes hosts other := by
  -- A clash is about the id, the source and the alias, and so about the origin.
  obtain ⟨source, given, known, member, apart, likewise, equal⟩ := clashes
  obtain ⟨ids, same⟩ := Prod.mk.inj same
  obtain ⟨sources, aliases⟩ := Prod.mk.inj same
  exact ⟨sources.trans source, aliases ▸ given, known, member, ids ▸ apart, likewise,
    equal.trans aliases.symm⟩

/-- A valid row is accepted in the place of a row of its origin. -/
theorem accepted_of_origin {other : HostRow} (consistent : Consistent db) (member : row ∈ db.hosts)
    (same : origin other = origin row) (valid : RowValid db.folders other) :
    checkRow db other = .ok () :=
  checkRow_eq_ok_iff.mpr ⟨valid,
    fun clashes => consistent.free row member (clashes.congr same.symm)⟩

/-- Rewriting rows into valid ones of their origin keeps a store consistent. -/
theorem Consistent.of_rewriting (consistent : Consistent db) (keeps : KeepsOrigins rewrite db.hosts)
    (hosts : after.hosts = db.hosts.map rewrite) (folders : after.folders = db.folders)
    (valid : ∀ row ∈ db.hosts, RowValid db.folders (rewrite row)) : Consistent after := by
  refine ⟨?_, ?_, ?_⟩
  · rw [hosts, keeps.ids]
    exact consistent.unique
  · intro row member
    rw [hosts] at member
    obtain ⟨old, there, rfl⟩ := List.mem_map.mp member
    exact folders ▸ valid old there
  · intro row member clashes
    rw [hosts] at member clashes
    obtain ⟨old, there, rfl⟩ := List.mem_map.mp member
    -- A clash after the rewriting would be one of the rows before it.
    refine consistent.free old there (Clashes.congr (clashes.mono ?_) (keeps old there).symm)
    intro known among
    obtain ⟨before, early, rfl⟩ := List.mem_map.mp among
    exact ⟨before, early, (keeps before early).symm⟩

/-- Rewriting the rows of one id into valid ones of their origin keeps a store consistent. -/
theorem Consistent.rewriteAt (consistent : Consistent db)
    (hosts : after.hosts = db.hosts.map (rewriteAt id rewrite))
    (folders : after.folders = db.folders)
    (rows : ∀ row ∈ db.hosts, row.id = id →
      origin (rewrite row) = origin row ∧ RowValid db.folders (rewrite row)) :
    Consistent after := by
  -- Only the rows of the id are rewritten, and the others are what they were.
  refine consistent.of_rewriting ?_ hosts folders ?_
  · intro row member
    by_cases same : row.id = id
    · rw [rewriteAt_of_eq same]
      exact (rows row member same).1
    · rw [rewriteAt_of_ne same]
  · intro row member
    by_cases same : row.id = id
    · rw [rewriteAt_of_eq same]
      exact (rows row member same).2
    · rw [rewriteAt_of_ne same]
      exact consistent.valid row member

/-- A deletion keeps a store consistent. -/
theorem Consistent.delete (consistent : Consistent db) (deleted : delete db id = .ok after) :
    Consistent after := by
  -- The rows that are left were there before, with the same folders.
  obtain ⟨-, rfl⟩ := delete_eq deleted
  refine consistent.of_rows rfl ?_ ?_
  · exact consistent.unique.sublist (List.filter_sublist.map HostRow.id)
  · intro row member
    exact .inl (List.mem_of_mem_filter member)

/-- A move keeps a store consistent. -/
theorem Consistent.moveToFolder {now : Int} {folderId : Option Int} (consistent : Consistent db)
    (moved : moveToFolder now db id folderId = .ok after) : Consistent after := by
  obtain ⟨filed, rfl⟩ := moveToFolder_eq moved
  refine consistent.rewriteAt rfl rfl fun row member same => ⟨rfl, ?_⟩
  obtain ⟨port, keepalive, reconnect, -⟩ := consistent.valid row member
  exact ⟨port, keepalive, reconnect, filed⟩

/-- Counting a connection keeps a store consistent. -/
theorem Consistent.recordConnection (consistent : Consistent db) (id at_ : Int) :
    Consistent (recordConnection db id at_) := by
  refine consistent.rewriteAt rfl rfl fun row member same => ⟨rfl, ?_⟩
  obtain ⟨port, keepalive, reconnect, folder⟩ := consistent.valid row member
  exact ⟨port, keepalive, reconnect, folder⟩

/-- Tagging keeps a store consistent. -/
theorem Consistent.setTags {tags : List Int} (consistent : Consistent db)
    (done : setTags db id tags = .ok after) : Consistent after := by
  obtain ⟨pairs, -, tagged⟩ := bind_eq_ok done
  cases tagged
  exact ⟨consistent.unique, consistent.valid, consistent.free⟩

/-- The row that was imported under an alias is found again when the origins are kept. -/
theorem importedRow_map (keeps : KeepsOrigins rewrite db.hosts)
    (mapped : other.hosts = db.hosts.map rewrite) (alias_ : String) :
    importedRow other alias_ = (importedRow db alias_).map rewrite := by
  -- Whether a row is the one of the alias is decided by its origin.
  unfold importedRow
  rw [mapped, List.find?_map]
  congr 1
  refine List.find?_congr fun row member => ?_
  obtain ⟨source, named⟩ := keeps.imported member
  simp [source, named]

/-- A row is found again under its id when the origins are kept. -/
theorem lookup_rewrite (keeps : KeepsOrigins rewrite db.hosts)
    (mapped : other.hosts = db.hosts.map rewrite) (id : Int) :
    lookup other id = (lookup db id).map rewrite := by
  -- Whether a row is the one of the id is decided by its origin.
  unfold lookup
  rw [mapped, List.find?_map]
  congr 1
  refine List.find?_congr fun row member => ?_
  simp [keeps.id_eq member]

/-- What is found under an id stays when the rows of another id are written. -/
theorem lookup_rewriteAt_of_ne {written : HostRow} {key : Int} (named : written.id = id)
    (mapped : other.hosts = db.hosts.map (rewriteAt id fun _ => written)) (apart : key ≠ id) :
    lookup other key = lookup db key := by
  -- The row that is written keeps its id, so it is not the one that is looked for.
  have same : ∀ row : HostRow, (rewriteAt id (fun _ => written) row).id = row.id := by
    intro row
    by_cases here : row.id = id
    · rw [rewriteAt_of_eq here, named, here]
    · rw [rewriteAt_of_ne here]
  have kept := @lookup_map db _ same key
  unfold lookup at kept ⊢
  rw [mapped, kept]
  cases found : db.hosts.find? fun row => row.id = key with
  | none => rfl
  | some row =>
    have : row.id = key := by simpa using List.find?_some found
    rw [Option.map_some, rewriteAt_of_ne (this ▸ apart)]

/-- A row of a table with unique ids is the one that is found. -/
theorem lookup_of_mem (unique : (db.hosts.map HostRow.id).Nodup) (member : row ∈ db.hosts) :
    lookup db row.id = some row := by
  obtain ⟨found, there⟩ := present_of_mem member rfl
  have same := List.inj_on_of_nodup_map unique (List.mem_of_find?_eq_some there) member
    (lookup_id there)
  rw [there, same]

end Rows

section Turns

variable {now : Int} {db other after : Database} {c : Candidate} {rewrite : HostRow → HostRow}

/-- A turn of an import touches neither the folders nor the tags. -/
theorem upsertStep_frame (taken : upsertStep now db c = some after) :
    after.folders = db.folders ∧ after.tags = db.tags := by
  -- A turn is an update or an insert, and both write to the rows only.
  rcases upsertStep_cases taken with ⟨existing, -, updated⟩ | ⟨-, id, created⟩
  · obtain ⟨-, -, rfl⟩ := update_eq updated
    exact ⟨rfl, rfl⟩
  · obtain ⟨-, rfl⟩ := create_eq created
    exact ⟨rfl, rfl⟩

/-- A turn of an import and a rewriting of other rows may change places. -/
theorem upsertStep_map (keeps : KeepsOrigins rewrite db.hosts)
    (mapped : other.hosts = db.hosts.map rewrite) (folders : other.folders = db.folders)
    (taken : upsertStep now db c = some after)
    (known : ∀ row, importedRow db c.alias_ = some row →
      ∀ same : HostRow, same.id = row.id → rewrite same = same)
    (new : importedRow db c.alias_ = none →
      ∀ same : HostRow, same.id = nextId db → rewrite same = same) :
    ∃ result, upsertStep now other c = some result ∧
      result.hosts = after.hosts.map rewrite := by
  have imported := importedRow_map keeps mapped c.alias_
  -- What the schema accepts in one table it accepts in the other.
  have accepts : ∀ row, checkRow db row = .ok () → checkRow other row = .ok () := by
    intro row accepted
    obtain ⟨valid, free⟩ := checkRow_eq_ok_iff.mp accepted
    refine checkRow_eq_ok_iff.mpr ⟨folders ▸ valid, fun clashes => free ?_⟩
    refine clashes.mono fun row member => ?_
    rw [mapped] at member
    obtain ⟨old, there, rfl⟩ := List.mem_map.mp member
    exact ⟨old, there, (keeps old there).symm⟩
  rcases upsertStep_cases taken with ⟨existing, found, updated⟩ | ⟨found, id, created⟩
  · obtain ⟨row, bare, there, read, rfl⟩ := findBySourceAlias_eq_some.mp found
    have fixed := known row there
    rw [there, Option.map_some, fixed row rfl] at imported
    -- The row under the alias is left alone by the rewriting, so that it is found again.
    have again : findBySourceAlias other c.alias_ =
        .ok (some { bare with tags := tagsFor other row.id }) :=
      findBySourceAlias_eq_some.mpr ⟨row, bare, imported, read, rfl⟩
    obtain ⟨-, accepted, rfl⟩ := update_eq updated
    have named := rowToHost_id read
    -- The other table accepts the same update, and writes the same row.
    obtain ⟨result, written⟩ := @update_of_accepted other
      (refreshed { bare with tags := tagsFor other row.id } c) now
      (present_of_mem (importedRow_eq_some imported).1 named) (accepts _ accepted)
    refine ⟨result, by rw [upsertStep_of_known again, written]; rfl, ?_⟩
    obtain ⟨-, -, rfl⟩ := update_eq written
    simp only [mapped, List.map_map]
    refine List.map_congr_left fun old member => ?_
    simp only [Function.comp_apply, keeps.id_eq member, refreshed]
    -- Only the row that is refreshed changes, and the rewriting leaves that one alone.
    by_cases same : old.id = bare.id
    · have same : old.id = row.id := same.trans named
      simp only [same, named, if_true]
      rw [fixed old same]
      exact (fixed _ (by simp [overwrite, rowOf])).symm
    · simp only [same, if_false]
  · -- Nothing is found in either table, and both give the new row the same id.
    have missed := findBySourceAlias_eq_none.mp found
    rw [missed, Option.map_none] at imported
    have ids : nextId other = nextId db := nextId_congr (mapped ▸ keeps.ids)
    obtain ⟨_, accepted, -⟩ := bind_eq_ok created
    obtain ⟨rfl, rfl⟩ := create_eq created
    have written : create now other (draftOf c) = .ok (nextId db, { other with
        hosts := other.hosts ++ [rowOf (hostOfDraft (nextId db) now (draftOf c))] }) := by
      simp only [create, ids, accepts _ accepted]
      rfl
    refine ⟨_, by rw [upsertStep_of_new (findBySourceAlias_eq_none.mpr imported), written]; rfl, ?_⟩
    -- The new row is left alone by the rewriting as well.
    simp only [mapped, List.map_append, List.map_cons, List.map_nil]
    rw [new missed _ rfl]

/-- What an import can take in a rewritten table it can take in the table itself. -/
theorem upsertStep_of_map (keeps : KeepsOrigins rewrite db.hosts)
    (mapped : other.hosts = db.hosts.map rewrite) (consistent : Consistent db)
    (later : Consistent other) (taken : upsertStep now other c = some after)
    (known : ∀ row, importedRow db c.alias_ = some row → rewrite row = row) :
    ∃ result, upsertStep now db c = some result := by
  -- Being refused is about the table alone, and the one that took the turn did not refuse.
  have accepted : ¬Refused other c := by
    intro refused
    rw [(upsertStep_eq_none_iff later).mpr refused] at taken
    cases taken
  rw [← Option.ne_none_iff_exists']
  intro refused
  refine accepted (((upsertStep_eq_none_iff consistent).mp refused).imp_right ?_)
  -- The row under the alias is the same one in both tables, so it cannot be read in either.
  rintro ⟨reason, unread⟩
  obtain ⟨row, cause, found, fails⟩ := findBySourceAlias_eq_error.mp ⟨reason, unread⟩
  have imported := importedRow_map keeps mapped c.alias_
  rw [found, Option.map_some, known row found] at imported
  exact findBySourceAlias_eq_error.mpr ⟨row, cause, imported, fails⟩

/-- A row was imported under the candidate's alias. -/
def ImportedAs (c : Candidate) (row : HostRow) : Prop :=
  row.source = "ssh_config" ∧ row.sourceAlias = some c.alias_

/-- A row that was imported under an alias is the one that is found under it. -/
theorem importedRow_of_alias {row : HostRow} {alias_ : String} (consistent : Consistent db)
    (member : row ∈ db.hosts) (source : row.source = "ssh_config")
    (named : row.sourceAlias = some alias_) : importedRow db alias_ = some row := by
  obtain ⟨found, there⟩ : ∃ found, importedRow db alias_ = some found := by
    rw [← Option.isSome_iff_exists, importedRow, List.find?_isSome]
    exact ⟨row, member, by simp [source, named]⟩
  obtain ⟨among, sources, aliases⟩ := importedRow_eq_some there
  -- Another row under the alias would clash with this one.
  have same : found.id = row.id := by
    by_contra apart
    exact consistent.free row member ⟨source, by rw [named]; rfl, found, among, apart, sources,
      aliases.trans named.symm⟩
  rw [there, List.inj_on_of_nodup_map consistent.unique among member same]

/-- The same for the alias of a candidate. -/
theorem importedRow_of_imported {row : HostRow} (consistent : Consistent db)
    (member : row ∈ db.hosts) (imported : ImportedAs c row) :
    importedRow db c.alias_ = some row :=
  importedRow_of_alias consistent member imported.1 imported.2

/-- An import may insert what clashes with no earlier import. -/
theorem upsertStep_of_create {id : Int} (created : create now db (draftOf c) = .ok (id, after)) :
    upsertStep now db c = some after := by
  obtain ⟨_, accepted, -⟩ := bind_eq_ok created
  -- A row under the alias would have made the schema refuse the insert.
  have missed : importedRow db c.alias_ = none := by
    rw [Option.eq_none_iff_forall_ne_some]
    intro row found
    obtain ⟨member, source, alias_⟩ := importedRow_eq_some found
    have fresh := List.find?_eq_none.mp (lookup_nextId db) row member
    exact (checkRow_eq_ok_iff.mp accepted).2 ⟨rfl, rfl, row, member,
      fun same => fresh (decide_eq_true same), source, alias_⟩
  rw [upsertStep_of_new (findBySourceAlias_eq_none.mpr missed), created]
  rfl

/-- What is imported under an alias is as imported as before once it is refreshed. -/
theorem importedAs_refreshed {existing : Host}
    (found : findBySourceAlias db c.alias_ = .ok (some existing)) (row : HostRow) :
    ImportedAs c (overwrite now (refreshed existing c) row) := by
  obtain ⟨old, bare, there, read, rfl⟩ := findBySourceAlias_eq_some.mp found
  obtain ⟨-, source, named⟩ := importedRow_eq_some there
  obtain ⟨-, sources, aliases⟩ := rowToHost_origin read
  exact ⟨sources.trans source, aliases.trans named⟩

/-- After a turn, a row is an old one or was imported under the turn's alias. -/
theorem mem_upsertStep {row : HostRow} (taken : upsertStep now db c = some after)
    (member : row ∈ after.hosts) : row ∈ db.hosts ∨ ImportedAs c row := by
  rcases upsertStep_cases taken with ⟨existing, found, updated⟩ | ⟨-, id, created⟩
  · obtain ⟨-, -, rfl⟩ := update_eq updated
    obtain ⟨old, there, rfl⟩ := List.mem_map.mp member
    -- The row that was refreshed was imported under the alias before.
    by_cases same : old.id = (refreshed existing c).id
    · rw [if_pos same]
      exact .inr (importedAs_refreshed found old)
    · rw [if_neg same]
      exact .inl there
  · obtain ⟨-, rfl⟩ := create_eq created
    refine (List.mem_append.mp member).imp_right fun new => ?_
    rw [List.mem_singleton.mp new]
    exact ⟨rfl, rfl⟩

/-- A turn leaves the ids of the table, and may add one. -/
theorem upsertStep_ids (taken : upsertStep now db c = some after) :
    db.hosts.map HostRow.id <+: after.hosts.map HostRow.id := by
  rcases upsertStep_cases taken with ⟨existing, -, updated⟩ | ⟨-, id, created⟩
  · obtain ⟨-, -, rfl⟩ := update_eq updated
    -- Refreshing a row keeps its id.
    have kept : ∀ row : HostRow, (if row.id = (refreshed existing c).id then
        overwrite now (refreshed existing c) row else row).id = row.id := by
      intro row
      split
      · rename_i same
        exact same.symm
      · rfl
    simp [Function.comp_def, kept]
  · obtain ⟨-, rfl⟩ := create_eq created
    simp

/-- A turn leaves the origins of the table when no id is taken twice. -/
theorem upsertStep_origins (unique : (db.hosts.map HostRow.id).Nodup)
    (taken : upsertStep now db c = some after) {row : HostRow} (member : row ∈ db.hosts) :
    ∃ kept ∈ after.hosts, origin kept = origin row := by
  rcases upsertStep_cases taken with ⟨existing, found, updated⟩ | ⟨-, id, created⟩
  · obtain ⟨old, bare, there, read, rfl⟩ := findBySourceAlias_eq_some.mp found
    obtain ⟨-, source, named⟩ := importedRow_eq_some there
    obtain ⟨-, -, rfl⟩ := update_eq updated
    refine ⟨_, List.mem_map_of_mem member, ?_⟩
    change origin (if row.id = bare.id then _ else _) = _
    by_cases same : row.id = bare.id
    · -- Only the row that was found has the id that is refreshed.
      obtain rfl : row = old := List.inj_on_of_nodup_map unique member
        (importedRow_eq_some there).1 (same.trans (rowToHost_id read))
      obtain ⟨sources, aliases⟩ := @importedAs_refreshed now _ _ _ found row
      rw [if_pos same]
      exact Prod.ext same.symm (Prod.ext (sources.trans source.symm) (aliases.trans named.symm))
    · rw [if_neg same]
  · obtain ⟨-, rfl⟩ := create_eq created
    -- An insert leaves the rows that are there.
    exact ⟨row, List.mem_append_left _ member, rfl⟩

/-- A turn touches no row of an id that is there and not imported under its alias. -/
theorem upsertStep_spares {id : Int} (taken : upsertStep now db c = some after)
    (there : ∃ row ∈ db.hosts, row.id = id)
    (spared : ∀ row ∈ db.hosts, row.id = id → ¬ImportedAs c row) (row : HostRow)
    (named : row.id = id) : row ∈ after.hosts ↔ row ∈ db.hosts := by
  rcases upsertStep_cases taken with ⟨existing, found, updated⟩ | ⟨-, new, created⟩
  · obtain ⟨old, bare, under, read, rfl⟩ := findBySourceAlias_eq_some.mp found
    obtain ⟨member, source, alias_⟩ := importedRow_eq_some under
    -- The row that is refreshed has another id.
    have apart : ∀ other : HostRow, other.id = id → other.id ≠ bare.id := by
      intro other this same
      exact spared old member ((rowToHost_id read).symm.trans (same.symm.trans this))
        ⟨source, alias_⟩
    obtain ⟨-, -, rfl⟩ := update_eq updated
    refine ⟨?_, ?_⟩
    · intro later
      obtain ⟨other, before, rfl⟩ := List.mem_map.mp later
      change (if other.id = bare.id then _ else other).id = id at named
      change (if other.id = bare.id then _ else other) ∈ db.hosts
      -- What is rewritten is under the other id, and the rest is as before.
      by_cases same : other.id = bare.id
      · rw [if_pos same] at named
        exact absurd rfl (apart _ named)
      · rw [if_neg same]
        exact before
    · intro before
      exact List.mem_map.mpr ⟨row, before, if_neg (apart row named)⟩
  · obtain ⟨rfl, rfl⟩ := create_eq created
    refine ⟨?_, List.mem_append_left _⟩
    intro later
    refine (List.mem_append.mp later).resolve_right fun added => ?_
    -- A new id is no id that is there.
    obtain ⟨known, member, same⟩ := there
    have fresh := List.find?_eq_none.mp (lookup_nextId db) known member
    rw [List.mem_singleton.mp added] at named
    exact fresh (decide_eq_true (same.trans named.symm))

end Turns

section Imports

/-- A turn of an import, with the time it writes. -/
def timedUpsert (db : Database) (item : Int × Candidate) : Option Database :=
  upsertStep item.1 db item.2

/-- A row was imported under the alias of a candidate among several. -/
def ImportedIn (items : List (Int × Candidate)) (row : HostRow) : Prop :=
  ∃ item ∈ items, ImportedAs item.2 row

variable {db after other : Database} {items : List (Int × Candidate)}

/-- Whether a row was imported depends on its origin. -/
theorem importedIn_congr {row same : HostRow} (origins : origin same = origin row) :
    ImportedIn items same ↔ ImportedIn items row := by
  obtain ⟨-, origins⟩ := Prod.mk.inj origins
  obtain ⟨source, alias_⟩ := Prod.mk.inj origins
  simp only [ImportedIn, ImportedAs, source, alias_]

/-- Several turns touch neither the folders nor the tags. -/
theorem upserts_frame (ran : System.run timedUpsert db items = some after) :
    after.folders = db.folders ∧ after.tags = db.tags := by
  induction items generalizing db with
  | nil =>
    cases ran
    exact ⟨rfl, rfl⟩
  | cons item rest ih =>
    -- The first turn leaves them, and so do the turns behind it.
    obtain ⟨next, taken, ran⟩ := Option.bind_eq_some_iff.mp ran
    obtain ⟨folders, tags⟩ := upsertStep_frame taken
    exact ⟨(ih ran).1.trans folders, (ih ran).2.trans tags⟩

/-- After several turns, a row is an old one or was imported under one of their aliases. -/
theorem mem_upserts {row : HostRow} (ran : System.run timedUpsert db items = some after)
    (member : row ∈ after.hosts) : row ∈ db.hosts ∨ ImportedIn items row := by
  induction items generalizing db with
  | nil =>
    cases ran
    exact .inl member
  | cons item rest ih =>
    obtain ⟨next, taken, ran⟩ := Option.bind_eq_some_iff.mp ran
    -- A row behind the first turn is an old one, or was imported by it or by a later one.
    obtain there | ⟨later, among, imported⟩ := ih ran
    · exact (mem_upsertStep taken there).imp_right fun imported =>
        ⟨item, List.mem_cons_self, imported⟩
    · exact .inr ⟨later, List.mem_cons_of_mem _ among, imported⟩

/-- Several turns leave the ids of the table, and may add some. -/
theorem upserts_ids (ran : System.run timedUpsert db items = some after) :
    db.hosts.map HostRow.id <+: after.hosts.map HostRow.id := by
  -- Each turn keeps the ids in front and may put one behind them.
  induction items generalizing db with
  | nil =>
    cases ran
    exact List.prefix_rfl
  | cons item rest ih =>
    obtain ⟨next, taken, ran⟩ := Option.bind_eq_some_iff.mp ran
    exact (upsertStep_ids taken).trans (ih ran)

/-- Several turns and the rewriting of a row that none of them imports may change places. -/
theorem upserts_rewriteAt {id : Int} {rewrite : HostRow → HostRow}
    (ran : System.run timedUpsert db items = some after)
    (keeps : KeepsOrigins (rewriteAt id rewrite) db.hosts)
    (mapped : other.hosts = db.hosts.map (rewriteAt id rewrite))
    (folders : other.folders = db.folders) (there : ∃ row ∈ db.hosts, row.id = id)
    (spared : ∀ row ∈ db.hosts, row.id = id → ¬ImportedIn items row) :
    ∃ result, System.run timedUpsert other items = some result ∧
      result.hosts = after.hosts.map (rewriteAt id rewrite) := by
  -- The induction takes the rewriting behind one turn after the other.
  induction items generalizing db other with
  | nil =>
    cases ran
    exact ⟨other, rfl, mapped⟩
  | cons item rest ih =>
    obtain ⟨next, taken, ran⟩ := Option.bind_eq_some_iff.mp ran
    -- The first turn does not import the row, nor does it insert one of its id.
    have unimported : ∀ row ∈ db.hosts, row.id = id → ¬ImportedAs item.2 row :=
      fun row member named imported => spared row member named ⟨item, List.mem_cons_self, imported⟩
    have spares := upsertStep_spares taken there unimported
    obtain ⟨reached, turned, hosts⟩ := upsertStep_map keeps mapped folders taken
      (by
        intro row found same this
        obtain ⟨member, imported⟩ := importedRow_eq_some found
        exact rewriteAt_of_ne fun named =>
          unimported row member (this.symm.trans named) imported)
      (by
        intro _ same this
        obtain ⟨known, member, named⟩ := there
        refine rewriteAt_of_ne fun equal => ?_
        exact List.find?_eq_none.mp (lookup_nextId db) known member
          (decide_eq_true (named.trans (equal.symm.trans this))))
    have stepped : timedUpsert other item = some reached := turned
    rw [System.run_cons stepped]
    refine ih ran ?_ hosts ?_ ?_ ?_
    · intro row member
      -- The rewritten row is the one that was there, and all others stay.
      by_cases named : row.id = id
      · exact keeps row ((spares row named).mp member)
      · rw [rewriteAt_of_ne named]
    · rw [(upsertStep_frame turned).1, (upsertStep_frame taken).1, folders]
    · obtain ⟨row, member, named⟩ := there
      exact ⟨row, (spares row named).mpr member, named⟩
    · -- The row is still the one it was, and spared by the turns that are left.
      intro row member named ⟨later, among, imported⟩
      exact spared row ((spares row named).mp member) named
        ⟨later, List.mem_cons_of_mem _ among, imported⟩

/-- Several turns leave the same rows in tables that have the same rows. -/
theorem upserts_congr (ran : System.run timedUpsert db items = some after)
    (hosts : other.hosts = db.hosts) (folders : other.folders = db.folders) :
    ∃ result, System.run timedUpsert other items = some result ∧ result.hosts = after.hosts := by
  induction items generalizing db other with
  | nil =>
    cases ran
    exact ⟨other, rfl, hosts⟩
  | cons item rest ih =>
    obtain ⟨next, taken, ran⟩ := Option.bind_eq_some_iff.mp ran
    -- Tables with the same rows differ by rewriting nothing.
    obtain ⟨reached, turned, rows⟩ := @upsertStep_map item.1 db other next item.2 (fun row => row)
      (fun _ _ => rfl) (hosts.trans (List.map_id' _).symm) folders taken
      (fun _ _ _ _ => rfl) fun _ _ _ => rfl
    have stepped : timedUpsert other item = some reached := turned
    rw [System.run_cons stepped]
    refine ih ran (rows.trans (List.map_id' _)) ?_
    rw [(upsertStep_frame turned).1, (upsertStep_frame taken).1, folders]

end Imports

end Tern.Store
