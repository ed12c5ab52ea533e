import Tern.Store.Calls

/-! What an import makes of the hosts that are there, and what a second one adds to that. -/

namespace Tern.Store

/-- A record was imported under an alias. -/
def Host.ImportOf (self : Host) (alias_ : String) : Prop :=
  self.source = .sshConfig ∧ self.sourceAlias = some alias_

instance (host : Host) (alias_ : String) : Decidable (host.ImportOf alias_) :=
  inferInstanceAs (Decidable (_ ∧ _))

/-- A record shows what a candidate says. -/
structure Carries (host : Host) (c : Candidate) : Prop where
  hostname : host.hostname = c.hostname
  port : host.port = c.port
  username : host.username = c.username
  auth : host.auth = c.auth
  keyPath : host.keyPath = c.keyPath
  proxyJump : host.proxyJump = c.proxyJump
  overrides : host.overrides = c.overrides

/-- A record shows what no import may change of an earlier one. -/
structure Keeps (host later : Host) : Prop where
  id : later.id = host.id
  folderId : later.folderId = host.folderId
  name : later.name = host.name
  authFallbacks : later.authFallbacks = host.authFallbacks
  secretRef : later.secretRef = host.secretRef
  source : later.source = host.source
  sourceAlias : later.sourceAlias = host.sourceAlias
  color : later.color = host.color
  notes : later.notes = host.notes
  lastConnectedAt : later.lastConnectedAt = host.lastConnectedAt
  connectCount : later.connectCount = host.connectCount
  createdAt : later.createdAt = host.createdAt
  tags : later.tags = host.tags

/-- A record goes on from an earlier import of its alias, or starts without any credential. -/
def Continues : Option Host → Host → Prop
  | some earlier, host => Keeps earlier host
  | none, host => host.authFallbacks = [] ∧ host.secretRef = none

/-- What an import makes of a record that is there. -/
def reimported (now : Int) (chosen : List Candidate) (host : Host) : Host :=
  match chosen.find? fun c => decide (host.ImportOf c.alias_) with
  | none => host
  | some c => { refreshed host c with updatedAt := now }

section Records

variable {now : Int} {host : Host} {c : Candidate} {rest chosen : List Candidate}

/-- A record that is brought up to date carries the candidate. -/
theorem carries_refreshed (host : Host) (c : Candidate) (now : Int) :
    Carries { refreshed host c with updatedAt := now } c :=
  ⟨rfl, rfl, rfl, rfl, rfl, rfl, rfl⟩

/-- A record that is brought up to date keeps everything else. -/
theorem keeps_refreshed (host : Host) (c : Candidate) (now : Int) :
    Keeps host { refreshed host c with updatedAt := now } :=
  ⟨rfl, rfl, rfl, rfl, rfl, rfl, rfl, rfl, rfl, rfl, rfl, rfl, rfl⟩

/-- A record that nothing is done to keeps everything. -/
theorem Keeps.refl (host : Host) : Keeps host host :=
  ⟨rfl, rfl, rfl, rfl, rfl, rfl, rfl, rfl, rfl, rfl, rfl, rfl, rfl⟩

/-- What two imports keep one after the other, they keep together. -/
theorem Keeps.trans {later last : Host} (first : Keeps host later) (second : Keeps later last) :
    Keeps host last where
  -- Each field that is kept twice is kept.
  id := second.id.trans first.id
  folderId := second.folderId.trans first.folderId
  name := second.name.trans first.name
  authFallbacks := second.authFallbacks.trans first.authFallbacks
  secretRef := second.secretRef.trans first.secretRef
  source := second.source.trans first.source
  sourceAlias := second.sourceAlias.trans first.sourceAlias
  color := second.color.trans first.color
  notes := second.notes.trans first.notes
  lastConnectedAt := second.lastConnectedAt.trans first.lastConnectedAt
  connectCount := second.connectCount.trans first.connectCount
  createdAt := second.createdAt.trans first.createdAt
  tags := second.tags.trans first.tags

/-- Whatever is imported, a record keeps what no import may change. -/
theorem keeps_reimported (now : Int) (chosen : List Candidate) (host : Host) :
    Keeps host (reimported now chosen host) := by
  -- Either no candidate is about the record, or the first that is brings it up to date.
  unfold reimported
  split
  · exact Keeps.refl host
  · exact keeps_refreshed host _ now

/-- A record that carries the candidate already stays as it is. -/
theorem Carries.refreshed_eq (carries : Carries host c) : refreshed host c = host := by
  obtain ⟨hostname, port, username, auth, keyPath, proxyJump, overrides⟩ := carries
  simp only [refreshed, ← hostname, ← port, ← username, ← auth, ← keyPath, ← proxyJump,
    ← overrides]

/-- A record that is imported under one alias is imported under no other one. -/
theorem Host.ImportOf.unique {alias_ other : String} (here : host.ImportOf alias_)
    (there : host.ImportOf other) : alias_ = other :=
  Option.some.inj (here.2.symm.trans there.2)

/-- An import leaves a record that none of its candidates is about. -/
theorem reimported_of_other (spared : ∀ c ∈ chosen, ¬host.ImportOf c.alias_) :
    reimported now chosen host = host := by
  have missed : chosen.find? (fun c => decide (host.ImportOf c.alias_)) = none :=
    List.find?_eq_none.mpr fun c member => by simpa using spared c member
  rw [reimported, missed]

/-- An import brings a record up to date with the candidate it is about. -/
theorem reimported_of_mem (distinct : (chosen.map Candidate.alias_).Nodup) (member : c ∈ chosen)
    (imported : host.ImportOf c.alias_) :
    reimported now chosen host = { refreshed host c with updatedAt := now } := by
  obtain ⟨found, there⟩ : ∃ found,
      chosen.find? (fun c => decide (host.ImportOf c.alias_)) = some found := by
    rw [← Option.isSome_iff_exists, List.find?_isSome]
    exact ⟨c, member, decide_eq_true imported⟩
  -- Only one candidate has the alias of the record.
  have under : host.ImportOf found.alias_ := by simpa using List.find?_some there
  obtain rfl : found = c := List.inj_on_of_nodup_map distinct (List.mem_of_find?_eq_some there)
    member (under.unique imported)
  rw [reimported, there]

/-- An import of one candidate brings the record it is about up to date. -/
theorem reimported_single (imported : host.ImportOf c.alias_) :
    reimported now [c] host = { refreshed host c with updatedAt := now } :=
  @reimported_of_mem now host c [c] (List.nodup_singleton _) List.mem_cons_self imported

/-- An import of several candidates brings a record up to date one candidate at a time. -/
theorem reimported_cons (distinct : ((c :: rest).map Candidate.alias_).Nodup) :
    reimported now rest (reimported now [c] host) = reimported now (c :: rest) host := by
  by_cases imported : host.ImportOf c.alias_
  · rw [reimported_single imported, reimported_of_mem distinct List.mem_cons_self imported]
    -- No later candidate has the alias that this one had.
    refine reimported_of_other fun later member likewise => ?_
    have same : c.alias_ = later.alias_ := Host.ImportOf.unique imported likewise
    exact (List.nodup_cons.mp distinct).1 (same ▸ List.mem_map_of_mem member)
  · have single : reimported now [c] host = host :=
      reimported_of_other fun other member => List.mem_singleton.mp member ▸ imported
    rw [single, reimported, reimported, List.find?_cons_of_neg (by simpa using imported)]

end Records

section Turns

variable {now id : Int} {db after : Database} {c : Candidate} {host : Host} {alias_ : String}

/-- A record is imported under the alias that its row was imported under. -/
theorem importOf_iff {row : HostRow} {bare : Host} (read : rowToHost row = .ok bare)
    (tags : List Int) :
    Host.ImportOf { bare with tags := tags } alias_ ↔
      row.source = "ssh_config" ∧ row.sourceAlias = some alias_ := by
  obtain ⟨-, source, named⟩ := rowToHost_origin read
  unfold Host.ImportOf
  rw [← source, ← named]
  refine and_congr_left fun _ => ?_
  -- Only one of the two sources is written as an import.
  cases bare.source with
  | manual => decide
  | sshConfig => decide

/-- What is found under an alias is the one host that is imported under it. -/
theorem Consistent.find_iff (consistent : Consistent db) :
    findBySourceAlias db alias_ = .ok (some host) ↔
      get db host.id = .ok (some host) ∧ host.ImportOf alias_ := by
  constructor
  · intro known
    obtain ⟨row, bare, under, read, rfl⟩ := findBySourceAlias_eq_some.mp known
    -- The row that is found is the only one under its id.
    obtain ⟨member, imported⟩ := importedRow_eq_some under
    refine ⟨get_eq_some.mpr ⟨row, bare, ?_, read, ?_⟩, (importOf_iff read _).mpr imported⟩
    · show lookup db bare.id = some row
      rw [rowToHost_id read]
      exact lookup_of_mem consistent.unique member
    · rw [← rowToHost_id read]
  · rintro ⟨shown, imported⟩
    obtain ⟨row, bare, found, read, same⟩ := get_eq_some.mp shown
    rw [same] at imported
    have member : row ∈ db.hosts := List.mem_of_find?_eq_some found
    refine findBySourceAlias_eq_some.mpr ⟨row, bare, ?_, read, ?_⟩
    · -- Only one row is imported under the alias, so that it is the one found.
      obtain ⟨source, named⟩ := (importOf_iff read _).mp imported
      exact importedRow_of_alias consistent member source named
    · rw [lookup_id found]
      exact same

/-- Every row of an intact store is shown. -/
theorem Intact.get_of_mem {row : HostRow} (intact : Intact db) (member : row ∈ db.hosts) :
    ∃ host, get db row.id = .ok (some host) := by
  obtain ⟨bare, read⟩ := intact.readable row member
  exact ⟨_, get_eq_some.mpr
    ⟨row, bare, lookup_of_mem intact.consistent.unique member, read, rfl⟩⟩

/-- An update shows the new record under its id, with what no statement sets of the old one. -/
theorem get_update_of_get {written : Host} (updated : update now db written = .ok after)
    (shown : get db written.id = .ok (some host)) :
    get after written.id = .ok (some
      { written with
        lastConnectedAt := host.lastConnectedAt
        connectCount := host.connectCount
        createdAt := host.createdAt
        updatedAt := now
        tags := host.tags }) := by
  obtain ⟨row, bare, found, read, rfl⟩ := get_eq_some.mp shown
  obtain ⟨-, -, -, lastConnectedAt, connectCount, createdAt, -⟩ := rowToHost_shows read
  -- The row that is written keeps what no statement sets.
  have stored := lookup_update updated written.id
  rw [if_pos rfl, found] at stored
  refine get_eq_some.mpr ⟨_, _, stored, rowToHost_rowOf
    { written with
      lastConnectedAt := row.lastConnectedAt
      connectCount := row.connectCount
      createdAt := row.createdAt
      updatedAt := now }, ?_⟩
  obtain ⟨-, -, rfl⟩ := update_eq updated
  rw [← lastConnectedAt, ← connectCount, ← createdAt]
  rfl

/-- An update shows under any other id what was there. -/
theorem get_update_of_ne {written : Host} (updated : update now db written = .ok after)
    (apart : id ≠ written.id) (shown : get db id = .ok (some host)) :
    get after id = .ok (some host) := by
  -- The row of the id is not the one that is written, and its tags are not touched.
  obtain ⟨row, bare, found, read, same⟩ := get_eq_some.mp shown
  have stored := lookup_update updated id
  rw [if_neg apart, found] at stored
  obtain ⟨-, -, rfl⟩ := update_eq updated
  exact get_eq_some.mpr ⟨row, bare, stored, read, same⟩

/-- An insert shows under the ids that were there what was there. -/
theorem get_create_of_get {new : Int} {draft : NewHost}
    (created : create now db draft = .ok (new, after)) (shown : get db id = .ok (some host)) :
    get after id = .ok (some host) := by
  obtain ⟨row, bare, found, read, same⟩ := get_eq_some.mp shown
  have stored := lookup_create created id
  obtain ⟨rfl, rfl⟩ := create_eq created
  -- The new id was in no row.
  have apart : id ≠ nextId db := by
    rintro rfl
    rw [lookup_nextId] at found
    cases found
  rw [if_neg apart, found] at stored
  exact get_eq_some.mpr ⟨row, bare, stored, read, same⟩

/-- A turn of an import brings every host up to date with its candidate, or leaves it. -/
theorem get_upsertStep (consistent : Consistent db) (taken : upsertStep now db c = some after)
    (shown : get db id = .ok (some host)) :
    get after id = .ok (some (reimported now [c] host)) := by
  obtain rfl := get_id shown
  by_cases imported : host.ImportOf c.alias_
  · have found := consistent.find_iff.mpr ⟨shown, imported⟩
    rw [reimported_single imported]
    -- The turn finds the host under the alias, so it is no creation.
    rcases upsertStep_cases taken with ⟨existing, known, updated⟩ | ⟨new, -⟩
    · obtain rfl : host = existing := Option.some.inj (Except.ok.inj (found.symm.trans known))
      exact @get_update_of_get now db after host (refreshed host c) updated shown
    · cases found.symm.trans new
  · rw [reimported_of_other fun other among => List.mem_singleton.mp among ▸ imported]
    rcases upsertStep_cases taken with ⟨existing, known, updated⟩ | ⟨-, new, created⟩
    · obtain ⟨there, likewise⟩ := consistent.find_iff.mp known
      refine get_update_of_ne updated ?_ shown
      -- The host would be the one under the alias if it had the id of that one.
      intro same
      change host.id = existing.id at same
      rw [same] at shown
      obtain rfl : host = existing := Option.some.inj (Except.ok.inj (shown.symm.trans there))
      exact imported likewise
    · exact get_create_of_get created shown

/-- A turn of an import leaves a host under its alias that carries the candidate. -/
theorem upsertStep_import (consistent : Consistent db) (taken : upsertStep now db c = some after) :
    ∃ id host earlier, get after id = .ok (some host) ∧ host.ImportOf c.alias_ ∧ Carries host c ∧
      findBySourceAlias db c.alias_ = .ok earlier ∧ Continues earlier host := by
  rcases upsertStep_cases taken with ⟨existing, known, -⟩ | ⟨unseen, new, created⟩
  · -- The earlier import is brought up to date, and keeps everything else.
    obtain ⟨shown, imported⟩ := consistent.find_iff.mp known
    have later := get_upsertStep consistent taken shown
    rw [reimported_single imported] at later
    exact ⟨existing.id, _, some existing, later, imported, carries_refreshed existing c now, known,
      keeps_refreshed existing c now⟩
  · -- A first import starts from the draft.
    exact ⟨new, _, none, get_create created, ⟨rfl, rfl⟩, ⟨rfl, rfl, rfl, rfl, rfl, rfl, rfl⟩,
      unseen, rfl, rfl⟩

/-- Only one host is imported under an alias. -/
theorem Consistent.import_unique {other : Int} {same : Host} (consistent : Consistent db)
    (shown : get db id = .ok (some host)) (likewise : get db other = .ok (some same))
    (here : host.ImportOf alias_) (there : same.ImportOf alias_) : other = id := by
  -- Both are what the alias is looked up to, and a look-up has one answer.
  obtain rfl := get_id shown
  obtain rfl := get_id likewise
  have found := consistent.find_iff.mpr ⟨shown, here⟩
  have again := consistent.find_iff.mpr ⟨likewise, there⟩
  exact congrArg Host.id (Option.some.inj (Except.ok.inj (again.symm.trans found)))

end Turns

section Runs

variable {now : Int} {db after : Database} {chosen : List Candidate}

/-- A run of turns keeps a store intact. -/
theorem Intact.upserts (intact : Intact db)
    (ran : System.run (Store.upsertStep now) db chosen = some after) : Intact after :=
  System.run_preserves (fun intact taken => intact.upsertStep taken) intact ran

/-- A run of turns brings every host up to date with the candidate that is about it. -/
theorem get_upserts (intact : Intact db) (distinct : (chosen.map Candidate.alias_).Nodup)
    (ran : System.run (upsertStep now) db chosen = some after) {id : Int} {host : Host}
    (shown : get db id = .ok (some host)) :
    get after id = .ok (some (reimported now chosen host)) := by
  -- The induction is on the turns, and the host moves along with the store.
  induction chosen generalizing db host with
  | nil =>
    cases ran
    exact shown
  | cons c rest ih =>
    obtain ⟨next, taken, ran⟩ := Option.bind_eq_some_iff.mp ran
    have later := get_upsertStep intact.consistent taken shown
    rw [← reimported_cons distinct]
    exact ih (intact.upsertStep taken) (List.nodup_cons.mp distinct).2 ran later

/-- Whether an alias was imported before does not change in a turn about another one. -/
theorem importedRow_upsertStep {c : Candidate} {alias_ : String} (intact : Intact db)
    (taken : upsertStep now db c = some after) (apart : alias_ ≠ c.alias_) :
    (importedRow after alias_).isSome = (importedRow db alias_).isSome := by
  rw [Bool.eq_iff_iff, Option.isSome_iff_exists, Option.isSome_iff_exists]
  constructor
  · rintro ⟨row, found⟩
    obtain ⟨member, imported⟩ := importedRow_eq_some found
    -- The only row that a turn brings has the alias of the turn.
    rcases mem_upsertStep taken member with old | new
    · exact ⟨row, importedRow_of_alias intact.consistent old imported.1 imported.2⟩
    · exact absurd (Option.some.inj (imported.2.symm.trans new.2)) apart
  · rintro ⟨row, found⟩
    obtain ⟨member, imported⟩ := importedRow_eq_some found
    obtain ⟨kept, there, same⟩ := upsertStep_origins intact.consistent.unique taken member
    obtain ⟨-, origins⟩ := Prod.mk.inj same
    obtain ⟨source, named⟩ := Prod.mk.inj origins
    exact ⟨kept, importedRow_of_alias (intact.upsertStep taken).consistent there
      (source.trans imported.1) (named.trans imported.2)⟩

/-- What is found under an alias is still found after a turn about another one. -/
theorem findBySourceAlias_upsertStep {c : Candidate} {alias_ : String} (intact : Intact db)
    (taken : upsertStep now db c = some after) (apart : alias_ ≠ c.alias_) :
    findBySourceAlias after alias_ = findBySourceAlias db alias_ := by
  have kept := importedRow_upsertStep intact taken apart
  cases found : importedRow db alias_ with
  | none =>
    -- No row was imported under the alias, and none is.
    rw [found, Option.isSome_none, Option.isSome_eq_false_iff, Option.isNone_iff_eq_none] at kept
    rw [findBySourceAlias_eq_none.mpr found, findBySourceAlias_eq_none.mpr kept]
  | some row =>
    obtain ⟨member, -⟩ := importedRow_eq_some found
    obtain ⟨bare, read⟩ := intact.readable row member
    have known := findBySourceAlias_eq_some.mpr ⟨row, bare, found, read, rfl⟩
    obtain ⟨shown, imported⟩ := intact.consistent.find_iff.mp known
    -- The turn is not about the host that was found.
    have later := get_upsertStep intact.consistent taken shown
    rw [reimported_of_other] at later
    · rw [known]
      exact (intact.upsertStep taken).consistent.find_iff.mpr ⟨later, imported⟩
    · intro other among likewise
      rw [List.mem_singleton.mp among] at likewise
      exact apart (Host.ImportOf.unique imported likewise)

/-- After a run of turns every candidate has a host that carries it. -/
theorem upserts_import (intact : Intact db) (distinct : (chosen.map Candidate.alias_).Nodup)
    (ran : System.run (upsertStep now) db chosen = some after) {c : Candidate}
    (member : c ∈ chosen) :
    ∃ id host earlier, get after id = .ok (some host) ∧ host.ImportOf c.alias_ ∧ Carries host c ∧
      findBySourceAlias db c.alias_ = .ok earlier ∧ Continues earlier host := by
  induction chosen generalizing db with
  | nil => cases member
  | cons head rest ih =>
    obtain ⟨next, taken, onward⟩ := Option.bind_eq_some_iff.mp ran
    obtain ⟨new, others⟩ := List.nodup_cons.mp distinct
    rcases List.mem_cons.mp member with rfl | later
    · obtain ⟨id, host, earlier, shown, imported, rest⟩ := upsertStep_import intact.consistent taken
      have kept := get_upserts (intact.upsertStep taken) others onward shown
      -- No later turn is about the alias of this one.
      rw [reimported_of_other] at kept
      · exact ⟨id, host, earlier, kept, imported, rest⟩
      · intro other among likewise
        have same : c.alias_ = other.alias_ := Host.ImportOf.unique imported likewise
        exact new (same ▸ List.mem_map_of_mem among)
    · -- The first turn is about another alias, so what it finds later was there before.
      have apart : c.alias_ ≠ head.alias_ := fun same => new (same ▸ List.mem_map_of_mem later)
      rw [← findBySourceAlias_upsertStep intact taken apart]
      exact ih (intact.upsertStep taken) others onward later

/-- A host that is there stays, whatever is imported and however far the import gets. -/
theorem get_runWhile_keeps (intact : Intact db) {id : Int} {host : Host}
    (shown : get db id = .ok (some host)) :
    ∃ later, get (System.runWhile (upsertStep now) db chosen) id = .ok (some later) ∧
      Keeps host later := by
  -- Each turn keeps the record or refreshes it, and either way keeps these fields.
  have step : ∀ {state next : Database} {c : Candidate}, True →
      (Intact state ∧ ∃ later, get state id = .ok (some later) ∧ Keeps host later) →
      upsertStep now state c = some next →
        Intact next ∧ ∃ later, get next id = .ok (some later) ∧ Keeps host later := by
    rintro state next c - ⟨intact, later, found, keeps⟩ taken
    exact ⟨intact.upsertStep taken, _, get_upsertStep intact.consistent taken found,
      keeps.trans (keeps_reimported now [c] later)⟩
  exact (System.runWhile_invariant _ step (System.meets_of_forall (fun _ _ => trivial) db chosen)
    ⟨intact, host, shown, Keeps.refl host⟩).2

/-- Turns about other aliases leave a host, however far they get. -/
theorem get_runWhile_of_other (intact : Intact db) {id : Int} {host : Host}
    (shown : get db id = .ok (some host)) (spared : ∀ c ∈ chosen, ¬host.ImportOf c.alias_) :
    get (System.runWhile (upsertStep now) db chosen) id = .ok (some host) := by
  -- No turn is about the alias of this host, and a turn spares the other hosts.
  have step : ∀ {state next : Database} {c : Candidate}, ¬host.ImportOf c.alias_ →
      Intact state ∧ get state id = .ok (some host) → upsertStep now state c = some next →
        Intact next ∧ get next id = .ok (some host) := by
    rintro state next c other ⟨intact, shown⟩ taken
    have later := get_upsertStep intact.consistent taken shown
    rw [reimported_of_other fun d member => List.mem_singleton.mp member ▸ other] at later
    exact ⟨intact.upsertStep taken, later⟩
  exact (System.runWhile_invariant (fun state => Intact state ∧ get state id = .ok (some host))
    step (System.meets_of_mem (fun _ => spared) db) ⟨intact, shown⟩).2

/-- The candidates that were imported before. -/
def known (db : Database) (chosen : List Candidate) : Nat :=
  chosen.countP fun c => (importedRow db c.alias_).isSome

/-- The candidates that are imported for the first time. -/
def unknown (db : Database) (chosen : List Candidate) : Nat :=
  chosen.countP fun c => (importedRow db c.alias_).isNone

/-- A turn counts as an update when its alias was imported before, and else as a creation. -/
theorem upsert_of_step {c : Candidate} (taken : upsertStep now db c = some after)
    (outcome : ImportOutcome) :
    upsert now db outcome c = .ok (after,
      ⟨outcome.created + unknown db [c], outcome.updated + known db [c]⟩) := by
  -- The look-up that decides the statement also decides which count goes up.
  unfold upsert
  rcases upsertStep_cases taken with ⟨existing, found, updated⟩ | ⟨new, id, created⟩
  · obtain ⟨row, bare, under, -, -⟩ := findBySourceAlias_eq_some.mp found
    simp [found, updated, known, unknown, under]
  · simp [new, created, known, unknown, findBySourceAlias_eq_none.mp new]

/-- An import all of whose turns are taken answers with what it updated and what it created. -/
theorem apply_of_run (intact : Intact db) (distinct : (chosen.map Candidate.alias_).Nodup)
    (ran : System.run (upsertStep now) db chosen = some after) (outcome : ImportOutcome) :
    apply now db outcome chosen = (after, .ok
      ⟨outcome.created + unknown db chosen, outcome.updated + known db chosen⟩) := by
  induction chosen generalizing db outcome with
  | nil =>
    cases ran
    rfl
  | cons c rest ih =>
    obtain ⟨next, taken, ran⟩ := Option.bind_eq_some_iff.mp ran
    obtain ⟨new, others⟩ := List.nodup_cons.mp distinct
    -- The candidates that follow were imported before exactly if they were at the start.
    have same : ∀ d ∈ rest, (importedRow next d.alias_).isSome = (importedRow db d.alias_).isSome :=
      fun d member => importedRow_upsertStep intact taken fun same =>
        new (same ▸ List.mem_map_of_mem member)
    have knowns : known next rest = known db rest :=
      List.countP_congr fun d member => by rw [same d member]
    have unknowns : unknown next rest = unknown db rest :=
      List.countP_congr fun d member => by
        rw [← Option.not_isSome, ← Option.not_isSome, same d member]
    have known_cons : known db (c :: rest) = known db [c] + known db rest := by
      simp only [known, List.countP_cons, List.countP_nil]
      omega
    have unknown_cons : unknown db (c :: rest) = unknown db [c] + unknown db rest := by
      simp only [unknown, List.countP_cons, List.countP_nil]
      omega
    -- The first candidate is counted by what the store holds now.
    rw [apply, upsert_of_step taken]
    dsimp only
    rw [ih (intact.upsertStep taken) others ran, knowns, unknowns, known_cons, unknown_cons,
      Nat.add_assoc, Nat.add_assoc]

/-- An import that succeeds took all of its turns. -/
theorem run_of_apply {outcome : ImportOutcome}
    (applied : apply now db ⟨0, 0⟩ chosen = (after, .ok outcome)) :
    System.run (upsertStep now) db chosen = some after := by
  -- The answer is a success only if no turn was refused.
  cases ran : System.run (upsertStep now) db chosen with
  | none =>
    obtain ⟨reason, failed⟩ := (apply_fails_iff ⟨0, 0⟩ chosen).mpr ran
    rw [applied] at failed
    cases failed
  | some reached =>
    have stored := apply_store now db ⟨0, 0⟩ chosen
    rw [applied, System.runWhile_of_run ran] at stored
    exact congrArg some stored.symm

/-- A turn adds as many rows as it counts as created. -/
theorem length_upsert {c : Candidate} {outcome next : ImportOutcome}
    (taken : upsert now db outcome c = .ok (after, next)) :
    after.hosts.length + outcome.created = db.hosts.length + next.created := by
  -- An update keeps the number of rows, and an insert adds the one it counts.
  unfold upsert at taken
  split at taken
  · cases taken
  · split at taken
    · cases taken
    · rename_i updated
      cases taken
      obtain ⟨-, -, rfl⟩ := update_eq updated
      simp
  · split at taken
    · cases taken
    · rename_i created
      cases taken
      obtain ⟨-, rfl⟩ := create_eq created
      simp only [List.length_append, List.length_singleton]
      omega

/-- An import adds as many rows as it answers to have created. -/
theorem length_apply {outcome result : ImportOutcome}
    (applied : apply now db outcome chosen = (after, .ok result)) :
    after.hosts.length + outcome.created = db.hosts.length + result.created := by
  -- The turns are added up, each with what it counts.
  induction chosen generalizing db outcome with
  | nil =>
    cases applied
    rfl
  | cons c rest ih =>
    rw [apply] at applied
    cases taken : upsert now db outcome c with
    | error reason =>
      rw [taken] at applied
      cases applied
    | ok turn =>
      rw [taken] at applied
      have turned := length_upsert taken
      have onward := ih applied
      omega

/-- Every candidate was imported before, or is imported for the first time. -/
theorem unknown_add_known (db : Database) (chosen : List Candidate) :
    unknown db chosen + known db chosen = chosen.length := by
  -- A candidate is counted by one test in one of two lists.
  have split := @List.length_eq_countP_add_countP Candidate
    (fun c => (importedRow db c.alias_).isSome) chosen
  simp only [decide_not, Bool.decide_eq_true, Option.not_isSome] at split
  unfold unknown known
  omega

/-- A run of turns leaves the ids of the table, and may add some. -/
theorem ids_upserts (ran : System.run (upsertStep now) db chosen = some after) :
    db.hosts.map HostRow.id <+: after.hosts.map HostRow.id := by
  -- Updates keep the ids, and inserts put theirs behind the others.
  have step : ∀ {state next : Database} {c : Candidate},
      db.hosts.map HostRow.id <+: state.hosts.map HostRow.id →
      upsertStep now state c = some next → db.hosts.map HostRow.id <+: next.hosts.map HostRow.id :=
    fun earlier taken => earlier.trans (upsertStep_ids taken)
  exact System.run_preserves step List.prefix_rfl ran

end Runs

section Imports

variable {now : Int} {db after : Database} {chosen : List Candidate}

/-- Every candidate has one host that carries it, and nothing else has changed. -/
structure Upserted (chosen : List Candidate) (db after : Database) : Prop where
  shown : ∀ row ∈ after.hosts, ∃ host, get after row.id = .ok (some host)
  one : ∀ c ∈ chosen, ∃ id host, get after id = .ok (some host) ∧ host.ImportOf c.alias_ ∧
    Carries host c ∧ ∀ other same, get after other = .ok (some same) →
      same.ImportOf c.alias_ → other = id
  /-- Hosts made by hand are not touched, and neither are those of other aliases. -/
  others : ∀ id host, get db id = .ok (some host) → (∀ c ∈ chosen, ¬host.ImportOf c.alias_) →
    get after id = .ok (some host)
  earlier : ∀ id host, get db id = .ok (some host) → ∀ c ∈ chosen, host.ImportOf c.alias_ →
    ∃ later, get after id = .ok (some later) ∧ Keeps host later ∧ Carries later c

/-- A run of turns does what an import is meant to do. -/
theorem Intact.upserted (intact : Intact db) (distinct : (chosen.map Candidate.alias_).Nodup)
    (ran : System.run (Store.upsertStep now) db chosen = some after) :
    Upserted chosen db after := by
  -- Each clause is read off what the run made of one record or one candidate.
  refine ⟨fun row member => (intact.upserts ran).get_of_mem member, ?_, ?_, ?_⟩
  · intro c member
    obtain ⟨id, host, -, shown, imported, carries, -⟩ := upserts_import intact distinct ran member
    refine ⟨id, host, shown, imported, carries, ?_⟩
    intro other same likewise there
    exact (intact.upserts ran).consistent.import_unique shown likewise imported there
  · intro id host shown spared
    have later := get_upserts intact distinct ran shown
    rwa [reimported_of_other spared] at later
  · intro id host shown c member imported
    have later := get_upserts intact distinct ran shown
    rw [reimported_of_mem distinct member imported] at later
    exact ⟨_, later, keeps_refreshed host c now, carries_refreshed host c now⟩

/-- An import that is repeated creates nothing, and changes only when hosts were updated. -/
def SettledBy (chosen : List Candidate) (after : Database) : Prop :=
  ∀ again, ∃ last, apply again after ⟨0, 0⟩ chosen = (last, .ok ⟨0, chosen.length⟩) ∧
    last.hosts.map HostRow.id = after.hosts.map HostRow.id ∧
      ∀ id host, get after id = .ok (some host) →
        ∃ at_, get last id = .ok (some { host with updatedAt := at_ })

/-- After an import every candidate is imported before. -/
theorem known_of_upserted (consistent : Consistent after) (upserted : Upserted chosen db after) :
    known after chosen = chosen.length := by
  -- Every candidate has its host now, which the look-up finds.
  rw [known, List.countP_eq_length]
  intro c member
  obtain ⟨id, host, shown, imported, -⟩ := upserted.one c member
  obtain rfl := get_id shown
  obtain ⟨row, -, under, -⟩ :=
    findBySourceAlias_eq_some.mp (consistent.find_iff.mpr ⟨shown, imported⟩)
  rw [under]
  rfl

/-- An import of what was just imported has no more to do. -/
theorem Intact.settledBy (intact : Intact db) (distinct : (chosen.map Candidate.alias_).Nodup)
    (ran : System.run (Store.upsertStep now) db chosen = some after) : SettledBy chosen after := by
  intro again
  have upserted := intact.upserted distinct ran
  have reached := intact.upserts ran
  have count := known_of_upserted reached.consistent upserted
  have total := unknown_add_known after chosen
  -- The candidates that were accepted before are accepted again.
  obtain ⟨last, repeated⟩ :
      ∃ last, System.run (Store.upsertStep again) after chosen = some last := by
    rw [← Option.ne_none_iff_exists', Ne,
      run_upsertStep_eq_none_iff reached.consistent]
    rintro ⟨c, member, port | ⟨reason, unread⟩⟩
    · -- The first import was accepted, so no candidate has port zero.
      have accepted := mt (run_upsertStep_eq_none_iff intact.consistent chosen).mpr
        (Option.ne_none_iff_exists'.mpr ⟨after, ran⟩)
      exact accepted ⟨c, member, .inl port⟩
    · -- And the row of each can be read, since its host is shown.
      obtain ⟨id, host, shown, imported, -⟩ := upserted.one c member
      obtain rfl := get_id shown
      rw [reached.consistent.find_iff.mpr ⟨shown, imported⟩] at unread
      cases unread
  have applied := apply_of_run reached distinct repeated ⟨0, 0⟩
  rw [count, show unknown after chosen = 0 by omega] at applied
  refine ⟨last, ?_, ?_, ?_⟩
  · simpa using applied
  · have length := length_apply applied
    -- An import leaves the ids there were, and this one has added none.
    refine ((ids_upserts repeated).eq_of_length ?_).symm
    rw [List.length_map, List.length_map]
    dsimp only at length
    omega
  · intro id host shown
    -- Each host is shown as its reimport, if it has one.
    have later := get_upserts reached distinct repeated shown
    by_cases about : ∃ c ∈ chosen, host.ImportOf c.alias_
    · obtain ⟨c, member, imported⟩ := about
      -- The host is the one that carries the candidate, which has nothing more to bring.
      obtain ⟨other, same, there, likewise, carries, single⟩ := upserted.one c member
      obtain rfl := single id host shown imported
      obtain rfl : host = same := Option.some.inj (Except.ok.inj (shown.symm.trans there))
      rw [reimported_of_mem distinct member imported, carries.refreshed_eq] at later
      exact ⟨again, later⟩
    · simp only [not_exists, not_and] at about
      rw [reimported_of_other about] at later
      exact ⟨host.updatedAt, later⟩

/-- An import upserts its candidates by alias, and repeating it changes nothing. -/
theorem import_upserts_by_alias (reachable : Reachable db) {outcome : ImportOutcome}
    (distinct : (chosen.map Candidate.alias_).Nodup)
    (applied : apply now db ⟨0, 0⟩ chosen = (after, .ok outcome)) :
    outcome.created + outcome.updated = chosen.length ∧
      after.hosts.length = db.hosts.length + outcome.created ∧
      Upserted chosen db after ∧ SettledBy chosen after := by
  -- All turns were taken, and the counts are those of the two kinds of turn.
  have intact := reachable.intact
  have ran := run_of_apply applied
  have length := length_apply applied
  refine ⟨?_, by omega, intact.upserted distinct ran, intact.settledBy distinct ran⟩
  rw [apply_of_run intact distinct ran] at applied
  obtain ⟨-, answered⟩ := Prod.mk.inj applied
  obtain rfl := Except.ok.inj answered
  have total := unknown_add_known db chosen
  dsimp only
  omega

/-- A host made by hand that goes by the alias of an imported one. -/
def handMade : NewHost :=
  { draftOf (candidateOn "web" 8022) with source := .manual, name := "web by hand" }

/-- Both hosts of an alias, the imported one and the one made by hand. -/
def bothOfAlias : List (Int × StoreCall) :=
  [(0, .importHosts [candidateOn "web" 22]), (1, .createHost handMade)]

/-- The imported host moves to the new port, and the other one stays where it is. -/
theorem import_upserts_beside_hand_made :
    ∃ db after, Reachable db ∧
      apply 5 db ⟨0, 0⟩ [candidateOn "web" 2222, candidateOn "db" 22] = (after, .ok ⟨1, 1⟩) ∧
      after.hosts.map (fun row => (row.name, row.port)) =
        [("web", 2222), ("web by hand", 8022), ("db", 22)] ∧
      Upserted [candidateOn "web" 2222, candidateOn "db" 22] db after ∧
      SettledBy [candidateOn "web" 2222, candidateOn "db" 22] after := by
  have ran : Reachable _ := ⟨bothOfAlias, rfl⟩
  have applied := @import_upserts_by_alias 5 _ _
    [candidateOn "web" 2222, candidateOn "db" 22] ran _ (by decide) rfl
  exact ⟨_, _, ran, rfl, rfl, applied.2.2⟩

end Imports

end Tern.Store
