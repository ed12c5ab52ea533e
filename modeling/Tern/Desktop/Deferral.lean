import Tern.Desktop.Settling

/-! Commands that a sequential run takes only after what the imports under way write. -/

namespace Tern.Desktop

open Tern.Store

/-- Commands that ran after a table was reached, and rewrote rows of some ids alone. -/
structure Deferral (table : Database) (jobs : List Job) (ids : List Int)
    (late : HostRow → HostRow) : Prop where
  keeps : KeepsOrigins late table.hosts
  spares : ∀ row : HostRow, row.id ∉ ids → late row = row
  known : ∀ id ∈ ids, Present table id
  replays : ∀ state : AppState, Consistent state.db → state.db.folders = table.folders →
    state.db.tags = table.tags → (∀ id ∈ ids, lookup state.db id = lookup table id) →
    ∃ final, System.run serialStep state jobs = some final ∧
      final.db.hosts = state.db.hosts.map late ∧ final.db.folders = table.folders ∧
      final.db.tags = table.tags

variable {table after : Database} {jobs : List Job} {ids : List Int} {late : HostRow → HostRow}
  {row : HostRow} {job : Job} {now : Int} {c : Candidate}

/-- Nothing needs to be deferred. -/
theorem Deferral.nil (table : Database) : Deferral table [] [] fun row => row :=
  ⟨fun _ _ => rfl, fun _ _ => rfl, fun _ member => absurd member List.not_mem_nil,
    fun state _ folders tags _ => ⟨state, rfl, (List.map_id' _).symm, folders, tags⟩⟩

/-- A rewriting of a row may be deferred, too. -/
theorem Deferral.commit (deferral : Deferral table jobs ids late) (consistent : Consistent table)
    (member : row ∈ table.hosts) {written : HostRow}
    (rewrites : Rewrites table job (late row) written) :
    Deferral table (jobs ++ [job]) (row.id :: ids)
      fun other => rewriteAt row.id (fun _ => written) (late other) := by
  have named : (late row).id = row.id := deferral.keeps.id_eq member
  refine ⟨?_, ?_, ?_, ?_⟩
  · -- The origins stay, for the rewriting keeps that of its own row.
    intro other among
    show origin (rewriteAt row.id (fun _ => written) (late other)) = origin other
    by_cases same : (late other).id = row.id
    · obtain rfl : other = row := List.inj_on_of_nodup_map consistent.unique among member
        ((deferral.keeps.id_eq among).symm.trans same)
      rw [rewriteAt_of_eq same]
      exact rewrites.origin.trans (deferral.keeps other member)
    · rw [rewriteAt_of_ne same]
      exact deferral.keeps other among
  · -- A row that is not rewritten is as the deferral left it.
    intro other apart
    rw [List.mem_cons, not_or] at apart
    show rewriteAt row.id (fun _ => written) (late other) = other
    rw [deferral.spares other apart.2, rewriteAt_of_ne apart.1]
  · intro id among
    rcases List.mem_cons.mp among with rfl | among
    · exact present_of_mem member rfl
    · exact deferral.known id among
  · intro state held folders tags same
    obtain ⟨middle, ran, hosts, filed, tagged⟩ := deferral.replays state held folders tags
      fun id among => same id (List.mem_cons_of_mem _ among)
    -- The row is there in the state the run starts from, and so it is there once it was rewritten.
    have there : late row ∈ middle.db.hosts := by
      have found := same row.id List.mem_cons_self
      rw [lookup_of_mem consistent.unique member] at found
      rw [hosts]
      exact List.mem_map_of_mem (List.mem_of_find?_eq_some found)
    obtain ⟨final, taken, rows, frame⟩ := rewrites.succeeds middle (consistent_run held ran) filed
      tagged there
    refine ⟨final, ?_, ?_, frame⟩
    · -- The job runs behind those that were deferred before it.
      rw [System.run_append, ran, Option.bind_some, System.run_cons taken]
      rfl
    · rw [rows, hosts, List.map_map, named]
      rfl

/-- What was deferred may be deferred past what leaves its rows. -/
theorem Deferral.transfer (deferral : Deferral table jobs ids late)
    (unique : (after.hosts.map HostRow.id).Nodup) (folders : after.folders = table.folders)
    (tags : after.tags = table.tags) (same : ∀ id ∈ ids, lookup after id = lookup table id) :
    Deferral after jobs ids late := by
  -- A row is either among those deferred, which are the same rows as before, or spared by them.
  refine ⟨?_, deferral.spares, ?_, ?_⟩
  · intro other member
    by_cases among : other.id ∈ ids
    · have found := lookup_of_mem unique member
      rw [same other.id among] at found
      exact deferral.keeps other (List.mem_of_find?_eq_some found)
    · rw [deferral.spares other among]
  · intro id among
    obtain ⟨other, found⟩ := deferral.known id among
    exact ⟨other, (same id among).trans found⟩
  · intro state held filed tagged likewise
    rw [folders, tags]
    exact deferral.replays state held (filed.trans folders) (tagged.trans tags) fun id among =>
      (likewise id among).trans (same id among)

/-- A turn of an import leaves the rows that were deferred when it spares them. -/
theorem Deferral.lookup_upsert (deferral : Deferral table jobs ids late)
    (consistent : Consistent table) (taken : upsertStep now table c = some after)
    (spared : ∀ id ∈ ids, ∀ row, lookup table id = some row → ¬ImportedAs c row) (id : Int)
    (among : id ∈ ids) : lookup after id = lookup table id := by
  -- The row that was deferred is not the one the candidate names, so the turn leaves it there.
  obtain ⟨row, found⟩ := deferral.known id among
  have member := List.mem_of_find?_eq_some found
  have spares := upsertStep_spares taken ⟨row, member, lookup_id found⟩ (by
    intro other there named
    have listed := lookup_of_mem consistent.unique there
    rw [named] at listed
    exact spared id among other listed)
  have kept := lookup_of_mem (consistent.upsertStep taken).unique
    ((spares row (lookup_id found)).mpr member)
  rw [lookup_id found] at kept
  rw [found, kept]

/-- What was deferred may be deferred past a turn of an import that spares its rows. -/
theorem Deferral.upsert (deferral : Deferral table jobs ids late) (consistent : Consistent table)
    (taken : upsertStep now table c = some after)
    (spared : ∀ id ∈ ids, ∀ row, lookup table id = some row → ¬ImportedAs c row) :
    Deferral after jobs ids late := by
  obtain ⟨folders, tags⟩ := upsertStep_frame taken
  exact deferral.transfer (consistent.upsertStep taken).unique folders tags
    (deferral.lookup_upsert consistent taken spared)

/-- A turn that an import takes after what was deferred it can also take before. -/
theorem Deferral.upsertStep_before (deferral : Deferral table jobs ids late)
    (consistent : Consistent table) {final result : Database} (later : Consistent final)
    (hosts : final.hosts = table.hosts.map late) (folders : final.folders = table.folders)
    (taken : upsertStep now final c = some result)
    (spared : ∀ id ∈ ids, ∀ row, lookup table id = some row → ¬ImportedAs c row) :
    ∃ after, upsertStep now table c = some after ∧ result.hosts = after.hosts.map late := by
  -- The row under the alias is none of those that were rewritten.
  have fixed : ∀ row, importedRow table c.alias_ = some row → row.id ∉ ids := by
    intro row found among
    obtain ⟨member, imported⟩ := importedRow_eq_some found
    exact spared row.id among row (lookup_of_mem consistent.unique member) imported
  have fresh : nextId table ∉ ids := by
    intro among
    obtain ⟨row, found⟩ := deferral.known _ among
    rw [lookup_nextId] at found
    cases found
  obtain ⟨after, early⟩ := upsertStep_of_map deferral.keeps hosts consistent later taken
    fun row found => deferral.spares row (fixed row found)
  obtain ⟨other, again, mapped⟩ := upsertStep_map deferral.keeps hosts folders early
    (fun row found same named => deferral.spares same (named ▸ fixed row found))
    fun _ same named => deferral.spares same (named ▸ fresh)
  rw [taken] at again
  cases again
  exact ⟨after, early, mapped⟩

end Tern.Desktop
