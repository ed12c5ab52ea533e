import Tern.SshConfig.Preview

/-! What a repeated import does to the settings of a host that no ssh_config can express. -/

namespace Tern.SshConfig

open Store (Candidate Database Host HostOverrides Intact)

/-- Two records of overrides agree on what no ssh_config can express. -/
structure SameSettings (overrides later : HostOverrides) : Prop where
  term : later.term = overrides.term
  keepaliveMax : later.keepaliveMax = overrides.keepaliveMax
  windowSize : later.windowSize = overrides.windowSize
  reconnectEnabled : later.reconnectEnabled = overrides.reconnectEnabled
  reconnectMaxAttempts : later.reconnectMaxAttempts = overrides.reconnectMaxAttempts

/-- Nothing is set that no ssh_config can express. -/
def Inherits (overrides : HostOverrides) : Prop := SameSettings overrides HostOverrides.default

section Imports

variable {platform : Platform} {path : String} {earlier db : Database} {chosen : List Candidate}
  {host : Host}

/-- An import gets to a host: no candidate up to the host's own one names port zero. -/
def Reaches (parsed : ParsedConfig) (chosen : List Candidate) (host : Host) : Prop :=
  ∃ before c rest, chosen = before ++ c :: rest ∧ host.ImportOf c.alias_ ∧
    ∀ d ∈ before ++ [c], ¬NamesPortZero parsed d.alias_

/-- A candidate brings no setting that an ssh_config cannot express. -/
theorem inherits_of_offered {parsed : ParsedConfig} {c : Candidate}
    (offered : OfferedTo parsed earlier c) : Inherits c.overrides := by
  obtain ⟨existing, -, same⟩ := offered
  rw [same]
  exact ⟨rfl, rfl, rfl, rfl, rfl⟩

/-- Settings are the same as those that are all inherited when they are all inherited. -/
theorem sameSettings_iff {overrides later : HostOverrides} (inherits : Inherits later) :
    SameSettings overrides later ↔ Inherits overrides := by
  -- Equality with something that is inherited is being inherited.
  obtain ⟨term, keepaliveMax, windowSize, reconnectEnabled, reconnectMaxAttempts⟩ := inherits
  constructor
  · intro same
    exact ⟨term.trans same.term, keepaliveMax.trans same.keepaliveMax,
      windowSize.trans same.windowSize, reconnectEnabled.trans same.reconnectEnabled,
      reconnectMaxAttempts.trans same.reconnectMaxAttempts⟩
  · intro none_
    exact ⟨term.symm.trans none_.term, keepaliveMax.symm.trans none_.keepaliveMax,
      windowSize.symm.trans none_.windowSize, reconnectEnabled.symm.trans none_.reconnectEnabled,
      reconnectMaxAttempts.symm.trans none_.reconnectMaxAttempts⟩

/-- Candidates of one scan are all accepted exactly when the config names port zero for none. -/
theorem run_upsertStep_iff {parsed : ParsedConfig} (intact : Intact db)
    (offered : ∀ c ∈ chosen, OfferedTo parsed earlier c) (now : Int) :
    (∃ after, System.run (Store.upsertStep now) db chosen = some after) ↔
      ∀ c ∈ chosen, ¬NamesPortZero parsed c.alias_ := by
  rw [← Option.ne_none_iff_exists', Ne, Store.run_upsertStep_eq_none_iff intact.consistent]
  simp only [not_exists, not_and]
  exact forall₂_congr fun c member => not_congr (refused_of_offered intact (offered c member))

/-- A host of an alias is the import of no candidate before or behind that of the alias. -/
theorem spared_of_distinct {before rest : List Candidate} {c : Candidate}
    (distinct : ((before ++ c :: rest).map Candidate.alias_).Nodup)
    (imported : host.ImportOf c.alias_) :
    (∀ d ∈ before, ¬host.ImportOf d.alias_) ∧ ∀ d ∈ rest, ¬host.ImportOf d.alias_ := by
  -- A host is the import of one alias only, and the alias comes up once.
  rw [List.map_append, List.map_cons, List.nodup_append] at distinct
  obtain ⟨-, others, apart⟩ := distinct
  refine ⟨?_, ?_⟩
  · intro d member likewise
    exact apart _ (List.mem_map_of_mem member) _ List.mem_cons_self (likewise.unique imported)
  · intro d member likewise
    have same : c.alias_ = d.alias_ := imported.unique likewise
    exact (List.nodup_cons.mp others).1 (same ▸ List.mem_map_of_mem member)

/-- An import that gets to a host brings it up to date with its candidate. -/
theorem get_of_reaches {parsed : ParsedConfig} (intact : Intact db) {id : Int}
    (shown : Store.get db id = .ok (some host)) (distinct : (chosen.map Candidate.alias_).Nodup)
    (offered : ∀ c ∈ chosen, OfferedTo parsed earlier c) (now : Int)
    (reaches : Reaches parsed chosen host) :
    ∃ c ∈ chosen, Store.get (System.runWhile (Store.upsertStep now) db chosen) id =
      .ok (some { Store.refreshed host c with updatedAt := now }) := by
  obtain ⟨before, c, rest, rfl, imported, ports⟩ := reaches
  refine ⟨c, by simp, ?_⟩
  have split : before ++ c :: rest = (before ++ [c]) ++ rest := by simp
  have early : ∀ d ∈ before ++ [c], OfferedTo parsed earlier d :=
    fun d member => offered d (split ▸ List.mem_append_left rest member)
  obtain ⟨next, ran⟩ := (run_upsertStep_iff intact early now).mpr ports
  -- The turns up to the host's own are taken, and no later one is about the host.
  obtain ⟨-, behind⟩ := spared_of_distinct distinct imported
  rw [split, List.map_append, List.nodup_append] at distinct
  have later := Store.get_upserts intact distinct.1 ran shown
  rw [Store.reimported_of_mem distinct.1 (by simp) imported] at later
  rw [split, System.runWhile_append ran]
  exact Store.get_runWhile_of_other (intact.upserts ran) later behind

/-- An import that does not get to a host leaves it. -/
theorem get_of_not_reaches {parsed : ParsedConfig} (intact : Intact db) {id : Int}
    (shown : Store.get db id = .ok (some host)) (distinct : (chosen.map Candidate.alias_).Nodup)
    (offered : ∀ c ∈ chosen, OfferedTo parsed earlier c) (now : Int)
    (short : ¬Reaches parsed chosen host) :
    Store.get (System.runWhile (Store.upsertStep now) db chosen) id = .ok (some host) := by
  by_cases about : ∃ c ∈ chosen, host.ImportOf c.alias_
  · obtain ⟨c, member, imported⟩ := about
    obtain ⟨before, rest, rfl⟩ := List.append_of_mem member
    have early : ∀ d ∈ before ++ [c], OfferedTo parsed earlier d := by
      intro d listed
      refine offered d ?_
      simp only [List.mem_append, List.mem_cons, List.not_mem_nil, or_false] at listed ⊢
      exact listed.imp_right .inl
    -- The import ends at port zero, in front of the turn of the host or in it.
    have refused : System.run (Store.upsertStep now) db (before ++ [c]) = none := by
      rw [Option.eq_none_iff_forall_ne_some]
      intro next ran
      have ports := (run_upsertStep_iff intact early now).mp ⟨next, ran⟩
      exact short ⟨before, c, rest, rfl, imported, ports⟩
    rw [System.runWhile_of_refused refused]
    exact Store.get_runWhile_of_other intact shown (spared_of_distinct distinct imported).1
  · simp only [not_exists, not_and] at about
    exact Store.get_runWhile_of_other intact shown about

/--
A repeated import leaves the settings that no ssh_config can express
exactly when there are none, or when it does not get to the host.
-/
theorem reimport_spares_settings_iff (reachable : Store.Reachable db) {id : Int}
    (shown : Store.get db id = .ok (some host)) {scanned : Scan}
    (succeeded : scan platform path earlier = .ok scanned) (each : chosen.Nodup)
    (among : ∀ c ∈ chosen, c ∈ scanned.candidates) (now : Int) :
    ∃ later, Store.get (Store.apply now db ⟨0, 0⟩ chosen).1 id = .ok (some later) ∧
      (SameSettings host.overrides later.overrides ↔
        Inherits host.overrides ∨ ¬Reaches (parseFile platform path) chosen host) := by
  -- A candidate that reaches the host has nothing set, so what was set there is lost.
  have intact := reachable.intact
  obtain ⟨distinct, offered⟩ := distinct_of_chosen succeeded each among
  rw [Store.apply_store]
  by_cases reaches : Reaches (parseFile platform path) chosen host
  · obtain ⟨c, member, later⟩ := get_of_reaches intact shown distinct offered now reaches
    refine ⟨_, later, ?_⟩
    rw [or_iff_left (not_not.mpr reaches)]
    exact sameSettings_iff (inherits_of_offered (offered c member))
  · have later := get_of_not_reaches intact shown distinct offered now reaches
    exact ⟨host, later, iff_of_true ⟨rfl, rfl, rfl, rfl, rfl⟩ (.inr reaches)⟩

/-- A config of one host that says nothing but its name. -/
def plainHost : Platform where
  home := none
  userProfile := none
  unicodeLowercase := id
  canonicalize := some
  readToString path := if path = "/c/config" then some "Host web\n" else none
  isFile path := path == "/c/config"
  readDir _ := none

/-- The host of the config, imported and then kept by its user from reconnecting by itself. -/
def importedAndEdited : List (Int × Store.StoreCall) :=
  let imported := Store.hostOfDraft 1 0 (Store.draftOf (Store.candidateOn "web" 22))
  let edited := { imported.overrides with reconnectEnabled := some false }
  [(0, .importHosts [Store.candidateOn "web" 22]),
    (1, .updateHost { imported with overrides := edited })]

/-- A repeated import of a host that was never edited leaves what it inherits. -/
theorem reimport_spares_unset_settings :
    ∃ db scanned host later, Store.Reachable db ∧ Store.get db 1 = .ok (some host) ∧
      scan plainHost "/c/config" db = .ok scanned ∧
      Store.get (Store.apply 5 db ⟨0, 0⟩ scanned.candidates).1 1 = .ok (some later) ∧
      SameSettings host.overrides later.overrides := by
  -- The store is reached by an import alone, so the host inherits everything.
  obtain ⟨db, host, scanned, reachable, shown, inherits, succeeded, each⟩ :
      ∃ db host scanned, Store.Reachable db ∧ Store.get db 1 = .ok (some host) ∧
        Inherits host.overrides ∧ scan plainHost "/c/config" db = .ok scanned ∧
        scanned.candidates.Nodup :=
    ⟨_, _, _, ⟨importedAndEdited.take 1, rfl⟩, rfl, ⟨rfl, rfl, rfl, rfl, rfl⟩,
      rfl, by decide +kernel⟩
  obtain ⟨later, reimported, spared⟩ :=
    reimport_spares_settings_iff reachable shown succeeded each (fun c member => member) 5
  exact ⟨db, scanned, host, later, reachable, shown, succeeded, reimported,
    spared.mpr (.inl inherits)⟩

/-- A repeated import of the host that was edited undoes the edit. -/
theorem reimport_undoes_edit :
    ∃ db scanned host later, Store.Reachable db ∧ Store.get db 1 = .ok (some host) ∧
      host.source = .sshConfig ∧ host.overrides.reconnectEnabled = some false ∧
      scan plainHost "/c/config" db = .ok scanned ∧
      Store.get (Store.apply 5 db ⟨0, 0⟩ scanned.candidates).1 1 = .ok (some later) ∧
      later.overrides.reconnectEnabled = none :=
  ⟨_, _, _, _, ⟨importedAndEdited, rfl⟩, rfl, rfl, rfl, rfl, rfl, rfl⟩

end Imports

end Tern.SshConfig
