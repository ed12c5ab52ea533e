import Tern.SshConfig.Preview

/-! Committing an import: the config is read again, and only what was chosen of it is written. -/

namespace Tern.SshConfig

open Store (Candidate Database Host ImportOutcome Intact StoreError)

/-- Commit the hosts of some aliases, as far as the config still offers them. -/
def importSshConfig (platform : Platform) (path : String) (now : Int) (db : Database)
    (aliases : List String) : Database × Except StoreError ImportOutcome :=
  -- The candidates of the preview are not trusted, and only their aliases come back.
  match scan platform path db with
  | .error reason => (db, .error reason)
  | .ok scanned =>
    Store.apply now db ⟨0, 0⟩ (scanned.candidates.filter fun c => aliases.contains c.alias_)

section Turns

variable {now : Int} {db after : Database} {c : Candidate} {id : Int} {host : Host}

/-- What is shown after a turn of an import was shown before it, or is its import. -/
theorem shown_of_upsertStep (intact : Intact db) (taken : Store.upsertStep now db c = some after)
    (shown : Store.get after id = .ok (some host)) :
    Store.get db id = .ok (some host) ∨ host.ImportOf c.alias_ := by
  obtain ⟨row, bare, found, read, rfl⟩ := Store.get_eq_some.mp shown
  -- A row behind the turn was there before, or is the one that was imported.
  rcases Store.mem_upsertStep taken (List.mem_of_find?_eq_some found) with there | imported
  · -- One that was there is the import of the alias already, or untouched.
    obtain rfl := Store.lookup_id found
    have before : Store.get db row.id =
        .ok (some { bare with tags := Store.tagsFor db row.id }) :=
      Store.get_eq_some.mpr
        ⟨row, bare, Store.lookup_of_mem intact.consistent.unique there, read, rfl⟩
    have later := Store.get_upsertStep intact.consistent taken before
    rw [shown] at later
    by_cases own : Host.ImportOf { bare with tags := Store.tagsFor db row.id } c.alias_
    · exact .inr ((Store.importOf_iff read _).mpr ((Store.importOf_iff read _).mp own))
    · -- A turn about another alias leaves the record, tags included.
      rw [Store.reimported_of_other fun other member => List.mem_singleton.mp member ▸ own]
        at later
      exact .inl (before.trans later.symm)
  · exact .inr ((Store.importOf_iff read _).mpr imported)

/-- What is shown after an import was shown before it, or is an import of a candidate. -/
theorem shown_of_runWhile {chosen : List Candidate} (intact : Intact db)
    (shown : Store.get (System.runWhile (Store.upsertStep now) db chosen) id = .ok (some host)) :
    Store.get db id = .ok (some host) ∨ ∃ c ∈ chosen, host.ImportOf c.alias_ := by
  -- The turns keep for every state what is claimed of the last one.
  have step : ∀ {state next : Database} {c : Candidate}, c ∈ chosen →
      (Intact state ∧ ∀ id host, Store.get state id = .ok (some host) →
        Store.get db id = .ok (some host) ∨ ∃ c ∈ chosen, host.ImportOf c.alias_) →
      Store.upsertStep now state c = some next →
        Intact next ∧ ∀ id host, Store.get next id = .ok (some host) →
          Store.get db id = .ok (some host) ∨ ∃ c ∈ chosen, host.ImportOf c.alias_ := by
    rintro state next c member ⟨sound, known⟩ taken
    refine ⟨sound.upsertStep taken, fun id host later => ?_⟩
    rcases shown_of_upsertStep sound taken later with before | imported
    · exact known id host before
    · exact .inr ⟨c, member, imported⟩
  exact (System.runWhile_invariant _ step (System.meets_of_mem (fun _ _ member => member) db)
    ⟨intact, fun _ _ shown => .inl shown⟩).2 id host shown

end Turns

section Commands

variable {platform : Platform} {path : String} {now : Int} {db : Database} {aliases : List String}

/-- What is committed is what the config offers of the aliases, each of them once. -/
theorem importSshConfig_eq (intact : Intact db) (platform : Platform) (path : String) (now : Int)
    (aliases : List String) :
    ∃ chosen, importSshConfig platform path now db aliases = Store.apply now db ⟨0, 0⟩ chosen ∧
      (chosen.map Candidate.alias_).Nodup ∧
      (∀ c ∈ chosen, OfferedTo (parseFile platform path) db c) ∧
      ∀ alias_, alias_ ∈ chosen.map Candidate.alias_ ↔
        alias_ ∈ aliases ∧ alias_ ∈ (parseFile platform path).aliases := by
  -- The scan offers each alias of the config once, and the choice only leaves some out.
  obtain ⟨candidates, read⟩ :=
    @candidatesFor_of_intact (parseFile platform path) db intact (parseFile platform path).aliases
  obtain ⟨named, offered⟩ := candidatesFor_eq read
  have scanned : scan platform path db =
      .ok ⟨path, candidates, (parseFile platform path).warnings⟩ := by
    rw [scan, read]
    rfl
  -- The aliases of a config are kept where they are first seen.
  have distinct : (candidates.map Candidate.alias_).Nodup := by
    have kept := FirstSeen.nodup_keep id [] ((parseFile platform path).stanzas.flatMap
      fun stanza => stanza.patterns.filter isConcrete)
    rw [List.map_id] at kept
    rw [named]
    exact kept
  refine ⟨candidates.filter fun c => aliases.contains c.alias_, ?_, ?_, ?_, ?_⟩
  · rw [importSshConfig, scanned]
  · exact distinct.sublist (List.filter_sublist.map Candidate.alias_)
  · intro c member
    exact offered c (List.mem_of_mem_filter member)
  · -- To be chosen is to be asked for and to be offered.
    intro alias_
    rw [← named]
    simp only [List.mem_map, List.mem_filter, List.contains_iff_mem]
    constructor
    · rintro ⟨c, ⟨there, among⟩, rfl⟩
      exact ⟨among, c, there, rfl⟩
    · rintro ⟨among, c, there, rfl⟩
      exact ⟨c, ⟨there, among⟩, rfl⟩

/-- An import keeps a store intact, whether it succeeds or fails on the way. -/
theorem intact_importSshConfig (intact : Intact db) (platform : Platform) (path : String)
    (now : Int) (aliases : List String) :
    Intact (importSshConfig platform path now db aliases).1 := by
  obtain ⟨chosen, same, -⟩ := importSshConfig_eq intact platform path now aliases
  rw [same, Store.apply_store]
  exact System.runWhile_invariant Intact (fun _ sound taken => sound.upsertStep taken)
    (@System.meets_of_forall _ _ _ (fun _ _ => True) (fun _ _ => trivial) db chosen) intact

/-- An import leaves every host that goes by none of the aliases, even if it fails on the way. -/
theorem importSshConfig_spares (intact : Intact db) {id : Int} {host : Host}
    (shown : Store.get db id = .ok (some host))
    (spared : ∀ alias_ ∈ aliases, ¬host.ImportOf alias_) :
    Store.get (importSshConfig platform path now db aliases).1 id = .ok (some host) := by
  obtain ⟨chosen, same, -, -, among⟩ := importSshConfig_eq intact platform path now aliases
  rw [same, Store.apply_store]
  refine Store.get_runWhile_of_other intact shown fun c member => ?_
  exact spared c.alias_ ((among c.alias_).mp (List.mem_map_of_mem member)).1

/-- An import keeps every host that is there, even if it fails on the way. -/
theorem importSshConfig_keeps (intact : Intact db) {id : Int} {host : Host}
    (shown : Store.get db id = .ok (some host)) :
    ∃ later, Store.get (importSshConfig platform path now db aliases).1 id = .ok (some later) ∧
      Store.Keeps host later := by
  obtain ⟨chosen, same, -⟩ := importSshConfig_eq intact platform path now aliases
  rw [same, Store.apply_store]
  exact Store.get_runWhile_keeps intact shown

/-- What an import writes are hosts of the aliases that the config offers. -/
theorem shown_of_importSshConfig (intact : Intact db) {id : Int} {host : Host}
    (shown : Store.get (importSshConfig platform path now db aliases).1 id = .ok (some host)) :
    Store.get db id = .ok (some host) ∨
      ∃ alias_ ∈ aliases, alias_ ∈ (parseFile platform path).aliases ∧ host.ImportOf alias_ := by
  -- Whether the import stops early or not, each row comes from before or from a candidate.
  obtain ⟨chosen, same, -, -, among⟩ := importSshConfig_eq intact platform path now aliases
  rw [same, Store.apply_store] at shown
  rcases shown_of_runWhile intact shown with before | ⟨c, member, imported⟩
  · exact .inl before
  · obtain ⟨asked, offered⟩ := (among c.alias_).mp (List.mem_map_of_mem member)
    exact .inr ⟨c.alias_, asked, offered, imported⟩

/-- An import that succeeds has one host for each alias that the config offers, as it says. -/
theorem importSshConfig_upserts (intact : Intact db) {after : Database} {outcome : ImportOutcome}
    (imported : importSshConfig platform path now db aliases = (after, .ok outcome))
    {alias_ : String} (asked : alias_ ∈ aliases)
    (named : alias_ ∈ (parseFile platform path).aliases) :
    ∃ c id host earlier, OfferedTo (parseFile platform path) db c ∧ c.alias_ = alias_ ∧
      Store.get after id = .ok (some host) ∧ host.ImportOf alias_ ∧ Store.Carries host c ∧
      Store.findBySourceAlias db alias_ = .ok earlier ∧ Store.Continues earlier host := by
  -- The candidate of the alias is upserted, and the turns behind it spare its row.
  obtain ⟨chosen, same, distinct, offered, among⟩ :=
    importSshConfig_eq intact platform path now aliases
  obtain ⟨c, member, rfl⟩ := List.mem_map.mp ((among alias_).mpr ⟨asked, named⟩)
  have ran := Store.run_of_apply (same.symm.trans imported)
  obtain ⟨id, host, earlier, made⟩ := Store.upserts_import intact distinct ran member
  exact ⟨c, id, host, earlier, offered c member, rfl, made⟩

/--
An import that succeeds counts the aliases that the config offers:
as updated where a host was imported under them before, and else as created.
-/
theorem importSshConfig_counts (intact : Intact db) {after : Database} {outcome : ImportOutcome}
    (distinct : aliases.Nodup)
    (imported : importSshConfig platform path now db aliases = (after, .ok outcome)) :
    outcome.created = (aliases.countP fun alias_ =>
      (Store.importedRow db alias_).isNone && decide (alias_ ∈ (parseFile platform path).aliases)) ∧
    outcome.updated = (aliases.countP fun alias_ =>
      (Store.importedRow db alias_).isSome &&
        decide (alias_ ∈ (parseFile platform path).aliases)) ∧
    after.hosts.length = db.hosts.length + outcome.created := by
  obtain ⟨chosen, same, each, -, among⟩ :=
    importSshConfig_eq intact platform path now aliases
  have applied := same.symm.trans imported
  have length := Store.length_apply applied
  rw [Store.apply_of_run intact each (Store.run_of_apply applied)] at applied
  obtain ⟨-, answered⟩ := Prod.mk.inj applied
  obtain rfl := Except.ok.inj answered
  -- The candidates that are chosen go by the aliases that are offered, each by one of its own.
  have perm : (chosen.map Candidate.alias_).Perm
      (aliases.filter fun alias_ => decide (alias_ ∈ (parseFile platform path).aliases)) := by
    rw [List.perm_ext_iff_of_nodup each (distinct.filter _)]
    intro alias_
    rw [among, List.mem_filter, decide_eq_true_iff]
  -- So each test counts as many of the one list as of the other.
  have counted : ∀ test : String → Bool, chosen.countP (fun c => test c.alias_) =
      aliases.countP fun alias_ =>
        test alias_ && decide (alias_ ∈ (parseFile platform path).aliases) := by
    intro test
    rw [← List.countP_filter, ← perm.countP_eq, List.countP_map]
    rfl
  refine ⟨?_, ?_, by simpa using length⟩
  · exact (Nat.zero_add _).trans (counted fun alias_ => (Store.importedRow db alias_).isNone)
  · exact (Nat.zero_add _).trans (counted fun alias_ => (Store.importedRow db alias_).isSome)

end Commands

end Tern.SshConfig
