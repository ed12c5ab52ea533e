import Tern.SshConfig.Scan
import Tern.Store.Reimport

/-! What the preview of an import promises, and the port that breaks the promise. -/

namespace Tern.SshConfig

open Store (Candidate Database Disposition Host Intact StoreError findBySourceAlias importedRow)

section Ports

variable {parsed : ParsedConfig}

/-- The first stanza of an alias that sets a port sets port zero. -/
def NamesPortZero (parsed : ParsedConfig) (alias_ : String) : Prop :=
  (parsed.stanzas.findSome? fun stanza =>
    if stanza.matches alias_ then stanza.port else none) = some 0

/-- A candidate has port zero when the config names it for the alias. -/
theorem port_candidateOf {alias_ : String} (existing : Option Host) :
    (candidateOf parsed alias_ existing).port = 0 ↔ NamesPortZero parsed alias_ := by
  unfold NamesPortZero
  have resolved := get_resolve parsed alias_ .port
  change (parsed.resolve alias_).port = parsed.stanzas.findSome? fun stanza =>
    if stanza.matches alias_ then stanza.port else none at resolved
  rw [← resolved]
  show (parsed.resolve alias_).port.getD 22 = 0 ↔ _
  cases (parsed.resolve alias_).port with
  -- Without a port the default one stands in.
  | none => decide
  | some port => simp

end Ports

section Candidates

variable {parsed : ParsedConfig} {db : Database}

/-- A candidate is the one that a store is offered for its alias. -/
def OfferedTo (parsed : ParsedConfig) (db : Database) (c : Candidate) : Prop :=
  ∃ existing, findBySourceAlias db c.alias_ = .ok existing ∧
    c = candidateOf parsed c.alias_ existing

/-- Every alias can be looked up in an intact store. -/
theorem found_of_intact (intact : Intact db) (alias_ : String) :
    ∃ existing, findBySourceAlias db alias_ = .ok existing := by
  -- A look-up fails only at a row that cannot be read, and there is none.
  cases known : findBySourceAlias db alias_ with
  | ok existing => exact ⟨existing, rfl⟩
  | error reason =>
    obtain ⟨row, cause, under, unread⟩ := Store.findBySourceAlias_eq_error.mp ⟨reason, known⟩
    obtain ⟨host, read⟩ := intact.readable row (Store.importedRow_eq_some under).1
    rw [read] at unread
    cases unread

/-- A scan of an intact store can read what it looks for. -/
theorem candidatesFor_of_intact (intact : Intact db) (aliases : List String) :
    ∃ candidates, candidatesFor parsed db aliases = .ok candidates := by
  -- The scan stops at the first failure, and no look-up fails.
  induction aliases with
  | nil => exact ⟨[], rfl⟩
  | cons alias_ rest ih =>
    obtain ⟨existing, known⟩ := found_of_intact intact alias_
    obtain ⟨candidates, read⟩ := ih
    refine ⟨candidateOf parsed alias_ existing :: candidates, ?_⟩
    rw [candidatesFor, known, read]
    rfl

/-- What a scan offers is one candidate for every alias, in their order. -/
theorem candidatesFor_eq {aliases : List String} {candidates : List Candidate}
    (read : candidatesFor parsed db aliases = .ok candidates) :
    candidates.map Candidate.alias_ = aliases ∧ ∀ c ∈ candidates, OfferedTo parsed db c := by
  -- Each alias is looked up and shown in turn, with nothing left out.
  induction aliases generalizing candidates with
  | nil =>
    cases read
    exact ⟨rfl, fun c member => absurd member List.not_mem_nil⟩
  | cons alias_ rest ih =>
    obtain ⟨existing, known, onward⟩ := Store.bind_eq_ok read
    obtain ⟨others, later, assembled⟩ := Store.bind_eq_ok onward
    cases assembled
    obtain ⟨named, offered⟩ := ih later
    refine ⟨?_, ?_⟩
    · rw [List.map_cons, named]
      rfl
    · rw [List.forall_mem_cons]
      exact ⟨⟨existing, known, rfl⟩, offered⟩

/-- Candidates chosen from those of a scan go by different aliases when none is chosen twice. -/
theorem distinct_of_chosen {platform : Platform} {path : String} {scanned : Scan}
    {chosen : List Candidate} (succeeded : scan platform path db = .ok scanned)
    (each : chosen.Nodup) (among : ∀ c ∈ chosen, c ∈ scanned.candidates) :
    (chosen.map Candidate.alias_).Nodup ∧
      ∀ c ∈ chosen, OfferedTo (parseFile platform path) db c := by
  obtain ⟨candidates, read, assembled⟩ := Store.bind_eq_ok succeeded
  cases assembled
  obtain ⟨named, offered⟩ := candidatesFor_eq read
  have distinct := FirstSeen.nodup_keep id [] ((parseFile platform path).stanzas.flatMap
    fun stanza => stanza.patterns.filter isConcrete)
  rw [List.map_id] at distinct
  change (parseFile platform path).aliases.Nodup at distinct
  rw [← named] at distinct
  -- No candidate is chosen twice, and no two of a scan go by the same alias.
  refine ⟨List.Nodup.map_on ?_ each, fun c member => offered c (among c member)⟩
  intro c here d there same
  exact List.inj_on_of_nodup_map distinct (among c here) (among d there) same

/-- A candidate is offered as an update when its alias was imported before. -/
theorem disposition_of_offered {c : Candidate} (offered : OfferedTo parsed db c) :
    c.disposition = if (importedRow db c.alias_).isSome then .update else .new := by
  -- What is shown is what the look-up found when the preview was made.
  obtain ⟨existing, known, same⟩ := offered
  have shown := congrArg Candidate.disposition same
  change c.disposition = if existing.isSome then Disposition.update else .new at shown
  rw [shown]
  cases existing with
  | none =>
    rw [Store.findBySourceAlias_eq_none.mp known]
    rfl
  | some host =>
    obtain ⟨row, -, under, -⟩ := Store.findBySourceAlias_eq_some.mp known
    rw [under]
    rfl

end Candidates

section Imports

variable {db : Database} {chosen : List Candidate}

/-- The candidates that the preview shows as of a kind. -/
def shownAs (disposition : Disposition) (chosen : List Candidate) : Nat :=
  chosen.countP fun c => c.disposition == disposition

/-- What the preview shows as updates and as new is what the store knows and does not know. -/
theorem shownAs_of_offered {parsed : ParsedConfig} (offered : ∀ c ∈ chosen, OfferedTo parsed db c) :
    shownAs .new chosen = Store.unknown db chosen ∧
      shownAs .update chosen = Store.known db chosen := by
  -- Candidates are counted by what they are shown as, which is what the store knows.
  refine ⟨List.countP_congr fun c member => ?_, List.countP_congr fun c member => ?_⟩
  · rw [disposition_of_offered (offered c member), ← Option.not_isSome]
    cases (importedRow db c.alias_).isSome with
    | true => decide
    | false => decide
  · rw [disposition_of_offered (offered c member)]
    cases (importedRow db c.alias_).isSome with
    | true => decide
    | false => decide

/-- A candidate of a scan is refused when the config names port zero for it. -/
theorem refused_of_offered {parsed : ParsedConfig} {earlier : Database} {c : Candidate}
    (intact : Intact db) (offered : OfferedTo parsed earlier c) :
    Store.Refused db c ↔ NamesPortZero parsed c.alias_ := by
  obtain ⟨existing, -, same⟩ := offered
  have port := congrArg Candidate.port same
  rw [← @port_candidateOf parsed c.alias_ existing, ← port]
  -- The other way to be refused is a row that cannot be read.
  refine or_iff_left ?_
  rintro ⟨reason, unread⟩
  obtain ⟨found, known⟩ := found_of_intact intact c.alias_
  cases known.symm.trans unread

/--
What the preview offers can be imported as it is shown
exactly when the config names port zero for none of the chosen hosts.
-/
theorem preview_importable_iff (reachable : Store.Reachable db) (platform : Platform)
    (path : String) (now : Int) :
    ∃ scanned, scan platform path db = .ok scanned ∧
      ∀ chosen : List Candidate, chosen.Nodup → (∀ c ∈ chosen, c ∈ scanned.candidates) →
        ((Store.apply now db ⟨0, 0⟩ chosen).2 =
            .ok ⟨shownAs .new chosen, shownAs .update chosen⟩ ↔
          ∀ c ∈ chosen, ¬NamesPortZero (parseFile platform path) c.alias_) := by
  have intact := reachable.intact
  obtain ⟨candidates, read⟩ :=
    @candidatesFor_of_intact (parseFile platform path) db intact (parseFile platform path).aliases
  have succeeded : scan platform path db =
      .ok ⟨path, candidates, (parseFile platform path).warnings⟩ := by
    rw [scan, read]
    rfl
  refine ⟨_, succeeded, fun chosen each among => ?_⟩
  -- What is chosen of a scan is offered, and no alias twice.
  obtain ⟨distinct, offered⟩ := distinct_of_chosen succeeded each among
  obtain ⟨news, updates⟩ := shownAs_of_offered offered
  have spared : (∀ c ∈ chosen, ¬NamesPortZero (parseFile platform path) c.alias_) ↔
      ¬∃ c ∈ chosen, Store.Refused db c := by
    simp only [not_exists, not_and]
    exact forall₂_congr fun c member => not_congr
      (refused_of_offered intact (offered c member)).symm
  rw [spared, ← @Store.run_upsertStep_eq_none_iff now db intact.consistent chosen]
  cases ran : System.run (Store.upsertStep now) db chosen with
  | none =>
    -- An import with a turn that is refused fails.
    refine iff_of_false ?_ (by simp)
    obtain ⟨reason, failed⟩ := (Store.apply_fails_iff ⟨0, 0⟩ chosen).mpr ran
    rw [failed]
    exact fun answered => nomatch answered
  | some after =>
    refine iff_of_true ?_ (by simp)
    -- Every other import counts each candidate by whether its host was there.
    rw [Store.apply_of_run intact distinct ran, news, updates, Nat.zero_add, Nat.zero_add]

/-- A config whose second host names a port that no connection can be made to. -/
def zeroPort : Platform where
  home := none
  userProfile := none
  unicodeLowercase := id
  canonicalize := some
  readToString path :=
    if path = "/c/config" then some "Host web\nPort 2222\nHost odd\nPort 0\n" else none
  isFile path := path == "/c/config"
  readDir _ := none

/-- The store that was just created is led to by no call at all. -/
theorem reachable_fresh : Store.Reachable Database.fresh := ⟨[], rfl⟩

/-- The first host of the config is imported as it is shown. -/
theorem preview_importable_of_first :
    ∃ scanned c, scan zeroPort "/c/config" Database.fresh = .ok scanned ∧
      c ∈ scanned.candidates ∧ c.alias_ = "web" ∧
      (Store.apply 0 Database.fresh ⟨0, 0⟩ [c]).2 =
        .ok ⟨shownAs .new [c], shownAs .update [c]⟩ := by
  -- The first host names another port than zero, which is all the theorem asks.
  obtain ⟨scanned, succeeded, importable⟩ :=
    preview_importable_iff reachable_fresh zeroPort "/c/config" 0
  have listed : "web" ∈ (parseFile zeroPort "/c/config").aliases := by decide +kernel
  obtain ⟨existing, member⟩ := (scan_eq_ok succeeded).1 "web" listed
  refine ⟨scanned, _, succeeded, member, rfl, ?_⟩
  refine (importable [_] (List.nodup_singleton _) (by simpa using member)).mpr ?_
  intro other here
  rw [List.mem_singleton.mp here]
  show ¬NamesPortZero _ "web"
  unfold NamesPortZero
  decide +kernel

/-- The preview offers the second host as a new one, and the import of it fails. -/
theorem preview_offers_port_zero :
    Store.Reachable Database.fresh ∧
      ∃ scanned c, scan zeroPort "/c/config" Database.fresh = .ok scanned ∧
        c ∈ scanned.candidates ∧ c.alias_ = "odd" ∧ c.disposition = .new ∧
        (Store.apply 0 Database.fresh ⟨0, 0⟩ [c]).2 = .error (.constraint "port") := by
  refine ⟨reachable_fresh, _, candidateOf (parseFile zeroPort "/c/config") "odd" none, rfl, ?_⟩
  decide +kernel

end Imports

end Tern.SshConfig
