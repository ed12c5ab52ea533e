import Tern.SshConfig.Resolve
import Tern.Store.Apply

/-! The preview of an import: one candidate for each alias, and the warnings of the parse. -/

namespace Tern.SshConfig

open Store (Candidate Database Host HostOverrides StoreError)

/-- What importing a config would do. -/
structure Scan where
  source : String
  candidates : List Candidate
  warnings : List Warning
  deriving DecidableEq, Repr

/-- The candidate for an alias, given the host that an earlier import of it left behind. -/
def candidateOf (parsed : ParsedConfig) (alias_ : String) (existing : Option Host) : Candidate :=
  let resolved := parsed.resolve alias_
  { alias_
    -- Without a host name the alias is the host name.
    hostname := resolved.hostname.getD alias_
    port := resolved.port.getD 22
    username := resolved.user.getD ""
    auth := if resolved.identityFile.isSome then .keyFile else .agent
    keyPath := resolved.identityFile
    proxyJump := resolved.proxyJump
    -- Agent forwarding is resolved like the rest and then left behind.
    overrides := { HostOverrides.default with
      keepaliveSecs := resolved.serverAliveInterval
      connectTimeoutSecs := resolved.connectTimeout }
    disposition := if existing.isSome then .update else .new }

/-- The candidates for some aliases, unless a stored host cannot be read. -/
def candidatesFor (parsed : ParsedConfig) (db : Database) :
    List String → Except StoreError (List Candidate)
  | [] => .ok []
  | alias_ :: rest => do
    let existing ← Store.findBySourceAlias db alias_
    let others ← candidatesFor parsed db rest
    .ok (candidateOf parsed alias_ existing :: others)

/-- Read a config and work out what importing it would do. -/
def scan (platform : Platform) (path : String) (db : Database) : Except StoreError Scan := do
  let parsed := parseFile platform path
  let candidates ← candidatesFor parsed db parsed.aliases
  .ok ⟨path, candidates, parsed.warnings⟩

/-- A candidate shows a value for a setting, which none does for agent forwarding. -/
def Shows (candidate : Candidate) : (field : Field) → field.Value → Prop
  | .hostname, value => candidate.hostname = value
  | .port, value => candidate.port = value
  | .user, value => candidate.username = value
  | .identityFile, value => candidate.keyPath = some value ∧ candidate.auth = .keyFile
  | .proxyJump, value => candidate.proxyJump = some value
  | .serverAliveInterval, value => candidate.overrides.keepaliveSecs = some value
  | .connectTimeout, value => candidate.overrides.connectTimeoutSecs = some value
  | .forwardAgent, _ => False

section Laws

variable {platform : Platform} {path : String} {db : Database} {parsed : ParsedConfig}

/-- The candidates are those of the aliases, each with what the store holds for it. -/
theorem mem_candidatesFor {aliases : List String} {candidates : List Candidate}
    (read : candidatesFor parsed db aliases = .ok candidates) :
    (∀ alias_ ∈ aliases, ∃ existing, candidateOf parsed alias_ existing ∈ candidates) ∧
      ∀ candidate ∈ candidates, candidate.alias_ ∈ aliases := by
  induction aliases generalizing candidates with
  | nil =>
    cases read
    simp
  | cons first rest ih =>
    -- The store is asked for this alias before the rest, and an error of it ends the scan.
    obtain ⟨existing, _, onward⟩ := Store.bind_eq_ok read
    obtain ⟨others, later, assembled⟩ := Store.bind_eq_ok onward
    cases assembled
    -- The candidate of this alias stands before those of the rest.
    obtain ⟨present, named⟩ := ih later
    refine ⟨?_, ?_⟩
    · intro alias_ member
      rcases List.mem_cons.mp member with rfl | member
      · exact ⟨existing, List.mem_cons_self⟩
      · obtain ⟨stored, found⟩ := present alias_ member
        exact ⟨stored, List.mem_cons_of_mem _ found⟩
    · intro candidate member
      rcases List.mem_cons.mp member with rfl | member
      · exact List.mem_cons_self
      · exact List.mem_cons_of_mem _ (named candidate member)

/-- A scan that succeeds has a candidate for every alias, and reports what the parse does. -/
theorem scan_eq_ok {result : Scan} (scanned : scan platform path db = .ok result) :
    (∀ alias_ ∈ (parseFile platform path).aliases,
        ∃ existing, candidateOf (parseFile platform path) alias_ existing ∈ result.candidates) ∧
      (∀ candidate ∈ result.candidates, candidate.alias_ ∈ (parseFile platform path).aliases) ∧
      result.warnings = (parseFile platform path).warnings := by
  obtain ⟨candidates, read, assembled⟩ := Store.bind_eq_ok scanned
  cases assembled
  obtain ⟨present, named⟩ := mem_candidatesFor read
  exact ⟨present, named, rfl⟩

/-- A candidate shows the resolved value of every setting that is brought across. -/
theorem shows_candidateOf {alias_ : String} {field : Field} {value : field.Value}
    (resolved : (parsed.resolve alias_).get field = some value) (carried : field ≠ .forwardAgent)
    (existing : Option Host) : Shows (candidateOf parsed alias_ existing) field value := by
  cases field with
  | forwardAgent => exact absurd rfl carried
  | hostname => simpa [Shows, candidateOf, Stanza.get] using congrArg (·.getD alias_) resolved
  | port => simpa [Shows, candidateOf, Stanza.get] using congrArg (·.getD 22) resolved
  | user => simpa [Shows, candidateOf, Stanza.get] using congrArg (·.getD "") resolved
  -- A key path also decides that the key is what is authenticated with.
  | identityFile =>
    have held : (parsed.resolve alias_).identityFile = some value := resolved
    simp [Shows, candidateOf, held]
  | proxyJump => exact resolved
  | serverAliveInterval => exact resolved
  | connectTimeout => exact resolved

/-- An alias is offered exactly when it is a concrete pattern of some stanza. -/
theorem mem_aliases {alias_ : String} :
    alias_ ∈ parsed.aliases ↔
      isConcrete alias_ = true ∧ ∃ stanza ∈ parsed.stanzas, alias_ ∈ stanza.patterns := by
  rw [ParsedConfig.aliases, FirstSeen.mem_keep]
  constructor
  · rintro ⟨_, found⟩
    obtain ⟨stanza, member, kept⟩ := List.mem_flatMap.mp (List.mem_of_find?_eq_some found)
    obtain ⟨pattern, concrete⟩ := List.mem_filter.mp kept
    exact ⟨concrete, stanza, member, pattern⟩
  · rintro ⟨concrete, stanza, member, pattern⟩
    refine ⟨List.not_mem_nil, ?_⟩
    have listed : alias_ ∈ parsed.stanzas.flatMap fun stanza => stanza.patterns.filter isConcrete :=
      List.mem_flatMap.mpr ⟨stanza, member, List.mem_filter.mpr ⟨pattern, concrete⟩⟩
    -- The first of the names that equal the alias is the alias.
    cases found : (parsed.stanzas.flatMap fun stanza => stanza.patterns.filter isConcrete).find?
        (fun other => id other = id alias_) with
    | none => exact absurd (List.find?_eq_none.mp found alias_ listed) (by simp)
    | some other =>
      have same := List.find?_some found
      simp only [id_eq, decide_eq_true_eq] at same
      rw [same]

end Laws

end Tern.SshConfig
