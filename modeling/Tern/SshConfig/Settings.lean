import Tern.SshConfig.Parse

/-! The settings of a stanza field by field, where the first obtained value wins. -/

namespace Tern.SshConfig

/-- A setting that a stanza can hold. -/
inductive Field where
  | hostname
  | port
  | user
  | identityFile
  | proxyJump
  | serverAliveInterval
  | connectTimeout
  | forwardAgent
  deriving DecidableEq, Repr

/-- What a setting's values are. -/
abbrev Field.Value : Field → Type
  | .hostname | .user | .identityFile | .proxyJump => String
  | .port => UInt16
  | .serverAliveInterval | .connectTimeout => UInt32
  | .forwardAgent => Bool

/-- The keyword that gives a setting. -/
def Field.keyword : Field → String
  | .hostname => "hostname"
  | .port => "port"
  | .user => "user"
  | .identityFile => "identityfile"
  | .proxyJump => "proxyjump"
  | .serverAliveInterval => "serveraliveinterval"
  | .connectTimeout => "connecttimeout"
  | .forwardAgent => "forwardagent"

/-- The value a stanza holds for a setting. -/
def Stanza.get (stanza : Stanza) : (field : Field) → Option field.Value
  | .hostname => stanza.hostname
  | .port => stanza.port
  | .user => stanza.user
  | .identityFile => stanza.identityFile
  | .proxyJump => stanza.proxyJump
  | .serverAliveInterval => stanza.serverAliveInterval
  | .connectTimeout => stanza.connectTimeout
  | .forwardAgent => stanza.forwardAgent

variable (platform : Platform)

/-- The value that arguments give a setting, if they are accepted for it. -/
def Field.accepted : (field : Field) → List String → Option field.Value
  | _, [] => none
  | .hostname, first :: _ => some first
  | .port, first :: _ => parseU16 first
  | .user, first :: _ => some first
  | .identityFile, first :: _ => some (expandTildeStr platform first)
  | .proxyJump, args => some (",".intercalate args)
  | .serverAliveInterval, first :: _ => parseU32 first
  | .connectTimeout, first :: _ => parseU32 first
  | .forwardAgent, first :: _ => some (decide (toLowercase platform first ∈ ["yes", "true", "on"]))

/-- The value that a directive gives a setting. -/
def Field.obtained (field : Field) (d : Directive) : Option field.Value :=
  if d.keyword = field.keyword then field.accepted platform d.args else none

section Merging

/-- The keyword of a setting is one of the understood ones. -/
theorem keyword_understood (field : Field) : understood.contains field.keyword = true := by
  cases field <;> decide

/-- A directive fills its own setting when that is still open, and touches no other. -/
theorem get_apply (stanza : Stanza) (d : Directive) (field : Field) :
    (apply platform stanza d.keyword d.args).get field =
      (stanza.get field).or (field.obtained platform d) := by
  obtain ⟨line, keyword, args⟩ := d
  cases args with
  | nil => cases field <;> simp [apply, Field.obtained, Field.accepted]
  | cons first rest =>
    simp only [apply, Bool.and_eq_true, decide_eq_true_eq, Option.isNone_iff_eq_none]
    split_ifs
    case neg =>
      -- No guard held, so the directive's own setting, if it has one, is already filled.
      by_cases own : keyword = field.keyword
      · have filled : stanza.get field ≠ none := by
          cases field <;> simp_all [Field.keyword, Stanza.get]
        obtain ⟨value, held⟩ := Option.ne_none_iff_exists'.mp filled
        rw [held, Option.some_or]
      · simp [Field.obtained, own]
    -- Each guard that held names one setting, and only that one changes.
    all_goals
      cases field <;> simp_all [Field.obtained, Field.keyword, Field.accepted, Stanza.get,
        beq_eq_decide, Bool.or_assoc]

/-- Only the patterns of a stanza are beyond the reach of directives. -/
theorem patterns_apply (stanza : Stanza) (keyword : String) (args : List String) :
    (apply platform stanza keyword args).patterns = stanza.patterns := by
  -- Every keyword writes to a field of its own, and no other field is the patterns.
  cases args with
  | nil => rfl
  | cons first rest =>
    simp only [apply]
    split_ifs <;> rfl

/-- A stanza is its patterns and its settings. -/
theorem Stanza.ext_get {left right : Stanza} (patterns : left.patterns = right.patterns)
    (settings : ∀ field, left.get field = right.get field) : left = right := by
  have := settings .hostname
  have := settings .port
  have := settings .user
  have := settings .identityFile
  have := settings .proxyJump
  have := settings .serverAliveInterval
  have := settings .connectTimeout
  have := settings .forwardAgent
  -- Eight settings and the patterns are all there is to a stanza.
  cases left
  cases right
  simp_all [Stanza.get]

/-- A directive that is not understood would set nothing. -/
theorem apply_unknown {keyword : String} (unknown : understood.contains keyword ≠ true)
    (stanza : Stanza) (args : List String) : apply platform stanza keyword args = stanza := by
  -- A stanza is its patterns and its fields, and the keyword is that of none of them.
  apply Stanza.ext_get (patterns_apply platform stanza keyword args)
  intro field
  rw [get_apply platform stanza ⟨0, keyword, args⟩ field, Field.obtained, if_neg, Option.or_none]
  intro own
  apply unknown
  rw [show keyword = field.keyword from own]
  exact keyword_understood field

/-- Inheriting keeps what is set and takes the rest from the other stanza. -/
theorem get_inheritFrom (self other : Stanza) (field : Field) :
    (self.inheritFrom other).get field = (self.get field).or (other.get field) := by
  cases field <;> rfl

/-- Nothing is set in a stanza that only has patterns. -/
theorem get_ofPatterns (patterns : List String) (field : Field) :
    (Stanza.ofPatterns patterns).get field = none := by
  cases field <;> rfl

/-- Resolution takes each setting from the first matching stanza that has it. -/
theorem get_resolve (cfg : ParsedConfig) (alias_ : String) (field : Field) :
    (cfg.resolve alias_).get field =
      cfg.stanzas.findSome? fun stanza =>
        if stanza.matches alias_ then stanza.get field else none := by
  -- The fold starts from any stanza, whose own value comes first.
  have general : ∀ (stanzas : List Stanza) (start : Stanza),
      (stanzas.foldl (fun resolved stanza =>
        if stanza.matches alias_ then resolved.inheritFrom stanza else resolved) start).get field =
        (start.get field).or (stanzas.findSome? fun stanza =>
          if stanza.matches alias_ then stanza.get field else none) := by
    intro stanzas
    induction stanzas with
    | nil => simp
    | cons stanza rest ih =>
      intro start
      rw [List.foldl_cons, ih, List.findSome?_cons]
      split
      · rw [get_inheritFrom, Option.or_assoc]
        cases stanza.get field <;> rfl
      · rfl
  rw [ParsedConfig.resolve, general, get_ofPatterns, Option.none_or]

end Merging

section Matching

/-- Some positive pattern spans the alias, and no negated one does. -/
def Applies (patterns : List String) (alias_ : String) : Prop :=
  (∃ pattern ∈ patterns, Text.stripPrefix '!' pattern = none ∧
    alias_.toList ∈ Wildcard.language '*' '?' pattern.toList) ∧
  ∀ pattern ∈ patterns, ∀ negated, Text.stripPrefix '!' pattern = some negated →
    alias_.toList ∉ Wildcard.language '*' '?' negated.toList

/-- Globbing a value without stars is membership in the pattern's language. -/
theorem globMatch_iff {value : String} (starless : '*' ∉ value.toList) (pattern : String) :
    globMatch pattern value = true ↔ value.toList ∈ Wildcard.language '*' '?' pattern.toList :=
  Wildcard.isMatch_iff (by decide) (.inr starless)

/-- The pattern loop accepts an alias exactly when the patterns apply to it. -/
theorem matchesFrom_iff {alias_ : String} (starless : '*' ∉ alias_.toList)
    (patterns : List String) :
    matchesFrom alias_ false patterns = true ↔ Applies patterns alias_ := by
  -- The loop carries whether a positive pattern has matched already.
  have general : ∀ (patterns : List String) (matched : Bool),
      matchesFrom alias_ matched patterns = true ↔
        (matched = true ∨ ∃ pattern ∈ patterns, Text.stripPrefix '!' pattern = none ∧
          alias_.toList ∈ Wildcard.language '*' '?' pattern.toList) ∧
        ∀ pattern ∈ patterns, ∀ negated, Text.stripPrefix '!' pattern = some negated →
          alias_.toList ∉ Wildcard.language '*' '?' negated.toList := by
    intro patterns
    induction patterns with
    | nil => intro matched; simp [matchesFrom]
    | cons pattern rest ih =>
      intro matched
      rw [matchesFrom]
      cases sign : Text.stripPrefix '!' pattern with
      | some negated =>
        -- A negated pattern that spans the alias ends the loop, whatever has matched before.
        by_cases excluded : globMatch negated alias_ = true
        · have inside := (globMatch_iff starless negated).mp excluded
          simp [excluded, sign, inside]
        · have outside := mt (globMatch_iff starless negated).mpr excluded
          simp [excluded, sign, outside, ih]
      | none =>
        simp only [ih, Bool.or_eq_true, globMatch_iff starless, List.mem_cons, forall_eq_or_imp,
          exists_eq_or_imp, sign, or_assoc, true_and, reduceCtorEq, false_implies, implies_true]
  rw [general, Applies]
  simp

/-- An offered alias holds no star. -/
theorem starless_of_offered {cfg : ParsedConfig} {alias_ : String}
    (offered : alias_ ∈ cfg.aliases) : '*' ∉ alias_.toList := by
  rw [ParsedConfig.aliases, FirstSeen.mem_keep] at offered
  have listed := List.mem_of_find?_eq_some offered.2
  obtain ⟨stanza, _, kept⟩ := List.mem_flatMap.mp listed
  -- Only concrete patterns are offered, and a concrete pattern has no star.
  have concrete := (List.mem_filter.mp kept).2
  simp only [isConcrete, Bool.not_eq_true', Bool.or_eq_false_iff, List.contains_eq_mem,
    decide_eq_false_iff_not] at concrete
  exact concrete.1.2

end Matching

end Tern.SshConfig
