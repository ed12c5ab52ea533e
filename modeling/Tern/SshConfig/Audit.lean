import Tern.SshConfig.Scan
import Tern.SshConfig.Walk

/-! An account of every line of a config: what becomes of it, or where a scan loses it. -/

namespace Tern.SshConfig

open Store (Candidate Database)

variable (platform : Platform) (path : String)

section Fates

/-- An alias is named by a `Host` line. -/
def Offered (alias_ : String) : Prop :=
  ∃ reading ∈ readings platform path, reading.directive.keyword = "host" ∧
    alias_ ∈ reading.directive.args ∧ isConcrete alias_ = true

/-- A line stands in a `Match` block, of its own file or around it. -/
def Reading.InMatch (self : Reading) : Prop :=
  ∃ file line, self.block = some (.match_ file line)

/-- A line applies to an alias, as the lines outside all blocks do to every one. -/
def Reading.AppliesTo (self : Reading) (alias_ : String) : Prop :=
  match self.block with
  | none => True
  | some (.host patterns) => matchesFrom alias_ false patterns = true
  | some (.match_ _ _) => False

/-- The arguments of a line are accepted, as far as its keyword is understood at all. -/
def Reading.HasValue (self : Reading) : Prop :=
  ∀ field : Field, self.directive.keyword = field.keyword →
    (field.accepted platform self.directive.args).isSome = true

/-- For each of the aliases that a line applies to, an earlier line gives its keyword a value. -/
def Shadowed (reading : Reading) : Prop :=
  -- A line that applies to no alias is dropped, and nothing shadows it.
  (∃ alias_, Offered platform path alias_ ∧ reading.AppliesTo alias_) ∧
  ∀ alias_, Offered platform path alias_ → reading.AppliesTo alias_ →
    ∃ earlier ∈ (readings platform path).takeWhile (· ≠ reading),
      earlier.directive.keyword = reading.directive.keyword ∧ earlier.HasValue platform ∧
        earlier.AppliesTo alias_

/-- Some candidate shows the value of a line, and resolution took it from there. -/
def Affects (result : Scan) (reading : Reading) : Prop :=
  ∃ candidate ∈ result.candidates, ∃ field value entry,
    field.obtained platform reading.directive = some value ∧ Shows candidate field value ∧
      reading.entry = some entry ∧ winning platform path candidate.alias_ field = some entry

/-- A line does what it is there for. -/
def TakesEffect (result : Scan) (reading : Reading) : Prop :=
  if reading.directive.keyword = "host" then
    -- The stanza of the line takes part in what some candidate is resolved from.
    ∃ stanza ∈ (parseFile platform path).stanzas, stanza.patterns = reading.directive.args ∧
      ∃ candidate ∈ result.candidates, stanza.matches candidate.alias_ = true
  else if reading.directive.keyword = "match" then False
  else if reading.directive.keyword = "include" then
    reading.directive.args ≠ [] ∧ reading.missed = []
  else Affects platform path result reading

/-- A warning of the scan names a line by its file and its number. -/
def Named (result : Scan) (reading : Reading) : Prop :=
  ∃ warning ∈ result.warnings,
    warning.file = reading.file ∧ warning.line = reading.directive.line

/-- A line below a `Match` line that the scan reports. -/
def InReportedMatch (result : Scan) (reading : Reading) : Prop :=
  reading.directive.keyword ≠ "host" ∧ reading.directive.keyword ≠ "match" ∧
    ∃ file line, reading.block = some (.match_ file line) ∧
      .matchUnsupported file line ∈ result.warnings

/-- A line is not dropped in silence. -/
def Accounted (result : Scan) (reading : Reading) : Prop :=
  TakesEffect platform path result reading ∨
    (reading.IsSetting ∧ Shadowed platform path reading) ∨
    InReportedMatch result reading ∨ Named result reading

/-- A `Host` line whose patterns match none of the aliases that are offered. -/
def LostHost (reading : Reading) : Prop :=
  ∀ alias_, Offered platform path alias_ →
    matchesFrom alias_ false reading.directive.args = false

/-- Every pattern of an include line names a file, but not every such file is read for it. -/
def LostInclude (reading : Reading) : Prop :=
  ¬reading.InMatch ∧
    (∃ base, parent reading.file = some base ∧ ∀ pattern ∈ reading.directive.args,
      globPaths platform (includeTarget platform base pattern) ≠ []) ∧
    (reading.directive.args = [] ∨ reading.missed ≠ [])

/--
Each alias that a setting's patterns match is given the value by another line.

That line stands before the setting in the order in which the stanzas end,
where an included file ends before the stanza that includes it does.
-/
def Overtaken (reading : Reading) (patterns : List String) (field : Field) : Prop :=
  ∀ alias_, Offered platform path alias_ → matchesFrom alias_ false patterns = true →
    ∃ other ∈ (Nesting.entriesOf (blocks platform path)).takeWhile
        (· ≠ (patterns, ⟨reading.file, reading.directive⟩)),
      gives platform alias_ field other = true

/--
A setting that nothing shadows stands above the first `Host` line of its file,
or its value is not accepted, not brought across, or overtaken.
-/
def LostSetting (reading : Reading) : Prop :=
  ¬reading.InMatch ∧ ¬Shadowed platform path reading ∧
    (reading.own = none ∨ ∃ patterns field, reading.own = some (.host patterns) ∧
      reading.directive.keyword = field.keyword ∧
      (field.accepted platform reading.directive.args = none ∨ field = .forwardAgent ∨
        Overtaken platform path reading patterns field))

/-- The lines that a scan drops in silence. -/
def Lost (reading : Reading) : Prop :=
  if reading.directive.keyword = "host" then LostHost platform path reading
  else if reading.directive.keyword = "match" then False
  else if reading.directive.keyword = "include" then LostInclude platform reading
  else LostSetting platform path reading

end Fates

section Audit

variable {platform path} {db : Database} {result : Scan} {reading : Reading}

/-- A line opens the scope of its patterns when it has some. -/
theorem opens_iff {patterns : List String} :
    reading.opens = some patterns ↔
      reading.directive.keyword = "host" ∧ reading.directive.args = patterns ∧ patterns ≠ [] := by
  unfold Reading.opens scopeOf
  split
  · -- A `Host` line without patterns opens no scope.
    rename_i host
    cases args : reading.directive.args with
    | nil => simp [host]
    | cons pattern rest =>
      simp only [host, List.isEmpty_cons, Bool.false_eq_true, if_false, Option.some.injEq, true_and]
      constructor
      · rintro rfl
        exact ⟨rfl, List.cons_ne_nil pattern rest⟩
      · exact And.left
  · -- No other keyword opens a scope.
    rename_i other
    simp [other]

/-- The aliases that `Host` lines name are those that the parse offers. -/
theorem offered_iff {alias_ : String} :
    Offered platform path alias_ ↔ alias_ ∈ (parseFile platform path).aliases := by
  -- A stanza of the parse is opened by a line of the walk, and the other way round.
  rw [mem_aliases]
  constructor
  · rintro ⟨reading, member, host, named, concrete⟩
    have opened : reading.opens = some reading.directive.args :=
      opens_iff.mpr ⟨host, rfl, List.ne_nil_of_mem named⟩
    obtain ⟨stanza, listed, patterns⟩ := mem_patterns_parseFile.mpr ⟨reading, member, opened⟩
    exact ⟨concrete, stanza, listed, patterns ▸ named⟩
  · rintro ⟨concrete, stanza, listed, named⟩
    obtain ⟨reading, member, opened⟩ := mem_patterns_parseFile.mp ⟨stanza, listed, rfl⟩
    obtain ⟨host, patterns, _⟩ := opens_iff.mp opened
    exact ⟨reading, member, host, patterns ▸ named, concrete⟩

/-- A keyword gives one setting only. -/
theorem keyword_injective {left right : Field} (same : left.keyword = right.keyword) :
    left = right := by
  cases left <;> cases right <;> first | rfl | (simp [Field.keyword] at same)

/-- Every `Match` line that lines stand below is reported. -/
theorem inReportedMatch_iff (scanned : scan platform path db = .ok result)
    (member : reading ∈ readings platform path) :
    InReportedMatch result reading ↔
      reading.directive.keyword ≠ "host" ∧ reading.directive.keyword ≠ "match" ∧
        reading.InMatch := by
  obtain ⟨_, _, warnings⟩ := scan_eq_ok scanned
  obtain ⟨sound, _⟩ := sound_readings platform path
  constructor
  · rintro ⟨host, match_, file, line, below, _⟩
    exact ⟨host, match_, file, line, below⟩
  · rintro ⟨host, match_, file, line, below⟩
    refine ⟨host, match_, file, line, below, ?_⟩
    -- The line that opened the block is itself among the lines, so it was warned of.
    obtain ⟨opener, among, rfl, keyword, rfl⟩ := sound.grounded reading member file line below
    have numbered : (Warning.matchUnsupported opener.file opener.directive.line).line ≠ 0 :=
      (sound.stands opener among).numbered
    rw [warnings, mem_warnings_parseFile numbered]
    exact ⟨opener, among, by simp [Reading.warnings, keyword]⟩

/-- A scan names a line exactly when the parse says something of it. -/
theorem named_scan_iff (scanned : scan platform path db = .ok result)
    (member : reading ∈ readings platform path) :
    Named result reading ↔ reading.warnings platform ≠ [] := by
  obtain ⟨_, _, warnings⟩ := scan_eq_ok scanned
  rw [Named, warnings]
  exact named_iff member

/-- A `Host` line is accounted for when its patterns match an alias that is offered. -/
theorem accounted_host (scanned : scan platform path db = .ok result)
    (member : reading ∈ readings platform path) (host : reading.directive.keyword = "host") :
    Accounted platform path result reading ↔ ¬LostHost platform path reading := by
  obtain ⟨present, named, _⟩ := scan_eq_ok scanned
  have setting : ¬reading.IsSetting := fun setting => setting.1 host
  rw [Accounted, TakesEffect, if_pos host, named_scan_iff scanned member,
    inReportedMatch_iff scanned member]
  simp only [setting, false_and, host, ne_eq, not_true_eq_false, Reading.warnings, if_true,
    or_false, LostHost, not_forall, Bool.not_eq_false]
  constructor
  · intro effect
    -- The candidate that the stanza matches goes by an offered alias.
    obtain ⟨stanza, _, patterns, candidate, among, hit⟩ := effect
    rw [Stanza.matches, patterns] at hit
    exact ⟨candidate.alias_, offered_iff.mpr (named candidate among), hit⟩
  · intro kept
    obtain ⟨alias_, offered, hit⟩ := kept
    -- A line that matches something has a pattern, and so heads a stanza.
    have occupied : reading.directive.args ≠ [] := by
      intro bare
      rw [bare] at hit
      cases hit
    obtain ⟨stanza, listed, patterns⟩ := mem_patterns_parseFile.mpr
      ⟨reading, member, opens_iff.mpr ⟨host, rfl, occupied⟩⟩
    -- Every offered alias has a candidate, and the stanza matches that one.
    obtain ⟨existing, among⟩ := present alias_ (offered_iff.mp offered)
    refine ⟨stanza, listed, patterns, _, among, ?_⟩
    rw [Stanza.matches, patterns]
    exact hit

/-- An include line is accounted for when it is followed or something is said of it. -/
theorem accounted_include (scanned : scan platform path db = .ok result)
    (member : reading ∈ readings platform path) (include_ : reading.directive.keyword = "include") :
    Accounted platform path result reading ↔ ¬LostInclude platform reading := by
  have host : reading.directive.keyword ≠ "host" := by rw [include_]; decide
  have match_ : reading.directive.keyword ≠ "match" := by rw [include_]; decide
  have setting : ¬reading.IsSetting := fun setting => setting.2.2 include_
  have effect : TakesEffect platform path result reading ↔
      reading.directive.args ≠ [] ∧ reading.missed = [] := by
    rw [TakesEffect, if_neg host, if_neg match_, if_pos include_]
  -- Something is said when there is no directory, or when some pattern names no file.
  have said : reading.warnings platform ≠ [] ↔
      ¬∃ base, parent reading.file = some base ∧ ∀ pattern ∈ reading.directive.args,
        globPaths platform (includeTarget platform base pattern) ≠ [] := by
    rw [Reading.warnings, if_neg host, if_neg match_, if_pos include_]
    cases directory : parent reading.file with
    | none => simp
    | some base => simp [unmatched]
  rw [Accounted, effect, named_scan_iff scanned member, inReportedMatch_iff scanned member, said,
    LostInclude]
  -- Inside a reported `Match` block the line is accounted for in any case.
  by_cases inside : reading.InMatch
  · simp [inside, host, match_]
  · simp only [inside, setting, and_false, false_and, false_or, not_false_eq_true, true_and,
      not_and_or, not_or, not_not, ne_eq]
    exact or_comm

/-- A keyword is understood when it gives a setting. -/
theorem understood_iff {keyword : String} :
    understood.contains keyword = true ↔ ∃ field : Field, keyword = field.keyword := by
  -- The list of known keywords and the list of fields are the same eight.
  constructor
  · intro known
    simp only [understood, List.contains_iff_mem, List.mem_cons, List.not_mem_nil,
      or_false] at known
    rcases known with rfl | rfl | rfl | rfl | rfl | rfl | rfl | rfl
    · exact ⟨.hostname, rfl⟩
    · exact ⟨.port, rfl⟩
    · exact ⟨.user, rfl⟩
    · exact ⟨.identityFile, rfl⟩
    · exact ⟨.proxyJump, rfl⟩
    · exact ⟨.serverAliveInterval, rfl⟩
    · exact ⟨.connectTimeout, rfl⟩
    · exact ⟨.forwardAgent, rfl⟩
  · rintro ⟨field, rfl⟩
    exact keyword_understood field

/-- Under patterns, a setting shows in a candidate unless its value is refused or overtaken. -/
theorem affects_iff (scanned : scan platform path db = .ok result)
    (member : reading ∈ readings platform path) {patterns : List String} {field : Field}
    (held : reading.entry = some (patterns, ⟨reading.file, reading.directive⟩))
    (keyword : reading.directive.keyword = field.keyword) :
    Affects platform path result reading ↔
      field.accepted platform reading.directive.args ≠ none ∧ field ≠ .forwardAgent ∧
        ¬Overtaken platform path reading patterns field := by
  obtain ⟨present, named, _⟩ := scan_eq_ok scanned
  have obtains : field.obtained platform reading.directive =
      field.accepted platform reading.directive.args := if_pos keyword
  -- The entry is one of those that the resolver goes through.
  have listed := entry_mem_blocks member held
  constructor
  · rintro ⟨candidate, among, other, value, entry, obtained, shown, same, wins⟩
    -- Only its own setting can be obtained from a line.
    have own : other = field := by
      apply keyword_injective
      unfold Field.obtained at obtained
      split at obtained
      · rename_i gives
        exact gives.symm.trans keyword
      · cases obtained
    subst own
    rw [held, Option.some.injEq] at same
    subst same
    refine ⟨?_, ?_, ?_⟩
    · rw [← obtains, obtained]
      exact Option.some_ne_none value
    · rintro rfl
      exact shown
    · intro overtaken
      -- The entry that wins is the first to give the setting, so none before it does.
      obtain ⟨_, hit, first⟩ := FirstSeen.find_eq_some_iff.mp wins
      have matched : matchesFrom candidate.alias_ false patterns = true := by
        unfold gives given at hit
        split at hit
        · assumption
        · cases hit
      obtain ⟨before, earlier, hits⟩ :=
        overtaken candidate.alias_ (offered_iff.mpr (named candidate among)) matched
      exact first before earlier hits
  · rintro ⟨accepted, carried, ahead⟩
    obtain ⟨value, accepts⟩ := Option.ne_none_iff_exists'.mp accepted
    unfold Overtaken at ahead
    push Not at ahead
    obtain ⟨alias_, offered, matched, first⟩ := ahead
    have value_given : given platform alias_ field
        (patterns, ⟨reading.file, reading.directive⟩) = some value := by
      rw [given, if_pos matched, obtains, accepts]
    -- The alias that nobody overtakes the line for is the one whose candidate shows it.
    have wins : winning platform path alias_ field =
        some (patterns, ⟨reading.file, reading.directive⟩) := by
      apply FirstSeen.find_eq_some_iff.mpr
      exact ⟨listed, by rw [gives, value_given]; rfl, first⟩
    -- What wins is what the resolver answers, and so what the candidate shows.
    have resolved : ((parseFile platform path).resolve alias_).get field = some value := by
      rw [get_resolve_entries, findSome_given, ← winning, wins]
      exact value_given
    obtain ⟨existing, among⟩ := present alias_ (offered_iff.mp offered)
    exact ⟨_, among, field, value, _, obtains.trans accepts,
      shows_candidateOf resolved carried existing, held, wins⟩

/-- Below a `Host` line, with or without patterns, a setting shows under the same condition. -/
theorem affects_below (scanned : scan platform path db = .ok result)
    (member : reading ∈ readings platform path) (setting : reading.IsSetting)
    {patterns : List String} {field : Field} (own : reading.own = some (.host patterns))
    (keyword : reading.directive.keyword = field.keyword) :
    Affects platform path result reading ↔
      field.accepted platform reading.directive.args ≠ none ∧ field ≠ .forwardAgent ∧
        ¬Overtaken platform path reading patterns field := by
  by_cases bare : patterns = []
  · -- Without patterns the setting goes nowhere, and there is no alias to overtake it for.
    subst bare
    have nowhere : reading.entry = none := by
      simp [Reading.entry, setting, scopeIn, own, scopeOf]
    have overtaken : Overtaken platform path reading [] field := by
      intro alias_ _ matched
      cases matched
    constructor
    · intro affects
      obtain ⟨_, _, _, _, _, _, _, held, _⟩ := affects
      rw [nowhere] at held
      cases held
    · intro kept
      exact absurd overtaken kept.2.2
  · -- With patterns the setting is an entry under them.
    have held : reading.entry = some (patterns, ⟨reading.file, reading.directive⟩) := by
      simp [Reading.entry, setting, scopeIn, own, scopeOf, bare]
    exact affects_iff scanned member held keyword

/-- A setting is accounted for unless it is one of those that get lost. -/
theorem accounted_setting (scanned : scan platform path db = .ok result)
    (member : reading ∈ readings platform path) (setting : reading.IsSetting) :
    Accounted platform path result reading ↔ ¬LostSetting platform path reading := by
  obtain ⟨host, match_, include_⟩ := setting
  have effect : TakesEffect platform path result reading ↔
      Affects platform path result reading := by
    rw [TakesEffect, if_neg host, if_neg match_, if_neg include_]
  rw [Accounted, effect, named_scan_iff scanned member, inReportedMatch_iff scanned member]
  -- Three ways to be accounted for are settled before the block is looked at.
  by_cases inside : reading.InMatch
  · simp [inside, host, match_, LostSetting]
  by_cases shadowed : Shadowed platform path reading
  · simp [shadowed, LostSetting, Reading.IsSetting, host, match_, include_]
  simp only [inside, shadowed, and_false, false_or, LostSetting, not_false_eq_true, true_and]
  cases own : reading.own with
  | none =>
    -- Above the first `Host` line nothing is kept and nothing is said.
    have silent : reading.warnings platform = [] := by
      simp [Reading.warnings, host, match_, include_, own]
    have bare : reading.entry = none := by simp [Reading.entry, scopeIn, own]
    simp [silent, Affects, bare]
  | some block =>
    cases block with
    | match_ file line => exact absurd ⟨file, line, by simp [Reading.block, own]⟩ inside
    | host patterns =>
      by_cases known : understood.contains reading.directive.keyword = true
      · obtain ⟨field, keyword⟩ := understood_iff.mp known
        -- A keyword that is understood is never warned of, so that only its effect counts.
        have silent : reading.warnings platform = [] := by
          simp only [Reading.warnings, host, match_, include_, own, known, if_true, if_false]
        rw [affects_below scanned member ⟨host, match_, include_⟩ own keyword]
        simp only [silent, ne_eq, not_true_eq_false, or_false, reduceCtorEq, false_or,
          Option.some.injEq, Block.host.injEq]
        constructor
        · rintro ⟨accepted, carried, ahead⟩ ⟨others, other, rfl, same, lost⟩
          -- The keyword tells which setting it is, so the loss is about this one.
          obtain rfl := keyword_injective (keyword.symm.trans same)
          rcases lost with refused | dropped | overtaken
          · exact accepted refused
          · exact carried dropped
          · exact ahead overtaken
        · intro kept
          refine ⟨?_, ?_, ?_⟩
          · exact fun refused => kept ⟨patterns, field, rfl, keyword, .inl refused⟩
          · exact fun dropped => kept ⟨patterns, field, rfl, keyword, .inr (.inl dropped)⟩
          · exact fun overtaken => kept ⟨patterns, field, rfl, keyword, .inr (.inr overtaken)⟩
      · -- Any other keyword is named in a warning.
        have said : reading.warnings platform ≠ [] := by
          simpa [Reading.warnings, host, match_, include_, own] using known
        have unknown : ∀ field : Field, reading.directive.keyword ≠ field.keyword :=
          fun field same => known (understood_iff.mpr ⟨field, same⟩)
        simp [said, unknown]

/--
Every line of a config is accounted for by a scan, unless it is one of the lines that get lost.

That is a `Host` line that matches no offered alias, an include line that names files of which some
are not read, or a setting that nothing shadows and whose value does not reach any candidate.
-/
theorem accounted_iff_not_lost (scanned : scan platform path db = .ok result)
    (member : reading ∈ readings platform path) :
    Accounted platform path result reading ↔ ¬Lost platform path reading := by
  by_cases host : reading.directive.keyword = "host"
  · rw [accounted_host scanned member host, Lost, if_pos host]
  by_cases match_ : reading.directive.keyword = "match"
  · -- A `Match` line is always reported.
    have said : reading.warnings platform ≠ [] := by simp [Reading.warnings, match_]
    rw [Lost, if_neg host, if_pos match_]
    exact iff_of_true (.inr (.inr (.inr ((named_scan_iff scanned member).mpr said)))) not_false
  by_cases include_ : reading.directive.keyword = "include"
  · rw [accounted_include scanned member include_, Lost, if_neg host, if_neg match_,
      if_pos include_]
  · rw [accounted_setting scanned member ⟨host, match_, include_⟩, Lost, if_neg host,
      if_neg match_, if_neg include_]

/-- In a scan without warnings, only an effect or a shadow accounts for a setting. -/
theorem unaccounted_of_silent (silent : result.warnings = []) (setting : reading.IsSetting)
    (unseen : ¬Affects platform path result reading)
    (unshadowed : ¬Shadowed platform path reading) :
    ¬Accounted platform path result reading := by
  -- Without warnings nothing is said of the line, so two of the four accounts drop out.
  obtain ⟨host, match_, include_⟩ := setting
  rintro (effect | ⟨_, shadowed⟩ | ⟨_, _, _, _, _, reported⟩ | ⟨warning, warned, _⟩)
  · rw [TakesEffect, if_neg host, if_neg match_, if_neg include_] at effect
    exact unseen effect
  · exact unshadowed shadowed
  · rw [silent] at reported
    cases reported
  · rw [silent] at warned
    cases warned

/-- The first line with a keyword is shadowed for no alias that it applies to. -/
theorem unshadowed_of_first {alias_ : String} (offered : Offered platform path alias_)
    (applies : reading.AppliesTo alias_)
    (first : ∀ earlier ∈ (readings platform path).takeWhile (· ≠ reading),
      earlier.directive.keyword ≠ reading.directive.keyword) :
    ¬Shadowed platform path reading := by
  intro shadowed
  obtain ⟨earlier, before, keyword, _⟩ := shadowed.2 alias_ offered applies
  exact first earlier before keyword

/-- A setting above the first `Host` line, one that is no number, and one that is not carried. -/
def unreportedLines : Platform where
  home := none
  userProfile := none
  unicodeLowercase := id
  canonicalize := some
  readToString path :=
    if path = "/c/config" then some "User a\nHost web\nPort x\nForwardAgent yes\n" else none
  isFile path := path == "/c/config"
  readDir _ := none

/-- What a scan of them comes to, which is a candidate with every default and no warning. -/
def unreportedScan : Scan where
  source := "/c/config"
  candidates := [⟨"web", "web", 22, "", .agent, none, none, .default, .new⟩]
  warnings := []

/-- The `Host` line among them matches the alias that it offers, and so is accounted for. -/
theorem accounted_unreported_host :
    scan unreportedLines "/c/config" Database.fresh = .ok unreportedScan ∧
      ∃ reading ∈ readings unreportedLines "/c/config", reading.directive = ⟨2, "host", ["web"]⟩ ∧
        Accounted unreportedLines "/c/config" unreportedScan reading := by
  -- The line is not lost, since the alias it offers is among its own patterns.
  have scanned : scan unreportedLines "/c/config" Database.fresh = .ok unreportedScan := by
    decide +kernel
  have member : ⟨"/c/config", ⟨2, "host", ["web"]⟩, none, none, []⟩ ∈
      readings unreportedLines "/c/config" := by
    decide +kernel
  refine ⟨scanned, _, member, rfl, ?_⟩
  rw [accounted_iff_not_lost scanned member, Lost, if_pos rfl]
  intro lost
  have offered : Offered unreportedLines "/c/config" "web" :=
    ⟨_, member, rfl, by simp, by decide +kernel⟩
  exact absurd (lost "web" offered) (by decide +kernel)

/-- None of the three settings reaches the candidate, and nothing is said of any of them. -/
theorem settings_lost_in_silence :
    scan unreportedLines "/c/config" Database.fresh = .ok unreportedScan ∧
      (readings unreportedLines "/c/config").map (·.directive.keyword) =
        ["user", "host", "port", "forwardagent"] ∧
      ∀ reading ∈ readings unreportedLines "/c/config", reading.directive.keyword ≠ "host" →
        ¬Accounted unreportedLines "/c/config" unreportedScan reading := by
  have lines : readings unreportedLines "/c/config" =
      [⟨"/c/config", ⟨1, "user", ["a"]⟩, none, none, []⟩,
        ⟨"/c/config", ⟨2, "host", ["web"]⟩, none, none, []⟩,
        ⟨"/c/config", ⟨3, "port", ["x"]⟩, some (.host ["web"]), none, []⟩,
        ⟨"/c/config", ⟨4, "forwardagent", ["yes"]⟩, some (.host ["web"]), none, []⟩] := by
    decide +kernel
  -- The alias is offered by its own `Host` line.
  have offered : Offered unreportedLines "/c/config" "web" :=
    ⟨⟨"/c/config", ⟨2, "host", ["web"]⟩, none, none, []⟩, by rw [lines]; simp, rfl, by simp,
      by decide +kernel⟩
  have applies : matchesFrom "web" false ["web"] = true := by decide +kernel
  refine ⟨by decide +kernel, by rw [lines]; rfl, ?_⟩
  intro reading member setting
  rw [lines] at member
  simp only [List.mem_cons, List.not_mem_nil, or_false] at member
  -- One case for each line, of which the second is the `Host` line.
  rcases member with rfl | rfl | rfl | rfl
  · apply unaccounted_of_silent rfl (by decide)
    · rintro ⟨_, _, _, _, _, _, _, held, _⟩
      cases held
    · refine unshadowed_of_first offered ?_ ?_
      · trivial
      · rw [lines]
        decide
  · exact absurd rfl setting
  · apply unaccounted_of_silent rfl (by decide)
    · rintro ⟨_, _, field, _, _, obtained, _⟩
      cases field <;> cases obtained
    · refine unshadowed_of_first offered ?_ ?_
      · exact applies
      · rw [lines]
        decide
  · apply unaccounted_of_silent rfl (by decide)
    · rintro ⟨_, _, field, _, _, obtained, shown, _⟩
      cases field <;> first | exact shown | cases obtained
    · refine unshadowed_of_first offered ?_ ?_
      · exact applies
      · rw [lines]
        decide

end Audit

end Tern.SshConfig
