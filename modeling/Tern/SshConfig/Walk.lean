import Tern.SshConfig.Expand

/-! The lines of a config as they are come across, and what the parse says about each of them. -/

namespace Tern.SshConfig

open Nesting (Event Frame)

/-- The file that a warning names. -/
def Warning.file : Warning → String
  | .matchUnsupported file _ => file
  | .includeCycle file _ => file
  | .includeUnreadable file _ _ => file
  | .unsupportedKeyword file _ _ => file

/-- The line that a warning names. -/
def Warning.line : Warning → Nat
  | .matchUnsupported _ line => line
  | .includeCycle _ line => line
  | .includeUnreadable _ line _ => line
  | .unsupportedKeyword _ line _ => line

/-- What the lines below a `Host` or `Match` line stand in. -/
inductive Block where
  | host (patterns : List String)
  | match_ (file : String) (line : Nat)
  deriving DecidableEq, Repr

/-- One line that holds a directive, where it was come across. -/
structure Reading where
  file : String
  directive : Directive
  /-- The block that the lines above it in its own file have opened. -/
  own : Option Block
  /-- The block that its file was included in. -/
  outer : Option Block
  /-- The files that it includes and that were not read for it. -/
  missed : List String
  deriving DecidableEq, Repr

/-- The block a line stands in, which a file's first lines share with the line that includes it. -/
def Reading.block (self : Reading) : Option Block := self.own.or self.outer

/-- The line is none of those that give the config its structure. -/
def Reading.IsSetting (self : Reading) : Prop :=
  self.directive.keyword ≠ "host" ∧ self.directive.keyword ≠ "match" ∧
    self.directive.keyword ≠ "include"

instance (reading : Reading) : Decidable reading.IsSetting :=
  inferInstanceAs (Decidable (_ ∧ _ ∧ _))

/-- The block of a file's lines after one more of them. -/
def blockAfter (file : String) (own : Option Block) (d : Directive) : Option Block :=
  if d.keyword = "host" then some (.host d.args)
  else if d.keyword = "match" then some (.match_ file d.line)
  else own

/-- The lines come across so far, and the files entered. -/
structure Walk where
  readings : List Reading
  visited : List (List Component)
  deriving DecidableEq, Repr

/-- The walk after one more line. -/
def Walk.push (walk : Walk) (reading : Reading) : Walk :=
  { walk with readings := walk.readings ++ [reading] }

/-- Where the walk over one file stands. -/
structure Walking where
  walk : Walk
  own : Option Block
  deriving DecidableEq, Repr

/-- The walk after some files are entered in turn, and those of them that were not read. -/
def follow (walkEntry : String → Option Block → Walk → Walk × Bool) (around : Option Block)
    (files : List String) (walk : Walk) : Walk × List String :=
  files.foldl (fun reached entry =>
    let next := walkEntry entry around reached.1
    (next.1, if next.2 then reached.2 else reached.2 ++ [entry])) (walk, [])

/-- The walk over a file after one more of its lines. -/
def walkStep (platform : Platform) (walkEntry : String → Option Block → Walk → Walk × Bool)
    (file : String) (outer : Option Block) (state : Walking) (d : Directive) : Walking :=
  let files := if d.keyword = "include" then includedFiles platform (parent file) d.args else []
  let followed := follow walkEntry (state.own.or outer) files state.walk
  -- The line itself comes behind the lines of the files it includes.
  { walk := followed.1.push ⟨file, d, state.own, outer, followed.2⟩
    own := blockAfter file state.own d }

/-- The walk after a file that is included in a block, and whether the file was read. -/
def walkWithin (platform : Platform) : Nat → String → Option Block → Walk → Walk × Bool
  -- A chain of includes that is too long ends here.
  | 0, _, _, walk => (walk, false)
  | budget + 1, path, outer, walk =>
    if walk.visited.contains (visitKey platform path) then (walk, false)
    else
      let entered := { walk with visited := visitKey platform path :: walk.visited }
      match platform.readToString path with
      -- A file that cannot be read still counts as visited.
      | none => (entered, false)
      | some text =>
        (((tokenize platform text).foldl
          (walkStep platform (walkWithin platform budget) path outer) ⟨entered, none⟩).walk, true)

/-- Every line of a config and of the files it includes. -/
def readings (platform : Platform) (path : String) : List Reading :=
  (walkWithin platform (maxIncludeDepth + 1) path none ⟨[], []⟩).1.readings

/-- Following files is entering them one after the other. -/
theorem follow_fst (walkEntry : String → Option Block → Walk → Walk × Bool)
    (around : Option Block) (files : List String) (walk : Walk) :
    (follow walkEntry around files walk).1 =
      files.foldl (fun reached entry => (walkEntry entry around reached).1) walk := by
  -- Which of the files were refused is written down beside the walk, and does not guide it.
  have general : ∀ (files : List String) (start : Walk × List String),
      (files.foldl (fun reached entry =>
        let next := walkEntry entry around reached.1
        (next.1, if next.2 then reached.2 else reached.2 ++ [entry])) start).1 =
        files.foldl (fun reached entry => (walkEntry entry around reached).1) start.1 := by
    intro files
    induction files with
    | nil => intro start; rfl
    | cons entry rest ih => intro start; rw [List.foldl_cons, List.foldl_cons, ih]
  exact general files (walk, [])

section Warnings

variable (platform : Platform)

/-- What is said of the patterns of an include line that name no file. -/
def unmatched (file base : String) (line : Nat) (patterns : List String) : List Warning :=
  (patterns.filter fun pattern =>
    (globPaths platform (includeTarget platform base pattern)).isEmpty).map
      (.includeUnreadable file line)

/-- What the parse says of a line under its own number. -/
def Reading.warnings (self : Reading) : List Warning :=
  if self.directive.keyword = "host" then []
  else if self.directive.keyword = "match" then
    [.matchUnsupported self.file self.directive.line]
  else if self.directive.keyword = "include" then
    match parent self.file with
    | none =>
      [.includeUnreadable self.file self.directive.line (" ".intercalate self.directive.args)]
    | some base => unmatched platform self.file base self.directive.line self.directive.args
  else
    match self.own with
    | some (.host _) =>
      if understood.contains self.directive.keyword then []
      else [.unsupportedKeyword self.file self.directive.line self.directive.keyword]
    -- The block was reported at its first line, and a line outside all blocks is skipped.
    | some (.match_ _ _) => []
    | none => []

/--
The parse has entered the files of the walk, and its warnings with a line are
those about the walk's lines and some that are still pending.
-/
structure Notes (pending : List Warning) (progress : Progress) (walk : Walk) : Prop where
  visited : progress.visited = walk.visited
  warnings : ∀ warning : Warning, warning.line ≠ 0 →
    (warning ∈ progress.cfg.warnings ↔
      warning ∈ pending ∨ ∃ reading ∈ walk.readings, warning ∈ reading.warnings platform)

/-- The two flags by which a file's reading remembers the block it is in. -/
def standing : Option Block → Bool × Bool
  | none => (false, false)
  | some (.host _) => (false, true)
  | some (.match_ _ _) => (true, false)

variable {platform} {pending : List Warning} {progress : Progress} {walk : Walk}

/-- One more warning is pending at first. -/
theorem Notes.warn (notes : Notes platform pending progress walk) (warning : Warning) :
    Notes platform (pending ++ [warning]) (progress.warn warning) walk := by
  refine ⟨notes.visited, ?_⟩
  intro other numbered
  simp only [Progress.warn, List.mem_append, List.mem_singleton, notes.warnings other numbered]
  -- The new warning is on both sides, and the pending ones keep their place.
  exact or_right_comm

/-- A warning without a line is left out of account. -/
theorem Notes.unnumbered (notes : Notes platform pending progress walk) {warning : Warning}
    (unnumbered : warning.line = 0) : Notes platform pending (progress.warn warning) walk := by
  -- Only warnings that have a line are compared.
  refine ⟨notes.visited, ?_⟩
  intro other numbered
  have different : other ≠ warning := fun same => numbered (same ▸ unnumbered)
  simp only [Progress.warn, List.mem_append, List.mem_singleton, different, or_false]
  exact notes.warnings other numbered

/-- What is said of a line is pending no more once the line is on the walk. -/
theorem Notes.push {reading : Reading}
    (notes : Notes platform (pending ++ reading.warnings platform) progress walk) :
    Notes platform pending progress (walk.push reading) := by
  -- The line brings the warnings with it that were pending on its account.
  refine ⟨notes.visited, ?_⟩
  intro warning numbered
  simp only [notes.warnings warning numbered, Walk.push, List.mem_append, List.mem_singleton,
    or_and_right, exists_or, exists_eq_left]
  exact or_right_comm.trans or_assoc

/-- A line of which nothing is said changes nothing. -/
theorem Notes.quiet (notes : Notes platform pending progress walk) {reading : Reading}
    (silent : reading.warnings platform = []) :
    Notes platform pending progress (walk.push reading) := by
  apply Notes.push
  rw [silent, List.append_nil]
  exact notes

/-- A line of which one thing is said brings one warning. -/
theorem Notes.said (notes : Notes platform pending progress walk) {reading : Reading}
    {warning : Warning} (said : reading.warnings platform = [warning]) :
    Notes platform pending (progress.warn warning) (walk.push reading) := by
  apply Notes.push
  rw [said]
  exact notes.warn warning

/-- Closing the open stanza says nothing. -/
theorem Notes.flushed {state : Absorbing} (notes : Notes platform pending state.progress walk) :
    Notes platform pending state.flushed walk := by
  -- Closing a stanza writes to the stanzas only.
  refine ⟨notes.visited, ?_⟩
  have same : (flush state.current state.progress.cfg).warnings = state.progress.cfg.warnings := by
    unfold flush
    split
    · rfl
    · split <;> rfl
  rw [Absorbing.flushed, same]
  exact notes.warnings

/-- Entering the files an include names leaves pending what is said of its patterns. -/
theorem Notes.includes {parseEntry : String → Progress → Progress}
    {walkEntry : String → Option Block → Walk → Walk × Bool} {around : Option Block}
    (entries : ∀ pending entry progress walk, Notes platform pending progress walk →
      Notes platform pending (parseEntry entry progress) (walkEntry entry around walk).1)
    (base : String) (line : Nat) (file : String) (patterns : List String)
    (notes : Notes platform pending progress walk) :
    Notes platform (pending ++ unmatched platform file base line patterns)
      (patterns.foldl (fun reached pattern =>
        include_ platform parseEntry pattern base line file reached) progress)
      ((includedFiles platform (some base) patterns).foldl
        (fun reached entry => (walkEntry entry around reached).1) walk) := by
  induction patterns generalizing pending progress walk with
  | nil => simpa [unmatched, includedFiles] using notes
  | cons pattern rest ih =>
    -- The files of a line are those of its patterns, one pattern after another.
    have files : includedFiles platform (some base) (pattern :: rest) =
        globPaths platform (includeTarget platform base pattern) ++
          includedFiles platform (some base) rest := List.flatMap_cons
    rw [files, List.foldl_cons, List.foldl_append]
    by_cases missing : globPaths platform (includeTarget platform base pattern) = []
    · -- A pattern without files is warned of, and the walk stands still.
      have said : unmatched platform file base line (pattern :: rest) =
          .includeUnreadable file line pattern :: unmatched platform file base line rest := by
        simp [unmatched, missing]
      have warned : include_ platform parseEntry pattern base line file progress =
          progress.warn (.includeUnreadable file line pattern) := by
        unfold include_
        rw [missing]
      rw [said, warned, missing, List.append_cons, List.foldl_nil]
      exact ih (notes.warn _)
    · have said : unmatched platform file base line (pattern :: rest) =
          unmatched platform file base line rest := by
        simp [unmatched, missing]
      -- A pattern with files enters each of them, and says nothing of its own.
      have entered : include_ platform parseEntry pattern base line file progress =
          (globPaths platform (includeTarget platform base pattern)).foldl
            (fun reached entry => parseEntry entry reached) progress := by
        unfold include_
        split
        · rename_i none
          exact absurd none missing
        · rfl
      rw [said, entered]
      apply ih
      apply List.foldl_rel (r := fun progress walk => Notes platform pending progress walk) notes
      intro entry _ reached walk notes
      exact entries pending entry reached walk notes

/-- One line keeps the reading of a file and the walk over it together. -/
theorem Notes.step {parseEntry : String → Progress → Progress}
    {walkEntry : String → Option Block → Walk → Walk × Bool}
    (entries : ∀ pending entry around progress walk, Notes platform pending progress walk →
      Notes platform pending (parseEntry entry progress) (walkEntry entry around walk).1)
    (file : String) (outer : Option Block) (d : Directive) {state : Absorbing} {walking : Walking}
    (notes : Notes platform pending state.progress walking.walk)
    (stands : (state.inMatch, state.current.isSome) = standing walking.own) :
    let next := absorbStep platform parseEntry file (parent file) state d
    let walked := walkStep platform walkEntry file outer walking d
    Notes platform pending next.progress walked.walk ∧
      (next.inMatch, next.current.isSome) = standing walked.own := by
  -- The cases are those of the keyword, as the parser distinguishes them.
  obtain ⟨progress, current, inMatch⟩ := state
  obtain ⟨walk, own⟩ := walking
  have flushed : Notes platform pending (Absorbing.flushed ⟨progress, current, inMatch⟩) walk :=
    notes.flushed
  by_cases host : d.keyword = "host"
  · simp only [absorbStep, walkStep, follow, blockAfter, host]
    exact ⟨flushed.quiet (by simp [Reading.warnings, host]), rfl⟩
  -- A `Match` line is warned of when it is read.
  by_cases match_ : d.keyword = "match"
  · simp only [absorbStep, walkStep, follow, blockAfter, match_]
    exact ⟨flushed.said (by simp [Reading.warnings, match_]), rfl⟩
  by_cases include_ : d.keyword = "include"
  · simp only [absorbStep, walkStep, if_neg host, if_neg match_, if_pos include_, blockAfter]
    cases directory : parent file with
    -- A config without a directory around it cannot resolve what it includes.
    | none =>
      refine ⟨notes.said ?_, stands⟩
      simp [Reading.warnings, include_, directory]
    | some base =>
      refine ⟨Notes.push ?_, stands⟩
      -- What is said of an include line is said while its files are entered.
      rw [follow_fst]
      have said : Reading.warnings platform ⟨file, d, own, outer,
          (follow walkEntry (own.or outer) (includedFiles platform (some base) d.args) walk).2⟩ =
          unmatched platform file base d.line d.args := by
        simp [Reading.warnings, include_, directory]
      rw [said]
      exact notes.includes (fun pending entry => entries pending entry _) base d.line file d.args
  · simp only [absorbStep, walkStep, follow, if_neg host, if_neg match_, if_neg include_,
      blockAfter, List.foldl_nil]
    -- Only a line below a `Host` can be one that is not understood and said to be so.
    cases own with
    | none =>
      obtain ⟨rfl, unset⟩ := Prod.mk.inj stands
      obtain rfl := Option.isSome_eq_false_iff.mp unset |> Option.isNone_iff_eq_none.mp
      exact ⟨notes.quiet (by simp [Reading.warnings, host, match_, include_]), rfl⟩
    | some block =>
      cases block with
      | match_ file line =>
        obtain ⟨rfl, unset⟩ := Prod.mk.inj stands
        exact ⟨notes.quiet (by simp [Reading.warnings, host, match_, include_]), stands⟩
      | host patterns =>
        obtain ⟨rfl, set⟩ := Prod.mk.inj stands
        obtain ⟨stanza, rfl⟩ := Option.isSome_iff_exists.mp set
        simp only [Bool.false_eq_true, if_false]
        split
        · -- A keyword that is understood is not warned of.
          rename_i known
          exact ⟨notes.quiet (by simp [Reading.warnings, host, match_, include_,
            List.contains_iff_mem.mp known]), rfl⟩
        · rename_i unknown
          exact ⟨notes.said (by simpa [Reading.warnings, host, match_, include_] using unknown),
            rfl⟩

/-- Parsing a file keeps up with the walk over it, whatever is said of lines not on the walk yet. -/
theorem notes_parseWithin (budget : Nat) :
    ∀ pending path outer progress walk, Notes platform pending progress walk →
      Notes platform pending (parseWithin platform budget path progress)
        (walkWithin platform budget path outer walk).1 := by
  -- The induction is on the depth left, and the block around the file stays arbitrary.
  induction budget with
  | zero =>
    intro pending path outer progress walk notes
    exact notes.unnumbered rfl
  | succ budget ih =>
    intro pending path outer progress walk notes
    rw [parseWithin, walkWithin, notes.visited]
    by_cases seen : visitKey platform path ∈ walk.visited
    · -- A file that was visited already is warned of without a line.
      rw [if_pos seen, if_pos (List.contains_iff_mem.mpr seen)]
      exact notes.unnumbered rfl
    · rw [if_neg seen, if_neg (mt List.contains_iff_mem.mp seen)]
      cases platform.readToString path with
      | none => exact ⟨rfl, notes.warnings⟩
      | some text =>
        -- A file that is entered is marked in both, and nothing is said of that.
        have entered : Notes platform pending
            { progress with visited := visitKey platform path :: walk.visited }
            { walk with visited := visitKey platform path :: walk.visited } :=
          ⟨rfl, notes.warnings⟩
        have read := List.foldl_rel (l := tokenize platform text)
          (r := fun (state : Absorbing) (walking : Walking) =>
            Notes platform pending state.progress walking.walk ∧
              (state.inMatch, state.current.isSome) = standing walking.own)
          (a := ⟨{ progress with visited := visitKey platform path :: walk.visited }, none, false⟩)
          (b := ⟨{ walk with visited := visitKey platform path :: walk.visited }, none⟩)
          ⟨entered, rfl⟩
          fun d _ state walking reached => Notes.step ih path outer d reached.1 reached.2
        exact read.1.flushed

/-- The warnings of a parse that have a line are those about its lines. -/
theorem mem_warnings_parseFile {path : String} {warning : Warning} (numbered : warning.line ≠ 0) :
    warning ∈ (parseFile platform path).warnings ↔
      ∃ reading ∈ readings platform path, warning ∈ reading.warnings platform := by
  -- At the end of the walk nothing is pending, so all that was said is on it.
  have notes : Notes platform [] (parseInto platform path 0 ⟨⟨[], []⟩, []⟩)
      (walkWithin platform (maxIncludeDepth + 1) path none ⟨[], []⟩).1 :=
    notes_parseWithin _ [] path none _ _ ⟨rfl, by simp⟩
  have said := notes.warnings warning numbered
  rw [parseFile, readings, said]
  simp only [List.not_mem_nil, false_or]

end Warnings

section Scopes

/-- The patterns that a line's own block is a scope of. -/
def scopeIn : Option Block → Option (List String)
  | some (.host patterns) => scopeOf patterns
  | some (.match_ _ _) => none
  | none => none

/-- The scope that a line opens. -/
def Reading.opens (self : Reading) : Option (List String) :=
  if self.directive.keyword = "host" then scopeOf self.directive.args else none

/-- The line as a setting under the patterns of its block. -/
def Reading.entry (self : Reading) : Option (List String × Setting) :=
  if self.IsSetting then
    (scopeIn self.own).map fun patterns => (patterns, ⟨self.file, self.directive⟩)
  else none

/-- The events of a trail hold the settings and the scopes of a walk's lines. -/
structure Logs (scopes : List (Option (List String))) (trail : Trail) (walk : Walk) : Prop where
  visited : trail.visited = walk.visited
  scopes : trail.state.stack.map Frame.scope = scopes
  entries : ∀ reading ∈ walk.readings, ∀ entry, reading.entry = some entry →
    entry ∈ Nesting.closingOrder trail.state
  opened : ∀ patterns, patterns ∈ Nesting.scopesOf trail.state ↔
    ∃ reading ∈ walk.readings, reading.opens = some patterns

variable {platform : Platform} {scopes : List (Option (List String))} {trail : Trail} {walk : Walk}

/-- A line that is no setting and opens no scope needs no event. -/
theorem Logs.quiet (logs : Logs scopes trail walk) {reading : Reading}
    (bare : reading.entry = none) (closed : reading.opens = none) :
    Logs scopes trail (walk.push reading) := by
  -- The line is on the walk, and neither a setting nor a scope that the trail would show.
  refine ⟨logs.visited, logs.scopes, ?_, ?_⟩
  · intro other member entry held
    rcases List.mem_append.mp member with old | last
    · exact logs.entries other old entry held
    · rw [List.mem_singleton.mp last, bare] at held
      cases held
  · intro patterns
    simp [logs.opened, Walk.push, or_and_right, exists_or, closed]

/-- A change of scope opens the scope that its line opens. -/
theorem Logs.scope {scope : Option (List String)} (logs : Logs (scope :: scopes) trail walk)
    (reading : Reading) (bare : reading.entry = none) :
    Logs (reading.opens :: scopes) (trail.push (.scope reading.opens)) (walk.push reading) := by
  -- The event falls inside a file, so there is a frame whose scope it changes.
  have inside : trail.state.stack ≠ [] := by
    intro outside
    have none := logs.scopes
    rw [outside] at none
    cases none
  refine ⟨logs.visited, ?_, ?_, ?_⟩
  · rw [state_push, Nesting.scopes_step, logs.scopes]
    rfl
  · intro other member entry held
    rw [state_push, Nesting.closingOrder_step _ (by simp)]
    rcases List.mem_append.mp member with old | last
    · exact logs.entries other old entry held
    · rw [List.mem_singleton.mp last, bare] at held
      cases held
  · intro patterns
    rw [state_push, Nesting.mem_scopesOf_step, logs.opened]
    simp [Walk.push, or_and_right, exists_or, inside]

/-- A setting goes under the scope of its block. -/
theorem Logs.setting {own : Option Block} (logs : Logs (scopeIn own :: scopes) trail walk)
    (reading : Reading) (placed : reading.own = own) (setting : reading.IsSetting) :
    Logs (scopeIn own :: scopes) (trail.push (.item ⟨reading.file, reading.directive⟩))
      (walk.push reading) := by
  refine ⟨logs.visited, ?_, ?_, ?_⟩
  · rw [state_push, Nesting.scopes_step, logs.scopes]
    rfl
  · intro other member entry held
    rw [state_push, Nesting.mem_closingOrder_item]
    rcases List.mem_append.mp member with old | last
    · exact .inl (logs.entries other old entry held)
    · rw [List.mem_singleton.mp last, Reading.entry, if_pos setting, placed] at held
      -- The scope on top of the stack is the one of the block the line stands in.
      obtain ⟨patterns, scope, rfl⟩ := Option.map_eq_some_iff.mp held
      right
      rw [logs.scopes, scope]
      exact List.mem_singleton_self _
  · intro patterns
    have closed : reading.opens = none := if_neg setting.1
    rw [state_push, Nesting.mem_scopesOf_step, logs.opened]
    simp [Walk.push, or_and_right, exists_or, closed]

variable (platform) in
/-- One line keeps the trail of a file's events and the walk over it together. -/
theorem Logs.step {expandEntry : String → Trail → Trail}
    {walkEntry : String → Option Block → Walk → Walk × Bool}
    (entries : ∀ scopes entry around trail walk, Logs scopes trail walk →
      Logs scopes (expandEntry entry trail) (walkEntry entry around walk).1)
    (file : String) (outer : Option Block) (d : Directive) {walking : Walking}
    (logs : Logs (scopeIn walking.own :: scopes) trail walking.walk) :
    Logs (scopeIn (walkStep platform walkEntry file outer walking d).own :: scopes)
      (expandStep platform expandEntry file trail d)
      (walkStep platform walkEntry file outer walking d).walk := by
  obtain ⟨walk, own⟩ := walking
  -- The four kinds of line are those that the parser tells apart.
  by_cases host : d.keyword = "host"
  · have opens : Reading.opens ⟨file, d, own, outer, []⟩ = scopeOf d.args := if_pos host
    have next := logs.scope ⟨file, d, own, outer, []⟩
      (if_neg fun setting => setting.1 host)
    rw [opens] at next
    simpa [expandStep, walkStep, follow, blockAfter, host, scopeIn] using next
  by_cases match_ : d.keyword = "match"
  · have opens : Reading.opens ⟨file, d, own, outer, []⟩ = none := if_neg host
    have next := logs.scope ⟨file, d, own, outer, []⟩
      (if_neg fun setting => setting.2.1 match_)
    rw [opens] at next
    simpa [expandStep, walkStep, follow, blockAfter, match_, scopeIn] using next
  by_cases include_ : d.keyword = "include"
  · simp only [expandStep, walkStep, if_neg host, if_neg match_, if_pos include_, blockAfter]
    apply Logs.quiet
    · rw [follow_fst]
      apply List.foldl_rel (r := fun trail walk => Logs (scopeIn own :: scopes) trail walk) logs
      intro entry _ trail walk logs
      exact entries _ entry _ trail walk logs
    · exact if_neg fun setting => setting.2.2 include_
    · exact if_neg host
  · -- A setting is logged under the scope that stands.
    have next := logs.setting ⟨file, d, own, outer, []⟩ rfl ⟨host, match_, include_⟩
    simpa [expandStep, walkStep, follow, blockAfter, host, match_, include_] using next

/-- Writing a file out keeps up with the walk over it. -/
theorem logs_walkWithin (budget : Nat) :
    ∀ scopes path outer trail walk, Logs scopes trail walk →
      Logs scopes (expandWithin platform budget path trail)
        (walkWithin platform budget path outer walk).1 := by
  -- A file is bracketed by two events, between which its own scope is on top.
  induction budget with
  | zero =>
    intro scopes path outer trail walk logs
    exact logs
  | succ budget ih =>
    intro scopes path outer trail walk logs
    rw [expandWithin, walkWithin, logs.visited]
    by_cases seen : visitKey platform path ∈ walk.visited
    · rw [if_pos (List.contains_iff_mem.mpr seen), if_pos (List.contains_iff_mem.mpr seen)]
      exact logs
    · rw [if_neg (mt List.contains_iff_mem.mp seen), if_neg (mt List.contains_iff_mem.mp seen)]
      cases platform.readToString path with
      | none => exact ⟨rfl, logs.scopes, logs.entries, logs.opened⟩
      | some text =>
        let entered : Trail := { trail with visited := visitKey platform path :: walk.visited }
        -- Entering the file puts an empty scope on top of those around it.
        have opened : (entered.push .enter).state = Nesting.step trail.state .enter :=
          state_push entered .enter
        have start : Logs (scopeIn none :: scopes) (entered.push .enter)
            { walk with visited := visitKey platform path :: walk.visited } := by
          refine ⟨rfl, ?_, ?_, ?_⟩
          · rw [opened, Nesting.scopes_step, logs.scopes]
            rfl
          · rw [opened, Nesting.closingOrder_step _ (by simp)]
            exact logs.entries
          · intro patterns
            rw [opened, Nesting.mem_scopesOf_step, logs.opened]
            simp
        have read := List.foldl_rel (l := tokenize platform text)
          (r := fun (trail : Trail) (walking : Walking) =>
            Logs (scopeIn walking.own :: scopes) trail walking.walk)
          (b := ⟨{ walk with visited := visitKey platform path :: walk.visited }, none⟩) start
          fun d _ trail walking reached => Logs.step platform ih path outer d reached
        -- Leaving it takes that scope off again.
        refine ⟨read.visited, ?_, ?_, ?_⟩
        · rw [state_push, Nesting.scopes_step, read.scopes]
          rfl
        · rw [state_push, Nesting.closingOrder_step _ (by simp)]
          exact read.entries
        · intro patterns
          rw [state_push, Nesting.mem_scopesOf_step, read.opened]
          simp

/-- The trail of a config holds what the walk over it does. -/
theorem logs_readings (path : String) :
    Logs [] (expandWithin platform (maxIncludeDepth + 1) path ⟨[], []⟩)
      (walkWithin platform (maxIncludeDepth + 1) path none ⟨[], []⟩).1 :=
  logs_walkWithin _ [] path none _ _ ⟨rfl, rfl, by simp, by simp [Trail.state, Nesting.run,
    Nesting.scopesOf]⟩

/-- A setting under patterns is one of a block of the config. -/
theorem entry_mem_blocks {path : String} {reading : Reading}
    (member : reading ∈ readings platform path) {entry : List String × Setting}
    (held : reading.entry = some entry) : entry ∈ Nesting.entriesOf (blocks platform path) := by
  rw [← closingOrder_expand]
  exact (logs_readings path).entries reading member entry held

/-- The patterns of the stanzas are those of the `Host` lines that have some. -/
theorem mem_patterns_parseFile {path : String} {patterns : List String} :
    (∃ stanza ∈ (parseFile platform path).stanzas, stanza.patterns = patterns) ↔
      ∃ reading ∈ readings platform path, reading.opens = some patterns := by
  -- All frames are closed in the end, so every scope that was opened is a block.
  have ended : (Nesting.run ⟨[], []⟩ (expand platform path)).stack = [] :=
    (tracks_parseFile path).stack
  have all : Nesting.scopesOf (Nesting.run ⟨[], []⟩ (expand platform path)) =
      (blocks platform path).map Prod.fst := by
    rw [Nesting.scopesOf, ended, List.flatMap_nil, List.append_nil, blocks]
  rw [readings, ← (logs_readings path).opened patterns]
  change _ ↔ patterns ∈ Nesting.scopesOf (Nesting.run ⟨[], []⟩ (expand platform path))
  rw [all, stanzas_parseFile]
  simp [patterns_stanzaOf]

end Scopes

section Places

variable (platform : Platform)

/-- A line stands in its file, in the block that the lines above it there have opened. -/
def Stands (reading : Reading) : Prop :=
  ∃ text before after, platform.readToString reading.file = some text ∧
    tokenize platform text = before ++ reading.directive :: after ∧
    reading.own = before.foldl (blockAfter reading.file) none

/-- All lines of a file are among the given ones. -/
def ReadsAll (lines : List Reading) (path : String) : Prop :=
  ∃ text, platform.readToString path = some text ∧
    ∀ d ∈ tokenize platform text, ∃ reading ∈ lines, reading.file = path ∧ reading.directive = d

/-- The `Match` line of a block is among the given ones. -/
def Grounded (lines : List Reading) (block : Option Block) : Prop :=
  ∀ file line, block = some (.match_ file line) →
    ∃ reading ∈ lines, reading.file = file ∧ reading.directive.keyword = "match" ∧
      reading.directive.line = line

/-- What the given lines say of themselves is so. -/
structure Sound (lines : List Reading) : Prop where
  stands : ∀ reading ∈ lines, Stands platform reading
  grounded : ∀ reading ∈ lines, Grounded lines reading.block
  followed : ∀ reading ∈ lines, reading.directive.keyword = "include" →
    ∀ entry ∈ includedFiles platform (parent reading.file) reading.directive.args,
      entry ∉ reading.missed → ReadsAll platform lines entry

/-- A walk has come across further lines, and what they say of themselves is so. -/
structure Advances (before after : Walk) : Prop where
  grows : before.readings ⊆ after.readings
  sound : Sound platform after.readings

variable {platform} {lines more : List Reading}

/-- More lines hold all that fewer did. -/
theorem ReadsAll.mono {path : String} (all : ReadsAll platform lines path) (grows : lines ⊆ more) :
    ReadsAll platform more path := by
  -- The lines of the file are still among them.
  obtain ⟨text, readable, read⟩ := all
  refine ⟨text, readable, ?_⟩
  intro d member
  obtain ⟨reading, among, here⟩ := read d member
  exact ⟨reading, grows among, here⟩

/-- More lines ground what fewer did. -/
theorem Grounded.mono {block : Option Block} (grounded : Grounded lines block)
    (grows : lines ⊆ more) : Grounded more block := by
  intro file line standing
  obtain ⟨reading, among, here⟩ := grounded file line standing
  exact ⟨reading, grows among, here⟩

/-- A block of a file is opened by one of the file's own lines. -/
theorem match_of_blockAfter {path file : String} {line : Nat} {before : List Directive}
    (opened : before.foldl (blockAfter path) none = some (.match_ file line)) :
    file = path ∧ ∃ d ∈ before, d.keyword = "match" ∧ d.line = line := by
  -- The last line of the kind decides, so the induction takes lines off the end.
  induction before using List.reverseRecOn with
  | nil => cases opened
  | append_singleton before d ih =>
    rw [List.foldl_append, List.foldl_cons, List.foldl_nil, blockAfter] at opened
    split at opened
    · cases opened
    split at opened
    · rename_i match_
      cases opened
      exact ⟨rfl, d, by simp, match_, rfl⟩
    · obtain ⟨same, other, member, here⟩ := ih opened
      exact ⟨same, other, List.mem_append_left _ member, here⟩

/-- One more line that stands where it says is as sound as the ones before it. -/
theorem Sound.push {walk : Walk} {reading : Reading} (sound : Sound platform walk.readings)
    (stands : Stands platform reading) (grounded : Grounded walk.readings reading.block)
    (followed : reading.directive.keyword = "include" →
      ∀ entry ∈ includedFiles platform (parent reading.file) reading.directive.args,
        entry ∉ reading.missed → ReadsAll platform walk.readings entry) :
    Sound platform (walk.push reading).readings := by
  have grows : walk.readings ⊆ (walk.push reading).readings := List.subset_append_left _ _
  -- All three facts survive when lines are added, so only the last line is new.
  refine ⟨?_, ?_, ?_⟩
  · intro other member
    rcases List.mem_append.mp member with old | last
    · exact sound.stands other old
    · rw [List.mem_singleton.mp last]
      exact stands
  · intro other member
    rcases List.mem_append.mp member with old | last
    · exact (sound.grounded other old).mono grows
    · rw [List.mem_singleton.mp last]
      exact grounded.mono grows
  · intro other member include_ entry named kept
    rcases List.mem_append.mp member with old | last
    · exact (sound.followed other old include_ entry named kept).mono grows
    · rw [List.mem_singleton.mp last] at include_ named kept
      exact (followed include_ entry named kept).mono grows

/-- Of the files followed, those that are not missed are read from end to end. -/
theorem advances_follow {walkEntry : String → Option Block → Walk → Walk × Bool}
    {around : Option Block}
    (entries : ∀ entry walk, Grounded walk.readings around → Sound platform walk.readings →
      Advances platform walk (walkEntry entry around walk).1 ∧
        ((walkEntry entry around walk).2 = true →
          ReadsAll platform (walkEntry entry around walk).1.readings entry))
    (files : List String) {walk : Walk} (grounded : Grounded walk.readings around)
    (sound : Sound platform walk.readings) :
    Advances platform walk (follow walkEntry around files walk).1 ∧
      ∀ entry ∈ files, entry ∉ (follow walkEntry around files walk).2 →
        ReadsAll platform (follow walkEntry around files walk).1.readings entry := by
  -- The files missed so far accumulate, and one missed once stays missed.
  have general : ∀ (files : List String) (start : Walk × List String),
      Grounded start.1.readings around → Sound platform start.1.readings →
      let reached := files.foldl (fun reached entry =>
        let next := walkEntry entry around reached.1
        (next.1, if next.2 then reached.2 else reached.2 ++ [entry])) start
      Advances platform start.1 reached.1 ∧ start.2 ⊆ reached.2 ∧
        ∀ entry ∈ files, entry ∉ reached.2 → ReadsAll platform reached.1.readings entry := by
    intro files
    induction files with
    | nil =>
      intro start _ sound
      exact ⟨⟨List.Subset.refl _, sound⟩, List.Subset.refl _, by simp⟩
    | cons entry rest ih =>
      intro start grounded sound
      -- The first file is read, and the others are read behind it.
      obtain ⟨first, whole⟩ := entries entry start.1 grounded sound
      obtain ⟨later, missed, read⟩ := ih
        ((walkEntry entry around start.1).1, if (walkEntry entry around start.1).2 then start.2
          else start.2 ++ [entry]) (grounded.mono first.grows) first.sound
      refine ⟨⟨List.Subset.trans first.grows later.grows, later.sound⟩, ?_, ?_⟩
      · refine List.Subset.trans ?_ missed
        split
        · exact List.Subset.refl _
        · exact List.subset_append_left _ _
      · intro other member kept
        rcases List.mem_cons.mp member with rfl | member
        · apply ReadsAll.mono _ later.grows
          apply whole
          -- A file that was not read is added to the missed ones, and stays there.
          by_contra unread
          apply kept
          apply missed
          simp [unread]
        · exact read other member kept
  obtain ⟨advances, _, read⟩ := general files (walk, []) grounded sound
  exact ⟨advances, read⟩

variable (platform) in
/-- The walk over a file has come across its first lines, and nothing unsound. -/
structure Covers (path : String) (start : Walk) (before : List Directive) (walking : Walking) :
    Prop where
  advances : Advances platform start walking.walk
  own : walking.own = before.foldl (blockAfter path) none
  read : ∀ d ∈ before, ∃ reading ∈ walking.walk.readings,
    reading.file = path ∧ reading.directive = d

/-- One more line of a file is covered where it stands. -/
theorem Covers.step {path text : String} {outer : Option Block} {start : Walk}
    {before after : List Directive} {d : Directive} {walking : Walking}
    {walkEntry : String → Option Block → Walk → Walk × Bool}
    (entries : ∀ entry around walk, Grounded walk.readings around →
      Sound platform walk.readings →
      Advances platform walk (walkEntry entry around walk).1 ∧
        ((walkEntry entry around walk).2 = true →
          ReadsAll platform (walkEntry entry around walk).1.readings entry))
    (readable : platform.readToString path = some text)
    (split : tokenize platform text = before ++ d :: after)
    (grounded : Grounded start.readings outer)
    (covers : Covers platform path start before walking) :
    Covers platform path start (before ++ [d])
      (walkStep platform walkEntry path outer walking d) := by
  obtain ⟨walk, own⟩ := walking
  obtain ⟨⟨grows, sound⟩, rfl, read⟩ := covers
  -- A block of this file is opened by a line that was come across before.
  have around : Grounded walk.readings ((before.foldl (blockAfter path) none).or outer) := by
    intro file line standing
    cases opened : before.foldl (blockAfter path) none with
    | none =>
      rw [opened, Option.none_or] at standing
      exact grounded.mono grows file line standing
    | some block =>
      rw [opened, Option.some_or] at standing
      rw [standing] at opened
      obtain ⟨rfl, other, member, keyword, number⟩ := match_of_blockAfter opened
      obtain ⟨reading, among, here, same⟩ := read other member
      exact ⟨reading, among, here, same ▸ keyword, same ▸ number⟩
  -- Only an include line follows files, each of which is read in that block.
  obtain ⟨advances, whole⟩ := advances_follow (fun entry => entries entry _)
    (if d.keyword = "include" then includedFiles platform (parent path) d.args else []) around sound
  refine ⟨⟨?_, ?_⟩, ?_, ?_⟩
  · exact List.Subset.trans (List.Subset.trans grows advances.grows) (List.subset_append_left _ _)
  · apply advances.sound.push
    · exact ⟨text, before, after, readable, split, rfl⟩
    · exact around.mono advances.grows
    · intro include_ entry named kept
      have line : d.keyword = "include" := include_
      rw [if_pos line] at whole
      simp only [if_pos line] at kept ⊢
      exact whole entry named kept
  · simp [walkStep, List.foldl_append]
  · intro other member
    rcases List.mem_append.mp member with old | last
    · -- What was read before is still among the readings.
      obtain ⟨reading, among, here⟩ := read other old
      exact ⟨reading, List.mem_append_left _ (advances.grows among), here⟩
    · exact ⟨_, List.mem_append_right _ (List.mem_singleton_self _), rfl,
        (List.mem_singleton.mp last).symm⟩

/-- The rest of a file is covered line by line. -/
theorem Covers.run {path text : String} {outer : Option Block} {start : Walk}
    {walkEntry : String → Option Block → Walk → Walk × Bool}
    (entries : ∀ entry around walk, Grounded walk.readings around →
      Sound platform walk.readings →
      Advances platform walk (walkEntry entry around walk).1 ∧
        ((walkEntry entry around walk).2 = true →
          ReadsAll platform (walkEntry entry around walk).1.readings entry))
    (readable : platform.readToString path = some text) (grounded : Grounded start.readings outer)
    (rest : List Directive) :
    ∀ before walking, tokenize platform text = before ++ rest →
      Covers platform path start before walking →
      Covers platform path start (tokenize platform text)
        (rest.foldl (walkStep platform walkEntry path outer) walking) := by
  -- The lines covered grow at one end while the rest shrinks at the other.
  induction rest with
  | nil =>
    intro before walking split covers
    rw [split, List.append_nil]
    exact covers
  | cons d rest ih =>
    intro before walking split covers
    rw [List.foldl_cons]
    apply ih (before ++ [d]) _ (by rw [split, List.append_cons])
    exact covers.step entries readable split grounded

/-- The walk over a file adds sound lines, and all of the file's own if it was read. -/
theorem advances_walkWithin (budget : Nat) :
    ∀ path outer walk, Grounded walk.readings outer → Sound platform walk.readings →
      Advances platform walk (walkWithin platform budget path outer walk).1 ∧
        ((walkWithin platform budget path outer walk).2 = true →
          ReadsAll platform (walkWithin platform budget path outer walk).1.readings path) := by
  -- A file is refused, cannot be read, or is walked over line by line.
  induction budget with
  | zero =>
    intro path outer walk _ sound
    exact ⟨⟨List.Subset.refl _, sound⟩, nofun⟩
  | succ budget ih =>
    intro path outer walk grounded sound
    rw [walkWithin]
    split
    · exact ⟨⟨List.Subset.refl _, sound⟩, nofun⟩
    cases readable : platform.readToString path with
    | none => exact ⟨⟨List.Subset.refl _, sound⟩, nofun⟩
    | some text =>
      have covers := Covers.run ih readable grounded (tokenize platform text) []
        ⟨{ walk with visited := visitKey platform path :: walk.visited }, none⟩ rfl
        ⟨⟨List.Subset.refl _, sound⟩, rfl, by simp⟩
      exact ⟨covers.advances, fun _ => ⟨text, readable, covers.read⟩⟩

variable (platform) in
/-- The lines of a config stand where they say, and no line of it is left out. -/
theorem sound_readings (path : String) :
    Sound platform (readings platform path) ∧
      ((platform.readToString path).isSome → ReadsAll platform (readings platform path) path) := by
  -- Before the first file there is no line to be wrong about.
  have empty : Sound platform [] := ⟨by simp, by simp, by simp⟩
  obtain ⟨advances, whole⟩ := advances_walkWithin (maxIncludeDepth + 1) path none ⟨[], []⟩
    nofun empty
  refine ⟨advances.sound, ?_⟩
  intro readable
  apply whole
  obtain ⟨text, found⟩ := Option.isSome_iff_exists.mp readable
  rw [walkWithin, found]
  rfl

/-- In an ordered list, an element's number tells what comes before it. -/
theorem prefix_of_line {before others after rest : List Directive} {d other : Directive}
    (ordered : (before ++ d :: after).Pairwise (fun early late => early.line < late.line))
    (split : before ++ d :: after = others ++ other :: rest) (number : d.line = other.line) :
    before = others ∧ d = other := by
  induction before generalizing others with
  | nil =>
    cases others with
    | nil => exact ⟨rfl, (List.cons.inj split).1⟩
    | cons first others =>
      -- The other one would come later, and so bear a higher number.
      obtain ⟨rfl, same⟩ := List.cons.inj split
      have below := (List.pairwise_cons.mp ordered).1 other (by rw [same]; simp)
      omega
  | cons first before ih =>
    obtain ⟨above, ordered⟩ := List.pairwise_cons.mp ordered
    cases others with
    | nil =>
      obtain ⟨rfl, same⟩ := List.cons.inj split
      -- The other way round, this one would come later.
      have below := above d (by simp)
      omega
    | cons first others =>
      obtain ⟨rfl, same⟩ := List.cons.inj split
      obtain ⟨rfl, equal⟩ := ih ordered same
      exact ⟨rfl, equal⟩

/-- A line is known by its file and its number. -/
theorem Stands.unique {reading other : Reading} (stands : Stands platform reading)
    (also_ : Stands platform other) (file : reading.file = other.file)
    (number : reading.directive.line = other.directive.line) :
    reading.directive = other.directive ∧ reading.own = other.own := by
  obtain ⟨text, before, after, readable, split, own⟩ := stands
  obtain ⟨same, others, rest, readable', split', own'⟩ := also_
  rw [file, readable', Option.some.injEq] at readable
  rw [readable] at split'
  -- Within a file no two lines have the same number.
  have ordered := (pairwise_tokenizeFrom platform (Text.lines text) 1).1
  rw [← tokenize, split] at ordered
  obtain ⟨rfl, equal⟩ := prefix_of_line ordered (split.symm.trans split') number
  exact ⟨equal, by rw [own, own', file]⟩

/-- Lines are counted from one. -/
theorem Stands.numbered {reading : Reading} (stands : Stands platform reading) :
    reading.directive.line ≠ 0 := by
  -- The count starts at one and only goes up.
  obtain ⟨text, before, after, _, split, _⟩ := stands
  have member : reading.directive ∈ tokenizeFrom platform 1 (Text.lines text) := by
    rw [← tokenize, split]
    simp
  have := (pairwise_tokenizeFrom platform (Text.lines text) 1).2 reading.directive member
  omega

/-- What the parse says of a line names the line. -/
theorem named_of_mem_warnings {reading : Reading} {warning : Warning}
    (said : warning ∈ reading.warnings platform) :
    warning.file = reading.file ∧ warning.line = reading.directive.line := by
  -- Every arm that warns puts the file and the number of its own line into the warning.
  unfold Reading.warnings at said
  split at said
  · cases said
  split at said
  · rw [List.mem_singleton.mp said]
    exact ⟨rfl, rfl⟩
  split at said
  · split at said
    · rw [List.mem_singleton.mp said]
      exact ⟨rfl, rfl⟩
    · -- There may be several warnings of an include line, one for each pattern.
      obtain ⟨pattern, _, rfl⟩ := List.mem_map.mp said
      exact ⟨rfl, rfl⟩
  split at said
  · split at said
    · cases said
    · rw [List.mem_singleton.mp said]
      exact ⟨rfl, rfl⟩
  · cases said
  · cases said

/-- A line is named by a warning exactly when the parse says something of it. -/
theorem named_iff {path : String} {reading : Reading}
    (member : reading ∈ readings platform path) :
    (∃ warning ∈ (parseFile platform path).warnings,
        warning.file = reading.file ∧ warning.line = reading.directive.line) ↔
      reading.warnings platform ≠ [] := by
  obtain ⟨sound, _⟩ := sound_readings platform path
  have stands := sound.stands reading member
  constructor
  · rintro ⟨warning, warned, file, number⟩
    -- Warnings without a line are about whole files, and lines count from one.
    have numbered : warning.line ≠ 0 := by rw [number]; exact stands.numbered
    obtain ⟨other, among, said⟩ := (mem_warnings_parseFile numbered).mp warned
    obtain ⟨otherFile, otherNumber⟩ := named_of_mem_warnings said
    obtain ⟨directive, own⟩ := stands.unique (sound.stands other among)
      (file.symm.trans otherFile) (number.symm.trans otherNumber)
    -- What is said of a line depends on nothing else that was recorded of it.
    have same : reading.warnings platform = other.warnings platform := by
      simp only [Reading.warnings, directive, own, file.symm.trans otherFile]
    rw [same]
    exact List.ne_nil_of_mem said
  · intro something
    obtain ⟨warning, said⟩ := List.exists_mem_of_ne_nil _ something
    obtain ⟨file, number⟩ := named_of_mem_warnings said
    have numbered : warning.line ≠ 0 := by rw [number]; exact stands.numbered
    exact ⟨warning, (mem_warnings_parseFile numbered).mpr ⟨reading, member, said⟩, file, number⟩

end Places

end Tern.SshConfig
