import Mathlib.Data.List.Nodup
import Tern.SshConfig.Parse

/-! The inclusions of a parse: which of them are taken, how deep they nest, and what a refusal
says. -/

namespace Tern.SshConfig

section Simulation

variable {α σ τ : Type*}

/-- A loop whose every step comes to an end beside a plain step does so as a whole. -/
theorem foldlM_simulates (related : σ → τ → Prop) (step : σ → α → Option σ) (plain : τ → α → τ)
    (one : ∀ {left : σ} {right : τ}, related left right → ∀ item,
      ∃ next, step left item = some next ∧ related next (plain right item))
    (items : List α) {left : σ} {right : τ} (start : related left right) :
    ∃ final, items.foldlM step left = some final ∧ related final (items.foldl plain right) := by
  -- The relation is handed from step to step, and no step comes to no end.
  induction items generalizing left right with
  | nil => exact ⟨left, rfl, start⟩
  | cons item rest ih =>
    obtain ⟨next, taken, onward⟩ := one start item
    obtain ⟨final, ran, reached⟩ := ih onward
    refine ⟨final, ?_, reached⟩
    rw [List.foldlM_cons, taken]
    exact ran

end Simulation

section Calls

/-- What became of a call that parses a file. -/
inductive Outcome where
  /-- The file was too deep or seen before, and the call said so. -/
  | refused
  /-- The file was entered and could not be read. -/
  | unreadable
  /-- The file's directives were absorbed. -/
  | absorbed
  deriving DecidableEq, Repr

/-- One call that parses a file, at its depth. -/
structure Call where
  path : String
  depth : Nat
  outcome : Outcome
  deriving DecidableEq, Repr

/-- A value that a parse works on, with the calls made up to it. -/
structure Logged (α : Type) where
  value : α
  calls : List Call

/-- The value is replaced, and the calls are kept. -/
def Logged.map {α β : Type} (self : Logged α) (change : α → β) : Logged β :=
  ⟨change self.value, self.calls⟩

/-- One more call is written down next to what it makes of the progress. -/
def Logged.log (self : Logged Progress) (call : Call) (progress : Progress) : Logged Progress :=
  ⟨progress, self.calls ++ [call]⟩

variable (platform : Platform) (enter : String → Logged Progress → Option (Logged Progress))

/-- Enter the files that one include pattern names, one after another. -/
def includeLogged (pattern base : String) (line : Nat) (file : String)
    (logged : Logged Progress) : Option (Logged Progress) :=
  match globPaths platform (includeTarget platform base pattern) with
  | [] => some (logged.map (·.warn (.includeUnreadable file line pattern)))
  | entries => entries.foldlM (fun reached entry => enter entry reached) logged

/-- The reading of a file after one more directive, where only an include makes calls. -/
def absorbStepLogged (file : String) (base : Option String) (state : Logged Absorbing)
    (d : Directive) : Option (Logged Absorbing) :=
  -- Without a directory an include is reported, and every other directive stays in its file.
  let alone := state.map fun value =>
    absorbStep platform (fun _ reached => reached) file base value d
  match base with
  | none => some alone
  | some base =>
    if d.keyword = "include" then
      (d.args.foldlM
        (fun reached pattern => includeLogged platform enter pattern base d.line file reached)
        (state.map Absorbing.progress)).map fun reached =>
          reached.map fun progress => { state.value with progress }
    else some alone

/-- Absorb all directives of one file. -/
def absorbLogged (directives : List Directive) (file : String) (base : Option String)
    (logged : Logged Progress) : Option (Logged Progress) :=
  (directives.foldlM (absorbStepLogged platform enter file base)
    (logged.map fun progress => ⟨progress, none, false⟩)).map fun state =>
      state.map Absorbing.flushed

end Calls

section Parsing

/-- Two keys are told apart by their components. -/
local instance : LawfulBEq (List Component) := inferInstance

/--
Parse a file at a depth, with what is left of the stack that the calls need.

The result is missing when the stack does not suffice.
-/
def parseLogged (platform : Platform) :
    Nat → String → Nat → Logged Progress → Option (Logged Progress)
  | 0, _, _, _ => none
  | stack + 1, path, depth, logged =>
    let progress := logged.value
    if maxIncludeDepth < depth ∨ visitKey platform path ∈ progress.visited then
      some (logged.log ⟨path, depth, .refused⟩ (progress.warn (.includeCycle path 0)))
    else
      let entered := { progress with visited := visitKey platform path :: progress.visited }
      match platform.readToString path with
      | none => some (logged.log ⟨path, depth, .unreadable⟩ entered)
      | some text =>
        absorbLogged platform (fun entry => parseLogged platform stack entry (depth + 1))
          (tokenize platform text) path (parent path)
          (logged.log ⟨path, depth, .absorbed⟩ entered)

end Parsing

section Accounts

variable {platform : Platform}

/-- The call said that its file was too deep or seen before. -/
def Call.isRefused (call : Call) : Bool := call.outcome == .refused

/-- The call absorbed the directives of its file. -/
def Call.isAbsorbed (call : Call) : Bool := call.outcome == .absorbed

/-- The files that some calls have entered, under the names they are remembered by. -/
def enteredKeys (platform : Platform) (calls : List Call) : List (List Component) :=
  (calls.filter fun call => !call.isRefused).map fun call => visitKey platform call.path

/-- What a refusal says. -/
def Call.warning (call : Call) : Warning := .includeCycle call.path 0

/-- The warning is one of those that a refusal says. -/
def Warning.isIncludeCycle : Warning → Bool
  | .includeCycle _ _ => true
  | _ => false

/-- A call is refused exactly when it is too deep or its file was entered by an earlier call. -/
def Decided (platform : Platform) (calls : List Call) : Prop :=
  ∀ before call after, calls = before ++ call :: after →
    (call.outcome = .refused ↔
      maxIncludeDepth < call.depth ∨ visitKey platform call.path ∈ enteredKeys platform before)

/-- The calls made so far tally with the files that were entered and with what was refused. -/
structure Tallied (platform : Platform) (progress : Progress) (calls : List Call) : Prop where
  visited : ∀ key, key ∈ progress.visited ↔ key ∈ enteredKeys platform calls
  warned : progress.cfg.warnings.filter Warning.isIncludeCycle =
    (calls.filter Call.isRefused).map Call.warning
  decided : Decided platform calls

variable {progress : Progress} {calls : List Call} {call : Call}

/-- One more call is decided by the calls before it. -/
theorem Decided.concat (decided : Decided platform calls)
    (last : call.outcome = .refused ↔
      maxIncludeDepth < call.depth ∨ visitKey platform call.path ∈ enteredKeys platform calls) :
    Decided platform (calls ++ [call]) := by
  intro before other after place
  -- Either the call is the new one, or it is one of those that were there.
  rcases List.eq_nil_or_concat after with rfl | ⟨inner, final, rfl⟩
  · obtain ⟨rfl, same⟩ := List.append_inj' place rfl
    cases same
    exact last
  · rw [List.concat_eq_append, ← List.cons_append, ← List.append_assoc] at place
    exact decided before other inner (List.append_inj' place rfl).1

/-- One more call enters its file unless it is refused. -/
theorem enteredKeys_concat (calls : List Call) (call : Call) :
    enteredKeys platform (calls ++ [call]) =
      enteredKeys platform calls ++
        if call.isRefused then [] else [visitKey platform call.path] := by
  rw [enteredKeys, List.filter_append, List.map_append]
  cases refused : call.isRefused with
  | true => simp [refused, enteredKeys]
  | false => simp [refused, enteredKeys]

/-- No file is entered twice. -/
theorem Decided.nodup (decided : Decided platform calls) : (enteredKeys platform calls).Nodup := by
  -- The induction is on the calls from the last one on, which entered no file of an earlier one.
  induction calls using List.reverseRecOn with
  | nil => exact List.nodup_nil
  | append_singleton calls call ih =>
    have earlier : Decided platform calls := by
      intro before other after place
      exact decided before other (after ++ [call]) (by rw [place]; simp)
    rw [enteredKeys_concat]
    split
    · rw [List.append_nil]
      exact ih earlier
    · next taken =>
      rw [← List.concat_eq_append]
      apply List.Nodup.concat _ (ih earlier)
      intro seen
      have refused := (decided calls call [] rfl).mpr (.inr seen)
      exact taken (beq_iff_eq.mpr refused)

/-- What a parse gathers besides the warnings of its refusals leaves the tally as it is. -/
theorem Tallied.same {next : Progress} (tallied : Tallied platform progress calls)
    (visited : next.visited = progress.visited)
    (warned : next.cfg.warnings.filter Warning.isIncludeCycle =
      progress.cfg.warnings.filter Warning.isIncludeCycle) : Tallied platform next calls :=
  ⟨visited ▸ tallied.visited, warned.trans tallied.warned, tallied.decided⟩

/-- A warning of another kind leaves the tally as it is. -/
theorem Tallied.warn {warning : Warning} (tallied : Tallied platform progress calls)
    (other : warning.isIncludeCycle = false) :
    Tallied platform (progress.warn warning) calls := by
  refine tallied.same (show (progress.warn warning).visited = progress.visited from rfl) ?_
  rw [Progress.warn, List.filter_append, List.filter_cons_of_neg (by simp [other]),
    List.filter_nil, List.append_nil]

/-- Closing a stanza leaves the tally as it is. -/
theorem Tallied.flushed {state : Absorbing} (tallied : Tallied platform state.progress calls) :
    Tallied platform state.flushed calls := by
  -- A tally is about the files that were entered and the warnings, and neither changes.
  refine tallied.same (show state.flushed.visited = state.progress.visited from rfl) ?_
  unfold Absorbing.flushed flush
  split
  · rfl
  · split
    · rfl
    · rfl

/-- A directive that includes nothing leaves the tally as it is. -/
theorem Tallied.absorbStep {state : Absorbing} {file : String} {base : Option String}
    {d : Directive} (tallied : Tallied platform state.progress calls)
    (alone : base = none ∨ d.keyword ≠ "include") (parseEntry : String → Progress → Progress) :
    Tallied platform (SshConfig.absorbStep platform parseEntry file base state d).progress
      calls := by
  -- Each arm of the parser either says something with a line number or leaves the tally alone.
  unfold SshConfig.absorbStep
  split
  · exact tallied.flushed
  split
  · exact tallied.flushed.warn rfl
  split
  · next isInclude =>
    obtain rfl := alone.resolve_right (not_not.mpr isInclude)
    exact tallied.warn rfl
  split
  · exact tallied
  split
  · exact tallied
  · split
    · exact tallied
    · exact tallied.warn rfl

/-- A file that is neither too deep nor entered before tallies once it is entered. -/
theorem Tallied.enter {path : String} {depth : Nat} {outcome : Outcome}
    (tallied : Tallied platform progress calls) (taken : outcome ≠ .refused)
    (fresh : ¬(maxIncludeDepth < depth ∨ visitKey platform path ∈ progress.visited)) :
    Tallied platform { progress with visited := visitKey platform path :: progress.visited }
      (calls ++ [⟨path, depth, outcome⟩]) := by
  -- The call that is entered adds its key, says nothing and was right not to be refused.
  have accepted : Call.isRefused ⟨path, depth, outcome⟩ = false := by
    rw [Call.isRefused, beq_eq_false_iff_ne]
    exact taken
  refine ⟨?_, ?_, ?_⟩
  · intro key
    rw [List.mem_cons, tallied.visited, enteredKeys_concat, accepted]
    simp [or_comm]
  · rw [List.filter_append, List.filter_cons_of_neg (by simp [accepted]), List.filter_nil,
      List.append_nil]
    exact tallied.warned
  · apply tallied.decided.concat
    rw [← tallied.visited]
    exact iff_of_false taken fresh

/-- A refused file tallies with what is said of it. -/
theorem Tallied.refuse {path : String} {depth : Nat}
    (tallied : Tallied platform progress calls)
    (stale : maxIncludeDepth < depth ∨ visitKey platform path ∈ progress.visited) :
    Tallied platform (progress.warn (.includeCycle path 0))
      (calls ++ [⟨path, depth, .refused⟩]) := by
  -- The call that is refused adds no key, is warned about and was right to be refused.
  refine ⟨?_, ?_, ?_⟩
  · intro key
    have none_ : enteredKeys platform (calls ++ [⟨path, depth, .refused⟩]) =
        enteredKeys platform calls := by
      rw [enteredKeys_concat]
      exact List.append_nil _
    rw [none_]
    exact tallied.visited key
  · rw [Progress.warn, List.filter_append, tallied.warned, List.filter_append, List.map_append]
    rfl
  · apply tallied.decided.concat
    rw [← tallied.visited]
    exact iff_of_true rfl stale

end Accounts

section Refinement

variable {platform : Platform} {parseEntry : String → Progress → Progress}
  {enter : String → Logged Progress → Option (Logged Progress)}

/-- A log stands beside a progress when it is about it and tallies with it. -/
def Records (platform : Platform) (logged : Logged Progress) (progress : Progress) : Prop :=
  logged.value = progress ∧ Tallied platform progress logged.calls

/-- A file's parse with a log comes to an end, with what the parse without one makes of the file. -/
def Enters (platform : Platform) (parseEntry : String → Progress → Progress)
    (enter : String → Logged Progress → Option (Logged Progress)) : Prop :=
  ∀ {logged progress}, Records platform logged progress → ∀ path,
    ∃ next, enter path logged = some next ∧ Records platform next (parseEntry path progress)

/-- One include pattern is taken alike with and without a log. -/
theorem Enters.include_ (enters : Enters platform parseEntry enter) {logged : Logged Progress}
    {progress : Progress} (records : Records platform logged progress)
    (pattern base : String) (line : Nat) (file : String) :
    ∃ next, includeLogged platform enter pattern base line file logged = some next ∧
      Records platform next (SshConfig.include_ platform parseEntry pattern base line file
        progress) := by
  -- A pattern that names nothing is warned about, and any other enters its files in turn.
  unfold includeLogged SshConfig.include_
  generalize globPaths platform (includeTarget platform base pattern) = entries
  cases entries with
  | nil =>
    obtain ⟨rfl, tallied⟩ := records
    exact ⟨_, rfl, rfl, tallied.warn rfl⟩
  | cons entry rest =>
    exact foldlM_simulates (Records platform) (fun reached entry => enter entry reached)
      (fun reached entry => parseEntry entry reached) enters (entry :: rest) records

/-- A directive that is no include does the same whatever parses the files. -/
theorem absorbStep_alone (parseEntry other : String → Progress → Progress) (file : String)
    (base : Option String) (state : Absorbing) {d : Directive}
    (alone : base = none ∨ d.keyword ≠ "include") :
    absorbStep platform parseEntry file base state d =
      absorbStep platform other file base state d := by
  unfold absorbStep
  rcases alone with rfl | notInclude
  · rfl
  · rw [if_neg notInclude, if_neg notInclude]

/-- A log stands beside a file's reading when it is about it and tallies with it. -/
def Absorbs (platform : Platform) (logged : Logged Absorbing) (state : Absorbing) : Prop :=
  logged.value = state ∧ Tallied platform state.progress logged.calls

/-- One directive is taken alike with and without a log. -/
theorem Enters.absorbStep (enters : Enters platform parseEntry enter) {logged : Logged Absorbing}
    {state : Absorbing} (absorbs : Absorbs platform logged state) (file : String)
    (base : Option String) (d : Directive) :
    ∃ next, absorbStepLogged platform enter file base logged d = some next ∧
      Absorbs platform next (SshConfig.absorbStep platform parseEntry file base state d) := by
  obtain ⟨rfl, tallied⟩ := absorbs
  -- A line that calls no file is taken alone, and the log stays as it is.
  have aside : (base = none ∨ d.keyword ≠ "include") →
      Absorbs platform (logged.map fun value =>
        SshConfig.absorbStep platform (fun _ reached => reached) file base value d)
        (SshConfig.absorbStep platform parseEntry file base logged.value d) :=
    fun alone => ⟨absorbStep_alone _ _ file base _ alone, tallied.absorbStep alone parseEntry⟩
  unfold absorbStepLogged
  cases base with
  | none => exact ⟨_, rfl, aside (.inl rfl)⟩
  | some base =>
    dsimp only
    split
    · next isInclude =>
      have start : Records platform (logged.map Absorbing.progress) logged.value.progress :=
        ⟨rfl, tallied⟩
      -- The patterns of the line are taken one after another.
      obtain ⟨reached, ran, value, after⟩ := foldlM_simulates (Records platform)
        (fun reached pattern => includeLogged platform enter pattern base d.line file reached)
        (fun reached pattern =>
          SshConfig.include_ platform parseEntry pattern base d.line file reached)
        (fun records pattern => enters.include_ records pattern base d.line file) d.args start
      have taken : SshConfig.absorbStep platform parseEntry file (some base) logged.value d =
          { logged.value with progress := reached.value } := by
        rw [value]
        simp [SshConfig.absorbStep, isInclude]
      rw [ran, taken]
      exact ⟨_, rfl, rfl, value ▸ after⟩
    · next other => exact ⟨_, rfl, aside (.inr other)⟩

/-- The directives of a file are absorbed alike with and without a log. -/
theorem Enters.absorb (enters : Enters platform parseEntry enter) {logged : Logged Progress}
    {progress : Progress} (records : Records platform logged progress)
    (directives : List Directive) (file : String) (base : Option String) :
    ∃ next, absorbLogged platform enter directives file base logged = some next ∧
      Records platform next
        (SshConfig.absorb platform parseEntry directives file base progress) := by
  -- The file begins with nothing open, and ends by closing what is.
  obtain ⟨rfl, tallied⟩ := records
  have start : Absorbs platform (logged.map fun progress => ⟨progress, none, false⟩)
      ⟨logged.value, none, false⟩ := ⟨rfl, tallied⟩
  obtain ⟨final, ran, value, after⟩ := foldlM_simulates (Absorbs platform)
    (absorbStepLogged platform enter file base) (SshConfig.absorbStep platform parseEntry file base)
    (fun absorbs d => enters.absorbStep absorbs file base d) directives start
  rw [absorbLogged, ran]
  refine ⟨_, rfl, ?_, ?_⟩
  · rw [SshConfig.absorb, ← value]
    rfl
  · exact after.flushed

/-- A stack that reaches beyond the depth cap suffices to parse any file. -/
theorem enters_of_stack {stack depth : Nat} (callable : depth ≤ maxIncludeDepth + 1)
    (deep : maxIncludeDepth + 2 ≤ stack + depth) :
    Enters platform (parseWithin platform (maxIncludeDepth + 1 - depth))
      (fun path => parseLogged platform stack path depth) := by
  -- The induction is on the stack, and every nested call is one deeper on one less of it.
  induction stack generalizing depth with
  | zero => omega
  | succ stack ih =>
    rintro logged _ ⟨rfl, tallied⟩ path
    dsimp only
    rw [parseLogged]
    dsimp only
    by_cases tooDeep : maxIncludeDepth < depth
    · rw [if_pos (.inl tooDeep), show maxIncludeDepth + 1 - depth = 0 by omega, parseWithin]
      exact ⟨_, rfl, rfl, tallied.refuse (.inl tooDeep)⟩
    · obtain ⟨budget, count⟩ : ∃ budget, maxIncludeDepth + 1 - depth = budget + 1 :=
        ⟨maxIncludeDepth - depth, by omega⟩
      rw [count, parseWithin]
      by_cases seen : visitKey platform path ∈ logged.value.visited
      · rw [if_pos (.inr seen), if_pos seen]
        exact ⟨_, rfl, rfl, tallied.refuse (.inr seen)⟩
      · have fresh := not_or.mpr ⟨tooDeep, seen⟩
        rw [if_neg fresh, if_neg seen]
        dsimp only
        cases platform.readToString path with
        | none => exact ⟨_, rfl, rfl, tallied.enter (by decide) fresh⟩
        | some text =>
          -- The files that this one includes are parsed one deeper.
          have nested := @ih (depth + 1) (by omega) (by omega)
          rw [show maxIncludeDepth + 1 - (depth + 1) = budget by omega] at nested
          exact nested.absorb ⟨rfl, tallied.enter (by decide) fresh⟩ _ path (parent path)

end Refinement

/-- Nothing is parsed yet, and nothing was called. -/
def Logged.empty : Logged Progress := ⟨⟨⟨[], []⟩, []⟩, []⟩

/-- For any files that include each other in any way, parsing one of them comes to an end on every
stack that is two deeper than the depth cap or more, and with what the parse without a log gives. No
file is absorbed twice, none beyond the cap, a call is refused exactly when it is beyond the cap or
its file was entered before, and each refusal, and nothing else, leaves one warning of a cycle. -/
theorem inclusions_end_and_are_read_once (platform : Platform) (path : String) (spare : Nat) :
    ∃ progress calls,
      parseLogged platform (maxIncludeDepth + 2 + spare) path 0 .empty = some ⟨progress, calls⟩ ∧
      progress.cfg = parseFile platform path ∧
      ((calls.filter Call.isAbsorbed).map fun call => visitKey platform call.path).Nodup ∧
      (∀ call ∈ calls, call.outcome = .absorbed → call.depth ≤ maxIncludeDepth) ∧
      (∀ before call after, calls = before ++ call :: after →
        (call.outcome = .refused ↔ maxIncludeDepth < call.depth ∨
          visitKey platform call.path ∈ enteredKeys platform before)) ∧
      (parseFile platform path).warnings.filter Warning.isIncludeCycle =
        (calls.filter Call.isRefused).map Call.warning := by
  -- Before the first call nothing was read, refused or said.
  have start : Records platform .empty ⟨⟨[], []⟩, []⟩ := by
    refine ⟨rfl, ?_, rfl, ?_⟩
    · intro key
      exact Iff.rfl
    · intro before call after place
      cases before
      · cases place
      · cases place
  -- The fuel covers every depth, and the call beyond them that is refused.
  have deep : maxIncludeDepth + 2 ≤ maxIncludeDepth + 2 + spare + 0 := by omega
  obtain ⟨⟨progress, calls⟩, ran, rfl, tallied⟩ :=
    enters_of_stack (Nat.zero_le _) deep start path
  -- No file is entered twice, as a second call is refused.
  have nodup : List.Nodup _ := tallied.decided.nodup
  refine ⟨_, calls, ran, rfl, ?_, ?_, tallied.decided, tallied.warned⟩
  · -- The absorbed files are some of those that were entered.
    have fewer : List.Sublist (calls.filter Call.isAbsorbed)
        (calls.filter fun call => !call.isRefused) := by
      apply List.monotone_filter_right
      intro call absorbed
      have outcome : call.outcome = .absorbed := beq_iff_eq.mp absorbed
      rw [Call.isRefused, outcome]
      rfl
    exact nodup.sublist (fewer.map _)
  · intro call member absorbed
    obtain ⟨before, after, place⟩ := List.append_of_mem member
    -- What is absorbed was not refused, and so not too deep.
    have taken : call.outcome ≠ .refused := by simp [absorbed]
    have kept := mt (tallied.decided before call after place).mpr taken
    exact Nat.not_lt.mp (not_or.mp kept).1

end Tern.SshConfig
