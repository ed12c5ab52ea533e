import Mathlib.Logic.Relation
import Tern.SshConfig.Calls
import Tern.SshConfig.Redaction

/-! When what lies inside `Match` blocks has no part in the stanzas of a config. -/

namespace Tern.SshConfig

section Conditions

variable (platform : Platform)

/-- A line of a file includes another file. -/
def Includes (path entry : String) : Prop :=
  ∃ text d, platform.readToString path = some text ∧ d ∈ tokenize platform text ∧
    d.keyword = "include" ∧ entry ∈ includedFiles platform (parent path) d.args

/-- One file includes another, or is the same file under another path. -/
def Leads (path other : String) : Prop :=
  Includes platform path other ∨ visitKey platform path = visitKey platform other

/-- The `Host` lines of a file name no pattern. -/
def Hostless (path : String) : Prop :=
  ∀ text, platform.readToString path = some text →
    ∀ d ∈ tokenize platform text, d.keyword = "host" → d.args = []

/-- Neither a file nor any file that it leads to has a `Host` line that names a pattern. -/
def Barren (path : String) : Prop :=
  ∀ file, Relation.ReflTransGen (Leads platform) path file → Hostless platform file

/--
The parse enters a file for an include inside a `Match` block.

The include may be one of another file entered so, and so many files may still nest in this one.
-/
def EnteredInMatch (root : String) (budget : Nat) (path : String) : Prop :=
  ∃ progress, Calls platform root true (budget + 1) path progress ∧
    visitKey platform path ∉ progress.visited

/-- No file that is entered for an include inside a `Match` block has a stanza. -/
def Patternless (root : String) : Prop :=
  ∀ budget path, EnteredInMatch platform root budget path → Hostless platform path

/--
Files that are entered for includes inside `Match` blocks have no stanza, and hide none.

Each may be met again elsewhere, with more files that may nest or under another path.
-/
structure Sealed (root : String) : Prop where
  patternless : ∀ budget path other, EnteredInMatch platform root budget path →
    visitKey platform other = visitKey platform path → Hostless platform other
  -- What such a file includes is called for within the depth cap, or leads to no stanza.
  covered : ∀ budget path other entry, EnteredInMatch platform root budget path →
    visitKey platform other = visitKey platform path → Includes platform other entry →
      Barren platform entry ∨
        0 < budget ∧ ∃ named, Includes platform path named ∧
          visitKey platform named = visitKey platform entry

/-- Nothing inside a `Match` block has a part in the stanzas of a config. -/
structure Isolated (root : String) : Prop where
  /-- Deleting lines inside `Match` blocks, in any of the files, changes no stanza. -/
  stanzas : ∀ edited, Redacted platform edited →
    (parseFile (platform.withTexts edited) root).stanzas = (parseFile platform root).stanzas
  /-- No line that is read inside a `Match` block brings a stanza or a setting. -/
  inert : ∀ inside budget path progress state d,
    Calls platform root inside (budget + 1) path progress →
      ComesTo platform budget path progress state d → state.inMatch = true → d.keyword ≠ "host" →
        let next := absorbStep platform (parseWithin platform budget) path (parent path) state d
        next.progress.cfg.stanzas = state.progress.cfg.stanzas ∧ next.current = state.current

variable {platform}

/-- Under the condition the files entered inside `Match` blocks have no stanza. -/
theorem Sealed.to_patternless {root : String} (sealed_ : Sealed platform root) :
    Patternless platform root :=
  fun budget path entered => sealed_.patternless budget path path entered rfl

/-- What a barren file leads to is barren. -/
theorem Barren.leads {path other : String} (bare : Barren platform path)
    (leads : Leads platform path other) : Barren platform other :=
  fun file chain => bare file (chain.head leads)

/-- A barren file has no stanza. -/
theorem Barren.hostless {path : String} (bare : Barren platform path) : Hostless platform path :=
  bare path .refl

end Conditions

section Inertia

variable {platform : Platform} {holds : Progress → Prop}

/-- The reading of a file keeps a property, and has nothing open that would be gathered. -/
structure Inert (holds : Progress → Prop) (state : Absorbing) : Prop where
  holds : holds state.progress
  patternless : ∀ stanza, state.current = some stanza → stanza.patterns = []
  closed : state.inMatch = true → state.current = none

/-- Closing an inert reading's open stanza gathers nothing. -/
theorem Inert.flushed {state : Absorbing} (inert : Inert holds state) :
    state.flushed = state.progress := by
  obtain ⟨progress, current, inMatch⟩ := state
  cases current with
  | none => rfl
  | some stanza => simp [Absorbing.flushed, flush, inert.patternless stanza rfl]

/-- A directive keeps a reading inert when it brings no pattern and its includes keep the
property. -/
theorem Inert.step (warns : ∀ progress warning, holds progress → holds (progress.warn warning))
    {state : Absorbing} (inert : Inert holds state) {parseEntry : String → Progress → Progress}
    {file : String} {d : Directive} (hostless : d.keyword = "host" → d.args = [])
    (includes : d.keyword = "include" → ∀ base, parent file = some base →
      holds (d.args.foldl (fun reached pattern =>
        include_ platform parseEntry pattern base d.line file reached) state.progress)) :
    Inert holds (absorbStep platform parseEntry file (parent file) state d) := by
  have flushed := inert.flushed
  by_cases host : d.keyword = "host"
  · -- The `Host` line has no pattern, so the stanza it opens will not be kept.
    simp only [absorbStep, if_pos host, flushed, hostless host]
    refine ⟨inert.holds, ?_, by simp⟩
    intro stanza found
    rw [← Option.some.inj found]
    rfl
  by_cases match_ : d.keyword = "match"
  · simp only [absorbStep, if_neg host, if_pos match_, flushed]
    exact ⟨warns _ _ inert.holds, by simp, by simp⟩
  -- An include line leaves the stanza as it is, and its files keep what is to be kept.
  by_cases include_ : d.keyword = "include"
  · simp only [absorbStep, if_neg host, if_neg match_, if_pos include_]
    cases base : parent file with
    | none => exact ⟨warns _ _ inert.holds, inert.patternless, inert.closed⟩
    | some base_ => exact ⟨includes include_ base_ base, inert.patternless, inert.closed⟩
  · obtain ⟨progress, after, quiet⟩ := absorbStep_setting platform parseEntry file (parent file)
      host match_ include_ inert.closed
    rw [after]
    refine ⟨?_, ?_, ?_⟩
    · rcases quiet with rfl | ⟨warning, rfl⟩
      · exact inert.holds
      · exact warns _ _ inert.holds
    · -- A setting leaves the patterns of the open stanza as they are, which is none.
      intro stanza found
      obtain ⟨before, held, rfl⟩ := Option.map_eq_some_iff.mp found
      rw [patterns_apply]
      exact inert.patternless before held
    · intro inside
      simp [inert.closed inside]

/-- A parse that may only enter files without stanzas keeps what entering them keeps. -/
theorem holds_parseWithin {edited : String → Option String} (redacted : Redacted platform edited)
    {may : String → Prop}
    (warns : ∀ progress warning, holds progress → holds (progress.warn warning))
    (enters : ∀ path progress, may path → holds progress →
      visitKey platform path ∉ progress.visited →
        holds { progress with visited := visitKey platform path :: progress.visited } ∧
          Hostless platform path ∧ ∀ entry, Includes platform path entry → may entry)
    (budget : Nat) :
    ∀ path progress, may path → holds progress →
      holds (parseWithin (platform.withTexts edited) budget path progress) := by
  -- The files that such a file includes may be entered too, which carries the induction.
  induction budget with
  | zero =>
    intro path progress _ held
    exact warns _ _ held
  | succ budget ih =>
    intro path progress allowed held
    rw [parseWithin_withTexts]
    split
    · exact warns _ _ held
    rename_i fresh
    obtain ⟨entered, hostless, includes⟩ := enters path progress allowed held fresh
    -- The file is missing in both trees, or its text is that of the first less some lines.
    rcases redacted path with ⟨_, missing⟩ | ⟨text, kept, original, present, redacts⟩
    · rw [missing]
      exact entered
    rw [present]
    have finish : Inert holds
        ((tokenize platform kept).foldl
          (absorbStep platform (parseWithin (platform.withTexts edited) budget) path (parent path))
          ⟨{ progress with visited := visitKey platform path :: progress.visited }, none,
            false⟩) := by
      have start : Inert holds
          ⟨{ progress with visited := visitKey platform path :: progress.visited }, none,
            false⟩ := ⟨entered, by simp, by simp⟩
      refine List.foldlRecOn _ _ start ?_
      intro state inert d listed
      -- Each directive is one that the file had before, so it brings nothing either.
      obtain ⟨e, member, keyword, args⟩ := redacts.directive listed
      apply inert.step warns
      · intro host
        rw [← args]
        exact hostless text original e member (keyword.trans host)
      · intro include_ base directory
        apply include_ind warns inert.holds
        intro entry reached named held
        -- What it includes was included by the file before the deletion.
        apply ih entry reached _ held
        apply includes entry
        refine ⟨text, e, original, member, keyword.trans include_, ?_⟩
        rw [directory, args]
        exact named.named
    show holds (Absorbing.flushed _)
    rw [finish.flushed]
    exact finish.holds

end Inertia

section Hidden

variable {platform : Platform} {root : String}

/-- A file under a name was entered inside a `Match` block, and each file it names was called
for. -/
def Settled (platform : Platform) (root : String) (visited : List (List Component))
    (key : List Component) : Prop :=
  ∃ budget path, visitKey platform path = key ∧ EnteredInMatch platform root budget path ∧
    ∀ named, Includes platform path named → 0 < budget → visitKey platform named ∈ visited

/-- A settled file stays so when more files are entered. -/
theorem Settled.mono {visited more : List (List Component)} {key : List Component}
    (settled : Settled platform root visited key) (grows : visited ⊆ more) :
    Settled platform root more key := by
  obtain ⟨budget, path, name, entered, named⟩ := settled
  exact ⟨budget, path, name, entered, fun other includes within =>
    grows (named other includes within)⟩

/-- Between two moments no stanza was gathered, and the files entered are settled. -/
structure Quiet (platform : Platform) (root : String) (before after : Progress) : Prop where
  stanzas : after.cfg.stanzas = before.cfg.stanzas
  grows : before.visited ⊆ after.visited
  settled : ∀ key ∈ after.visited, key ∉ before.visited →
    Settled platform root after.visited key

/-- Nothing happens between a moment and itself. -/
theorem Quiet.refl (progress : Progress) : Quiet platform root progress progress :=
  ⟨rfl, List.Subset.refl _, fun _ member fresh => absurd member fresh⟩

/-- Quiet goes on. -/
theorem Quiet.trans {first second third : Progress} (early : Quiet platform root first second)
    (late : Quiet platform root second third) : Quiet platform root first third := by
  -- A file that was entered is settled by whichever of the two stretches it was entered in.
  refine ⟨late.stanzas.trans early.stanzas, List.Subset.trans early.grows late.grows, ?_⟩
  intro key member fresh
  by_cases between : key ∈ second.visited
  · exact (early.settled key between fresh).mono late.grows
  · exact late.settled key member between

/-- A warning breaks no quiet. -/
theorem Quiet.warn {before after : Progress} (quiet : Quiet platform root before after)
    (warning : Warning) : Quiet platform root before (after.warn warning) :=
  ⟨quiet.stanzas, quiet.grows, quiet.settled⟩

/-- An include line is quiet when each file that it comes to is, and calls for all it names. -/
theorem quiet_includes {budget : Nat} {base file : String} {line : Nat} {args : List String}
    {start : Progress}
    (entries : ∀ entry reached,
      EntersFrom platform (parseWithin platform budget) base line file args start entry reached →
        Quiet platform root reached (parseWithin platform budget entry reached) ∧
          (0 < budget →
            visitKey platform entry ∈ (parseWithin platform budget entry reached).visited)) :
    let after := args.foldl (fun reached pattern =>
      include_ platform (parseWithin platform budget) pattern base line file reached) start
    Quiet platform root start after ∧
      ∀ entry ∈ includedFiles platform (some base) args, 0 < budget →
        visitKey platform entry ∈ after.visited := by
  constructor
  · apply include_ind (fun _ warning quiet => quiet.warn warning) (.refl start)
    intro entry reached enters quiet
    exact quiet.trans (entries entry reached enters).1
  · intro entry named within
    obtain ⟨reached, enters⟩ : ∃ reached, EntersFrom platform (parseWithin platform budget) base
        line file args start entry reached := enters_of_named named
    -- What was entered at that moment is still so at the end of the line.
    exact (enters.retains (retains_parseWithin platform budget)).2.visited
      ((entries entry reached enters).2 within)

/-- A directive that has its files called for inside `Match` blocks is quiet, and calls for all. -/
theorem quiet_step {inside : Bool} {budget : Nat} {path : String} {progress start : Progress}
    {state : Absorbing} {d : Directive}
    (calls : Calls platform root inside (budget + 1) path progress)
    (comes : ComesTo platform budget path progress state d)
    (within : (inside || state.inMatch) = true)
    (entries : ∀ entry reached, Calls platform root true budget entry reached →
      Quiet platform root reached (parseWithin platform budget entry reached) ∧
        (0 < budget →
          visitKey platform entry ∈ (parseWithin platform budget entry reached).visited))
    (hostless : d.keyword = "host" → d.args = [])
    (inert : Inert (Quiet platform root start) state) :
    let next := absorbStep platform (parseWithin platform budget) path (parent path) state d
    Inert (Quiet platform root start) next ∧
      (d.keyword = "include" → ∀ entry ∈ includedFiles platform (parent path) d.args,
        0 < budget → visitKey platform entry ∈ next.progress.visited) := by
  have includes := fun (include_ : d.keyword = "include") base
      (directory : parent path = some base) =>
    @quiet_includes platform root budget base path d.line d.args state.progress
      fun entry reached enters => entries entry reached (by
        -- A file that the line enters is called for inside the block as well.
        have called := calls.entry comes include_ directory enters
        rw [within] at called
        exact called)
  refine ⟨?_, ?_⟩
  · -- The line keeps what is open patternless, and its files bring nothing.
    apply inert.step (fun _ warning quiet => quiet.warn warning) hostless
    intro include_ base directory
    exact inert.holds.trans (includes include_ base directory).1
  · intro include_ entry named deep
    have host : d.keyword ≠ "host" := by rw [include_]; decide
    have match_ : d.keyword ≠ "match" := by rw [include_]; decide
    cases directory : parent path with
    | none =>
      -- Without a directory around the file nothing is named.
      rw [directory] at named
      cases named
    | some base =>
      rw [directory] at named
      simp only [absorbStep, if_neg host, if_neg match_, if_pos include_]
      exact (includes include_ base directory).2 entry named deep

/-- Reading a file entered inside a `Match` block is quiet, and calls for all that it names. -/
theorem quiet_directives {budget : Nat} {path text : String} {progress : Progress}
    (patternless : Patternless platform root)
    (calls : Calls platform root true (budget + 1) path progress)
    (fresh : visitKey platform path ∉ progress.visited)
    (readable : platform.readToString path = some text)
    (entries : ∀ entry reached, Calls platform root true budget entry reached →
      Quiet platform root reached (parseWithin platform budget entry reached) ∧
        (0 < budget →
          visitKey platform entry ∈ (parseWithin platform budget entry reached).visited)) :
    let entered := { progress with visited := visitKey platform path :: progress.visited }
    let final := (tokenize platform text).foldl
      (absorbStep platform (parseWithin platform budget) path (parent path)) ⟨entered, none, false⟩
    Inert (Quiet platform root entered) final ∧
      ∀ d ∈ tokenize platform text, d.keyword = "include" →
        ∀ entry ∈ includedFiles platform (parent path) d.args, 0 < budget →
          visitKey platform entry ∈ final.progress.visited := by
  intro entered final
  let step := absorbStep platform (parseWithin platform budget) path (parent path)
  -- The induction is on the directives read so far.
  let quiet : List Directive → Prop := fun before =>
    Inert (Quiet platform root entered) (before.foldl step ⟨entered, none, false⟩) ∧
      ∀ d ∈ before, d.keyword = "include" →
        ∀ entry ∈ includedFiles platform (parent path) d.args, 0 < budget →
          visitKey platform entry ∈ (before.foldl step ⟨entered, none, false⟩).progress.visited
  show quiet (tokenize platform text)
  refine prefix_ind ⟨⟨.refl _, by simp, by simp⟩, by simp⟩ ?_
  intro before d after split held
  obtain ⟨inert, named⟩ := held
  have comes : ComesTo platform budget path progress (before.foldl step ⟨entered, none, false⟩) d :=
    ⟨fresh, text, before, after, readable, split, rfl⟩
  have listed : d ∈ tokenize platform text := by rw [split]; simp
  -- The next directive is quiet, and enters the files that it names.
  obtain ⟨next, called⟩ := quiet_step calls comes rfl entries
    (patternless budget path ⟨progress, calls, fresh⟩ text readable d listed) inert
  have onward := retains_absorbStep platform (retains_parseWithin platform budget) path
    (parent path) (before.foldl step ⟨entered, none, false⟩) d
  simp only [quiet, List.foldl_append, List.foldl_cons, List.foldl_nil]
  refine ⟨next, ?_⟩
  intro e member include_ entry among deep
  rcases List.mem_append.mp member with old | last
  · -- What was entered for an earlier line stays entered.
    exact onward.visited (named e old include_ entry among deep)
  · rw [List.mem_singleton.mp last] at include_ among
    exact called include_ entry among deep

/-- A call that an include inside a `Match` block led to is quiet. -/
theorem quiet_parseWithin (patternless : Patternless platform root) (budget : Nat) :
    ∀ path progress, Calls platform root true budget path progress →
      Quiet platform root progress (parseWithin platform budget path progress) ∧
        (0 < budget →
          visitKey platform path ∈ (parseWithin platform budget path progress).visited) := by
  induction budget with
  | zero =>
    intro path progress _
    exact ⟨(Quiet.refl progress).warn _, by simp⟩
  | succ budget ih =>
    intro path progress calls
    rw [parseWithin]
    -- A file that was entered before is left with a warning.
    by_cases seen : visitKey platform path ∈ progress.visited
    · rw [if_pos seen]
      exact ⟨(Quiet.refl progress).warn _, fun _ => seen⟩
    rw [if_neg seen]
    cases readable : platform.readToString path with
    | none =>
      refine ⟨⟨rfl, List.subset_cons_self _ _, ?_⟩, fun _ => List.mem_cons_self⟩
      intro key member fresh
      obtain rfl := (List.mem_cons.mp member).resolve_right fresh
      refine ⟨budget, path, rfl, ⟨progress, calls, seen⟩, ?_⟩
      -- A file that cannot be read includes nothing.
      intro named includes
      obtain ⟨text, _, present, _⟩ := includes
      rw [readable] at present
      cases present
    | some text =>
      obtain ⟨inert, named⟩ := quiet_directives patternless calls seen readable ih
      simp only [absorb, inert.flushed]
      have kept := inert.holds.grows
      refine ⟨⟨inert.holds.stanzas, fun _ old => kept (List.mem_cons_of_mem _ old), ?_⟩,
        fun _ => kept List.mem_cons_self⟩
      intro key member fresh
      -- What is new is the file itself, or what its own lines brought.
      by_cases own : key = visitKey platform path
      · refine ⟨budget, path, own.symm, ⟨progress, calls, seen⟩, ?_⟩
        intro other includes
        obtain ⟨text_, d, present, listed, include_, among⟩ := includes
        rw [readable, Option.some.injEq] at present
        subst present
        exact named d listed include_ other among
      · exact inert.holds.settled key member
          (fun entered => ((List.mem_cons.mp entered).elim own fresh))

end Hidden

section Lockstep

variable {platform : Platform} {root : String}

/--
A run of the edited files follows the run of the files themselves.

The files under marked names were entered for includes inside `Match` blocks, so that
the second run may have entered them or not, as it may any barren file.
-/
structure Follows (platform : Platform) (root : String) (marked : List Component → Prop)
    (left right : Progress) : Prop where
  stanzas : left.cfg.stanzas = right.cfg.stanzas
  visited : ∀ key, ¬marked key → (∀ file, Barren platform file → visitKey platform file ≠ key) →
    (key ∈ left.visited ↔ key ∈ right.visited)
  entered : ∀ key, marked key → key ∈ left.visited ∧ Settled platform root left.visited key

/-- The one run follows the other, whatever was entered inside `Match` blocks. -/
def Paired (platform : Platform) (root : String) (left right : Progress) : Prop :=
  ∃ marked, Follows platform root marked left right

/-- A file is barren or entered, so that the other run may not gather anything from it. -/
def Covered (platform : Platform) (left : Progress) (path : String) : Prop :=
  Barren platform path ∨ visitKey platform path ∈ left.visited

variable {marked : List Component → Prop} {left right : Progress}

/-- Warnings take no part in this. -/
theorem Follows.warn (follows : Follows platform root marked left right)
    (leftWarning rightWarning : Warning) :
    Follows platform root marked (left.warn leftWarning) (right.warn rightWarning) :=
  ⟨follows.stanzas, follows.visited, follows.entered⟩

/-- A warning in the first run only takes no part either. -/
theorem Follows.warnLeft (follows : Follows platform root marked left right) (warning : Warning) :
    Follows platform root marked (left.warn warning) right :=
  ⟨follows.stanzas, follows.visited, follows.entered⟩

/-- Nor does one in the second run only. -/
theorem Follows.warnRight (follows : Follows platform root marked left right) (warning : Warning) :
    Follows platform root marked left (right.warn warning) :=
  ⟨follows.stanzas, follows.visited, follows.entered⟩

/-- Both runs enter a file. -/
theorem Follows.enter (follows : Follows platform root marked left right)
    (key : List Component) :
    Follows platform root marked { left with visited := key :: left.visited }
      { right with visited := key :: right.visited } := by
  -- Both have entered the same name, so nothing tells them apart by it.
  refine ⟨follows.stanzas, ?_, ?_⟩
  · intro other unmarked fertile
    rw [List.mem_cons, List.mem_cons, follows.visited other unmarked fertile]
  · intro other isMarked
    obtain ⟨member, settled⟩ := follows.entered other isMarked
    exact ⟨List.mem_cons_of_mem _ member, settled.mono (List.subset_cons_self _ _)⟩

/-- The first run alone enters a barren file. -/
theorem Follows.enterLeft (follows : Follows platform root marked left right) {path : String}
    (bare : Barren platform path) :
    Follows platform root marked { left with visited := visitKey platform path :: left.visited }
      right := by
  -- A barren file is one that the visited names are not compared on.
  refine ⟨follows.stanzas, ?_, ?_⟩
  · intro key unmarked fertile
    rw [← follows.visited key unmarked fertile, List.mem_cons, or_iff_right]
    exact fun same => fertile path bare same.symm
  · intro key isMarked
    obtain ⟨member, settled⟩ := follows.entered key isMarked
    exact ⟨List.mem_cons_of_mem _ member, settled.mono (List.subset_cons_self _ _)⟩

/-- The second run alone enters a file that is barren or under a marked name. -/
theorem Follows.enterRight (follows : Follows platform root marked left right) {path : String}
    (hidden : Barren platform path ∨ marked (visitKey platform path)) :
    Follows platform root marked left
      { right with visited := visitKey platform path :: right.visited } := by
  -- Only the names of fertile and unmarked files are compared.
  refine ⟨follows.stanzas, ?_, follows.entered⟩
  intro key unmarked fertile
  rw [follows.visited key unmarked fertile, List.mem_cons, or_iff_right]
  rintro rfl
  exact hidden.elim (fun bare => fertile path bare rfl) unmarked

/-- What the first run does inside a `Match` block marks the files entered there. -/
theorem Follows.advance (follows : Follows platform root marked left right) {after : Progress}
    (quiet : Quiet platform root left after) :
    Follows platform root (fun key => marked key ∨ (key ∈ after.visited ∧ key ∉ left.visited)) after
      right := by
  -- What was entered quietly is settled, and settled names may differ from now on.
  refine ⟨quiet.stanzas.trans follows.stanzas, ?_, ?_⟩
  · intro key unmarked fertile
    rw [not_or, not_and_not_right] at unmarked
    rw [← follows.visited key unmarked.1 fertile]
    exact ⟨unmarked.2, fun old => quiet.grows old⟩
  · rintro key (old | ⟨member, fresh⟩)
    · obtain ⟨member, settled⟩ := follows.entered key old
      exact ⟨quiet.grows member, settled.mono quiet.grows⟩
    · exact ⟨member, quiet.settled key member fresh⟩

/-- A barren file that the first run calls for leaves the runs paired. -/
theorem Follows.parseLeft (follows : Follows platform root marked left right) (budget : Nat)
    {path : String} (bare : Barren platform path) :
    Follows platform root marked (parseWithin platform budget path left) right := by
  -- Reading a barren file enters barren files only, and gathers nothing.
  have untouched : Redacted platform platform.readToString :=
    redacted_of_emptied fun _ => .inl rfl
  refine @holds_parseWithin platform (fun left => Follows platform root marked left right)
    platform.readToString untouched (Barren platform)
    (fun _ warning held => held.warnLeft warning) ?_ budget path left bare follows
  intro path left bare follows _
  refine ⟨follows.enterLeft bare, bare.hostless, ?_⟩
  exact fun entry includes => bare.leads (.inl includes)

/-- A covered file that the second run calls for leaves the runs paired. -/
theorem Follows.parseRight (sealed_ : Sealed platform root)
    (follows : Follows platform root marked left right) {edited : String → Option String}
    (redacted : Redacted platform edited) (budget : Nat) {path : String}
    (covered : Covered platform left path) :
    Follows platform root marked left
      (parseWithin (platform.withTexts edited) budget path right) := by
  refine holds_parseWithin redacted (fun _ warning held => held.warnRight warning) ?_ budget path
    right covered follows
  intro path right covered follows fresh
  -- The first run has entered the file, so the second would have unless the file is hidden.
  have hidden : Barren platform path ∨ marked (visitKey platform path) := by
    by_contra open_
    obtain ⟨fertile, unmarked⟩ := not_or.mp open_
    have off : ∀ file, Barren platform file → visitKey platform file ≠ visitKey platform path :=
      fun file bare same => fertile (bare.leads (.inr same))
    exact fresh ((follows.visited _ unmarked off).mp (covered.resolve_left fertile))
  refine ⟨follows.enterRight hidden, ?_⟩
  rcases hidden with bare | isMarked
  · exact ⟨bare.hostless, fun entry includes => .inl (bare.leads (.inl includes))⟩
  · -- A marked file was entered inside a block of the first run, where it had no stanza.
    obtain ⟨_, inner, first, name, entered, named⟩ := follows.entered _ isMarked
    refine ⟨sealed_.patternless inner first path entered name.symm, ?_⟩
    intro entry includes
    rcases sealed_.covered inner first path entry entered name.symm includes with
      bare | ⟨within, other, includes_, same⟩
    · exact .inl bare
    · right
      rw [← same]
      exact named other includes_ within

/-- Two readings of one file go together, with the same stanza open. -/
structure Same (platform : Platform) (root : String) (left right : Absorbing) : Prop where
  paired : Paired platform root left.progress right.progress
  current : left.current = right.current
  inMatch : left.inMatch = right.inMatch
  closed : left.inMatch = true → left.current = none

/-- Closing the open stanza keeps two readings together. -/
theorem Same.flushed {left right : Absorbing} (same : Same platform root left right) :
    Paired platform root left.flushed right.flushed := by
  -- Both close the same stanza behind the same ones.
  obtain ⟨leftProgress, current, inMatch⟩ := left
  obtain ⟨rightProgress, rightCurrent, rightMatch⟩ := right
  obtain ⟨⟨marked, follows⟩, sameCurrent, sameMatch, closed⟩ := same
  simp only at sameCurrent sameMatch follows
  subst sameCurrent
  refine ⟨marked, ?_, follows.visited, follows.entered⟩
  cases current with
  | none => exact follows.stanzas
  | some stanza =>
    simp only [Absorbing.flushed, flush]
    split
    · exact follows.stanzas
    · rw [follows.stanzas]

/-- Warnings leave two runs paired. -/
theorem Paired.warn {left right : Progress} (paired : Paired platform root left right)
    (leftWarning rightWarning : Warning) :
    Paired platform root (left.warn leftWarning) (right.warn rightWarning) := by
  obtain ⟨marked, follows⟩ := paired
  exact ⟨marked, follows.warn leftWarning rightWarning⟩

/-- One directive that stands in both texts keeps two readings together. -/
theorem Same.step {left right : Absorbing} (same : Same platform root left right)
    {leftEntry rightEntry : String → Progress → Progress} {file : String} {d e : Directive}
    (keyword : d.keyword = e.keyword) (args : d.args = e.args)
    (includes : d.keyword = "include" → ∀ base, parent file = some base →
      Paired platform root
        (d.args.foldl (fun reached pattern =>
          include_ platform leftEntry pattern base d.line file reached) left.progress)
        (d.args.foldl (fun reached pattern =>
          include_ platform rightEntry pattern base e.line file reached) right.progress)) :
    Same platform root (absorbStep platform leftEntry file (parent file) left d)
      (absorbStep platform rightEntry file (parent file) right e) := by
  by_cases host : d.keyword = "host"
  · simp only [absorbStep, ← keyword, if_pos host]
    exact ⟨same.flushed, by rw [args], rfl, by simp⟩
  -- A `Match` line closes the stanza in both, and each warns by its own line.
  by_cases match_ : d.keyword = "match"
  · simp only [absorbStep, ← keyword, if_neg host, if_pos match_]
    exact ⟨same.flushed.warn _ _, rfl, rfl, by simp⟩
  by_cases include_ : d.keyword = "include"
  · simp only [absorbStep, ← keyword, if_neg host, if_neg match_, if_pos include_]
    cases base : parent file with
    | none => exact ⟨same.paired.warn _ _, same.current, same.inMatch, same.closed⟩
    | some base_ =>
      rw [← args]
      exact ⟨includes include_ base_ base, same.current, same.inMatch, same.closed⟩
  · -- Both runs apply the same setting to the same stanza, and warn as they like.
    obtain ⟨leftProgress, leftAfter, leftQuiet⟩ := absorbStep_setting platform leftEntry file
      (parent file) host match_ include_ same.closed
    have closed : right.inMatch = true → right.current = none := by
      rw [← same.inMatch, ← same.current]
      exact same.closed
    rw [keyword] at host match_ include_
    obtain ⟨rightProgress, rightAfter, rightQuiet⟩ := absorbStep_setting platform rightEntry file
      (parent file) host match_ include_ closed
    rw [leftAfter, rightAfter, keyword, args]
    refine ⟨?_, by rw [same.current], same.inMatch, ?_⟩
    · obtain ⟨marked, follows⟩ := same.paired
      rcases leftQuiet with rfl | ⟨leftWarning, rfl⟩ <;>
        rcases rightQuiet with rfl | ⟨rightWarning, rfl⟩ <;>
        exact ⟨marked, follows.stanzas, follows.visited, follows.entered⟩
    · intro inside
      simp [same.closed inside]

variable (platform) in
/-- Only `Host` and `Match` lines move the flag. -/
theorem inMatch_absorbStep (parseEntry : String → Progress → Progress) (file : String)
    (base : Option String) (state : Absorbing) (d : Directive) :
    (absorbStep platform parseEntry file base state d).inMatch =
      if d.keyword = "host" then false else if d.keyword = "match" then true
      else state.inMatch := by
  -- Behind the arms for the two keywords the flag is only ever read.
  unfold absorbStep
  by_cases host : d.keyword = "host"
  · rw [if_pos host, if_pos host]
  by_cases match_ : d.keyword = "match"
  · rw [if_neg host, if_neg host, if_pos match_, if_pos match_]
  rw [if_neg host, if_neg host, if_neg match_, if_neg match_]
  split
  · cases base <;> rfl
  split
  · rfl
  split
  · rfl
  split <;> rfl

/-- A directive inside a `Match` block leaves nothing open, and what was gathered as it was. -/
theorem quiet_inMatch (patternless : Patternless platform root) {inside : Bool} {budget : Nat}
    {path : String} {progress : Progress} {state : Absorbing} {d : Directive}
    (calls : Calls platform root inside (budget + 1) path progress)
    (comes : ComesTo platform budget path progress state d) (closed : state.current = none)
    (inMatch : state.inMatch = true) (host : d.keyword ≠ "host") :
    let next := absorbStep platform (parseWithin platform budget) path (parent path) state d
    Inert (Quiet platform root state.progress) next ∧
      (d.keyword = "include" → ∀ entry ∈ includedFiles platform (parent path) d.args,
        0 < budget → visitKey platform entry ∈ next.progress.visited) := by
  -- A stanza can only be opened by a host line, and this is none.
  have start : Inert (Quiet platform root state.progress) state :=
    ⟨.refl _, by simp [closed], fun _ => closed⟩
  exact quiet_step calls comes (by rw [inMatch, Bool.or_true])
    (quiet_parseWithin patternless budget) (fun isHost => absurd isHost host) start

/-- A directive inside a `Match` block that stands in the first text only keeps two readings
together. -/
theorem Same.deleted (patternless : Patternless platform root) {budget : Nat} {path : String}
    {progress : Progress} {left right : Absorbing} {d : Directive}
    (calls : Calls platform root false (budget + 1) path progress)
    (comes : ComesTo platform budget path progress left d) (same : Same platform root left right)
    (inMatch : left.inMatch = true) (host : d.keyword ≠ "host") :
    Same platform root
      (absorbStep platform (parseWithin platform budget) path (parent path) left d) right := by
  -- The first run comes out of the directive as it went in, up to names that are settled.
  have open_ := same.closed inMatch
  obtain ⟨after, _⟩ := quiet_inMatch patternless calls comes open_ inMatch host
  have flag := inMatch_absorbStep platform (parseWithin platform budget) path (parent path) left d
  rw [if_neg host, inMatch, ite_self] at flag
  obtain ⟨marked, follows⟩ := same.paired
  exact ⟨⟨_, follows.advance after.holds⟩, by rw [after.closed flag, ← same.current, open_],
    by rw [flag, ← same.inMatch, inMatch], after.closed⟩

/-- An include line that stands in both texts keeps two runs paired. -/
theorem paired_includes (sealed_ : Sealed platform root) {edited : String → Option String}
    (redacted : Redacted platform edited) {budget : Nat} {path base : String}
    {progress right : Progress} {left : Absorbing} {d : Directive} (line : Nat)
    (calls : Calls platform root false (budget + 1) path progress)
    (comes : ComesTo platform budget path progress left d)
    (closed : left.inMatch = true → left.current = none)
    (include_ : d.keyword = "include") (directory : parent path = some base)
    (paired : Paired platform root left.progress right)
    (entries : ∀ entry reached, Calls platform root false budget entry reached →
      ∀ other, Paired platform root reached other →
        Paired platform root (parseWithin platform budget entry reached)
          (parseWithin (platform.withTexts edited) budget entry other)) :
    Paired platform root
      (d.args.foldl (fun reached pattern =>
        SshConfig.include_ platform (parseWithin platform budget) pattern base d.line path reached)
          left.progress)
      (d.args.foldl (fun reached pattern =>
        SshConfig.include_ platform (parseWithin (platform.withTexts edited) budget) pattern base
          line path reached) right) := by
  have host : d.keyword ≠ "host" := by rw [include_]; decide
  have match_ : d.keyword ≠ "match" := by rw [include_]; decide
  cases inMatch : left.inMatch with
  | false =>
    -- Outside all blocks the runs call for the files side by side.
    apply include_rel (Paired platform root) (fun _ _ _ _ paired => paired.warn _ _)
      (parseWithin platform budget) (parseWithin (platform.withTexts edited) budget) line _ _ paired
    intro entry reached enters other paired
    have called := calls.entry comes include_ directory enters
    rw [inMatch] at called
    exact entries entry reached called other paired
  | true =>
    -- Inside a block the first run goes through the line, and then the second.
    obtain ⟨marked, follows⟩ := paired
    obtain ⟨inert, visited⟩ := quiet_inMatch sealed_.to_patternless calls comes (closed inMatch)
      inMatch host
    have quiet := inert.holds
    simp only [absorbStep, if_neg host, if_neg match_, if_pos include_, directory] at quiet visited
    have ahead := follows.advance quiet
    refine ⟨_, include_ind (fun _ warning held => held.warnRight warning) ahead ?_⟩
    intro entry reached enters held
    cases budget with
    | zero => exact held.warnRight _
    | succ budget =>
      exact held.parseRight sealed_ redacted _
        (.inr (visited include_ entry enters.named (Nat.succ_pos budget)))

/-- Reading a file with and without some lines of its `Match` blocks keeps two runs paired. -/
theorem Same.lines (sealed_ : Sealed platform root) {edited : String → Option String}
    (redacted : Redacted platform edited) {budget : Nat} {path text : String} {progress : Progress}
    (calls : Calls platform root false (budget + 1) path progress)
    (fresh : visitKey platform path ∉ progress.visited)
    (readable : platform.readToString path = some text)
    (entries : ∀ entry reached, Calls platform root false budget entry reached →
      ∀ other, Paired platform root reached other →
        Paired platform root (parseWithin platform budget entry reached)
          (parseWithin (platform.withTexts edited) budget entry other))
    {inMatch : Bool} {raws kept : List String} (redacts : Redacts platform inMatch raws kept) :
    ∀ before number keptNumber left right,
      tokenize platform text = before ++ tokenizeFrom platform number raws →
      left = before.foldl
        (absorbStep platform (parseWithin platform budget) path (parent path))
        ⟨{ progress with visited := visitKey platform path :: progress.visited }, none, false⟩ →
      left.inMatch = inMatch → Same platform root left right →
      Same platform root
        ((tokenizeFrom platform number raws).foldl
          (absorbStep platform (parseWithin platform budget) path (parent path)) left)
        ((tokenizeFrom platform keptNumber kept).foldl
          (absorbStep platform (parseWithin (platform.withTexts edited) budget) path (parent path))
          right) := by
  -- The two texts are read side by side, with line numbers of their own.
  induction redacts with
  | nil =>
    intro before number keptNumber left right _ _ _ same
    exact same
  | @keep inMatch raw rest kept _ ih =>
    intro before number keptNumber left right split position flag same
    rw [tokenizeFrom] at split ⊢
    rw [tokenizeFrom]
    -- A line without a directive changes no block.
    cases fields : tokenizeLine platform raw with
    | none =>
      rw [fields] at split
      apply ih before _ _ left right split position _ same
      rw [flag, matchAfter, lineKeyword, fields]
      rfl
    | some pair =>
      obtain ⟨keyword, args⟩ := pair
      rw [fields] at split
      rw [List.foldl_cons, List.foldl_cons]
      have comes : ComesTo platform budget path progress left ⟨number, keyword, args⟩ :=
        ⟨fresh, text, before, _, readable, split, position⟩
      -- A line that stands in both is read by both.
      apply ih (before ++ [⟨number, keyword, args⟩])
      · rw [split, List.append_cons]
      · rw [List.foldl_append, ← position]
        rfl
      · rw [inMatch_absorbStep, matchAfter, lineKeyword, fields, flag]
        simp
      · refine same.step rfl rfl ?_
        intro include_ base directory
        exact paired_includes sealed_ redacted _ calls comes same.closed include_ directory
          same.paired entries
  -- Here only the first run reads a line, which must be without effect.
  | @drop raw rest kept host _ ih =>
    intro before number keptNumber left right split position flag same
    rw [tokenizeFrom] at split ⊢
    cases fields : tokenizeLine platform raw with
    | none =>
      rw [fields] at split
      exact ih before _ _ left right split position flag same
    | some pair =>
      obtain ⟨keyword, args⟩ := pair
      rw [fields] at split
      rw [lineKeyword, fields, Option.map_some, ne_eq, Option.some.injEq] at host
      have comes : ComesTo platform budget path progress left ⟨number, keyword, args⟩ :=
        ⟨fresh, text, before, _, readable, split, position⟩
      rw [List.foldl_cons]
      -- It lies inside a block, which goes on behind it.
      apply ih (before ++ [⟨number, keyword, args⟩])
      · rw [split, List.append_cons]
      · rw [List.foldl_append, ← position]
        rfl
      · rw [inMatch_absorbStep, if_neg host, flag, ite_self]
      · exact same.deleted sealed_.to_patternless calls comes flag host

/-- A call outside `Match` blocks, over the files and over the edited ones, keeps two runs
paired. -/
theorem paired_parseWithin (sealed_ : Sealed platform root) {edited : String → Option String}
    (redacted : Redacted platform edited) (budget : Nat) :
    ∀ path left, Calls platform root false budget path left →
      ∀ right, Paired platform root left right →
        Paired platform root (parseWithin platform budget path left)
          (parseWithin (platform.withTexts edited) budget path right) := by
  induction budget with
  | zero =>
    intro path left _ right paired
    exact paired.warn _ _
  | succ budget ih =>
    intro path left calls right paired
    obtain ⟨marked, follows⟩ := paired
    by_cases bare : Barren platform path
    · -- A barren file leaves both runs where they were.
      exact ⟨marked, (follows.parseLeft _ bare).parseRight sealed_ redacted _ (.inl bare)⟩
    by_cases isMarked : marked (visitKey platform path)
    · -- The first run has entered the file, and the second gathers nothing from it.
      obtain ⟨member, _⟩ := follows.entered _ isMarked
      rw [parseWithin, if_pos member]
      exact ⟨marked, (follows.warnLeft _).parseRight sealed_ redacted _ (.inr member)⟩
    have off : ∀ other, Barren platform other → visitKey platform other ≠ visitKey platform path :=
      fun other barren same => bare (barren.leads (.inr same))
    -- Otherwise both runs have entered the file or neither has.
    have seen := follows.visited (visitKey platform path) isMarked off
    rw [parseWithin, parseWithin_withTexts]
    by_cases before : visitKey platform path ∈ left.visited
    · rw [if_pos before, if_pos (seen.mp before)]
      exact ⟨marked, follows.warn _ _⟩
    rw [if_neg before, if_neg (mt seen.mpr before)]
    have entered := follows.enter (visitKey platform path)
    -- The texts are read side by side from the same start.
    rcases redacted path with ⟨missing, gone⟩ | ⟨text, kept, original, present, redacts⟩
    · rw [missing, gone]
      exact ⟨marked, entered⟩
    rw [original, present]
    refine Same.flushed (Same.lines sealed_ redacted calls before original ih redacts [] 1 1 _ _ rfl
      rfl rfl ?_)
    exact ⟨⟨marked, entered⟩, rfl, rfl, by simp⟩

end Lockstep

section Leaks

variable {platform : Platform} {root : String}

/-- Closing the open stanza gathers one more stanza if it has a pattern. -/
theorem length_flushed (state : Absorbing) :
    state.flushed.cfg.stanzas.length = state.progress.cfg.stanzas.length +
      if state.current.any (fun stanza => !stanza.patterns.isEmpty) then 1 else 0 := by
  -- A stanza without patterns is not kept.
  obtain ⟨progress, current, inMatch⟩ := state
  cases current with
  | none => rfl
  | some stanza =>
    simp only [Absorbing.flushed, flush, Option.any_some]
    by_cases empty : stanza.patterns.isEmpty = true
    · simp [empty]
    · simp [empty]

/-- A directive takes neither a finished stanza back nor the open one. -/
theorem length_flushed_absorbStep {parseEntry : String → Progress → Progress}
    (entries : ∀ entry progress, Retains progress (parseEntry entry progress)) (file : String)
    (base : Option String) (state : Absorbing) (d : Directive) :
    state.flushed.cfg.stanzas.length ≤
      (absorbStep platform parseEntry file base state d).flushed.cfg.stanzas.length := by
  by_cases host : d.keyword = "host"
  · -- The open stanza is among the finished ones from here on.
    simp only [absorbStep, if_pos host]
    exact (retains_flushed
      ⟨state.flushed, some (Stanza.ofPatterns d.args), false⟩).stanzas.length_le
  by_cases match_ : d.keyword = "match"
  · simp only [absorbStep, if_neg host, if_pos match_]
    exact le_rfl
  -- Otherwise the finished stanzas stay, and the open one is counted as before.
  have kept := (retains_absorbStep platform entries file base state d).stanzas.length_le
  -- Every other directive leaves the patterns of the open stanza alone.
  have patterns : (absorbStep platform parseEntry file base state d).current.any
      (fun stanza => !stanza.patterns.isEmpty) =
        state.current.any (fun stanza => !stanza.patterns.isEmpty) := by
    simp only [absorbStep, if_neg host, if_neg match_]
    split
    · cases base <;> rfl
    split
    · rfl
    split
    · rfl
    · rename_i stanza open_
      split
      · simp only [Option.any_some, patterns_apply, open_]
      · rfl
  rw [length_flushed, length_flushed, patterns]
  omega

/-- The directives of a file take neither a finished stanza back nor the open one. -/
theorem length_flushed_foldl {parseEntry : String → Progress → Progress}
    (entries : ∀ entry progress, Retains progress (parseEntry entry progress)) (file : String)
    (base : Option String) (directives : List Directive) (state : Absorbing) :
    state.flushed.cfg.stanzas.length ≤
      (directives.foldl
        (absorbStep platform parseEntry file base) state).flushed.cfg.stanzas.length := by
  induction directives generalizing state with
  | nil => exact le_rfl
  | cons d rest ih => exact (length_flushed_absorbStep entries file base state d).trans (ih _)

/-- A file with a `Host` line that names a pattern brings a stanza when it is entered. -/
theorem gathers_of_host {budget : Nat} {path : String} {progress : Progress} {state : Absorbing}
    {d : Directive} (comes : ComesTo platform budget path progress state d)
    (host : d.keyword = "host") (named : d.args ≠ []) :
    progress.cfg.stanzas.length <
      (parseWithin platform (budget + 1) path progress).cfg.stanzas.length := by
  have early := comes.retains.1.stanzas.length_le
  have closed := (retains_flushed state).stanzas.length_le
  obtain ⟨fresh, text, before, after, readable, split, position⟩ := comes
  let step := absorbStep platform (parseWithin platform budget) path (parent path)
  -- A pattern makes the stanza count.
  have opened : (step state d).flushed.cfg.stanzas.length =
      state.flushed.cfg.stanzas.length + 1 := by
    rw [length_flushed]
    simp [step, absorbStep, host, Stanza.ofPatterns, named]
  -- The stanza stays, whatever comes behind the line.
  have stays : (step state d).flushed.cfg.stanzas.length ≤
      (after.foldl step (step state d)).flushed.cfg.stanzas.length :=
    length_flushed_foldl (retains_parseWithin platform budget) path (parent path) after _
  have whole : parseWithin platform (budget + 1) path progress =
      (after.foldl step (step state d)).flushed := by
    rw [parseWithin, if_neg fresh, readable, position]
    show absorb platform _ _ path (parent path) _ = _
    rw [absorb, split, List.foldl_append, List.foldl_cons]
  rw [whole]
  omega

/-- What was called for inside a `Match` block lies within one line of such a block. -/
theorem line_of_calls {inside : Bool} {budget : Nat} {path : String} {progress : Progress}
    (calls : Calls platform root inside budget path progress) (within : inside = true) :
    ∃ outer budget' path' progress' state d,
      Calls platform root outer (budget' + 1) path' progress' ∧
        ComesTo platform budget' path' progress' state d ∧ state.inMatch = true ∧
        d.keyword = "include" ∧ Retains state.progress progress ∧
        Retains (parseWithin platform budget path progress)
          (absorbStep platform (parseWithin platform budget') path' (parent path') state
            d).progress := by
  -- The induction is on the includes that lead to the call, from the outermost one on.
  induction calls with
  | root => cases within
  | @entry inside budget path base entry progress reached state d calls comes include_ directory
      enters ih =>
    have host : d.keyword ≠ "host" := by rw [include_]; decide
    have match_ : d.keyword ≠ "match" := by rw [include_]; decide
    obtain ⟨early, late⟩ := enters.retains (retains_parseWithin platform budget)
    -- Behind the call the rest of the line follows.
    have line : Retains (parseWithin platform budget entry reached)
        (absorbStep platform (parseWithin platform budget) path (parent path) state
          d).progress := by
      simp only [absorbStep, if_neg host, if_neg match_, if_pos include_, directory]
      exact late
    by_cases own : state.inMatch = true
    · exact ⟨inside, budget, path, progress, state, d, calls, comes, own, include_, early, line⟩
    · -- Otherwise the file that includes this one was itself called for inside a block.
      have flagged : inside = true := by simpa [own] using within
      obtain ⟨outer, budget', path', progress', state', d', calls', comes', inMatch, include_',
        before, behind⟩ := ih flagged
      obtain ⟨first, last⟩ := comes.retains
      exact ⟨outer, budget', path', progress', state', d', calls', comes', inMatch, include_',
        (before.trans first).trans early, (line.trans last).trans behind⟩

/-- When nothing inside `Match` blocks brings a stanza, no file entered there has one. -/
theorem Isolated.patternless (isolated : Isolated platform root) : Patternless platform root := by
  intro budget path entered text readable d member host
  by_contra named
  obtain ⟨progress, calls, fresh⟩ := entered
  obtain ⟨before, after, split⟩ := List.append_of_mem member
  have reads : ComesTo platform budget path progress _ d :=
    ⟨fresh, text, before, after, readable, split, rfl⟩
  have gathers := gathers_of_host reads host named
  -- The line of the block that the call lies within would gather the stanza too.
  obtain ⟨outer, budget', path', progress', state, line, calls', comes, inMatch, include_, early,
    late⟩ := line_of_calls calls rfl
  have still := (isolated.inert outer budget' path' progress' state line calls' comes inMatch
    (by rw [include_]; decide)).1
  have same := congrArg List.length still
  have first := early.stanzas.length_le
  have last := late.stanzas.length_le
  omega

end Leaks

section Results

/-- Inside a `Match` block no stanza is open. -/
theorem ComesTo.closed {platform : Platform} {budget : Nat} {path : String} {progress : Progress}
    {state : Absorbing} {d : Directive} (comes : ComesTo platform budget path progress state d)
    (inMatch : state.inMatch = true) : state.current = none := by
  obtain ⟨_, text, before, after, _, _, rfl⟩ := comes
  let closed : Absorbing → Prop := fun state => state.inMatch = true → state.current = none
  -- It is so before the first directive, and each of them leaves it so.
  suffices all : closed _ from all inMatch
  refine List.foldlRecOn _ _ (by simp [closed]) ?_
  intro reached shut other _
  unfold absorbStep
  split
  · simp [closed]
  split
  · simp [closed]
  split
  · cases parent path <;> exact shut
  split
  · exact shut
  -- A setting is applied to an open stanza only outside all blocks.
  rename_i outside
  split
  · exact shut
  split
  · exact fun inside => absurd inside outside
  · exact shut

/--
Nothing inside a `Match` block has a part in the stanzas of a config when the files that
are entered for includes there have no stanza, and hide none.

And when nothing inside a `Match` block has a part in the stanzas, then none of the files entered
for includes there has one.
-/
theorem match_isolated (platform : Platform) (root : String) :
    (Sealed platform root → Isolated platform root) ∧
      (Isolated platform root → Patternless platform root) := by
  refine ⟨?_, Isolated.patternless⟩
  intro sealed_
  refine ⟨?_, ?_⟩
  -- Both runs start with nothing entered and nothing gathered, which pairs them.
  · intro edited redacted
    have start : Follows platform root (fun _ => False) ⟨⟨[], []⟩, []⟩ ⟨⟨[], []⟩, []⟩ :=
      ⟨rfl, fun _ _ _ => Iff.rfl, fun _ => False.elim⟩
    obtain ⟨marked, follows⟩ := paired_parseWithin sealed_ redacted (maxIncludeDepth + 1) root _
      .root _ ⟨_, start⟩
    exact follows.stanzas.symm
  -- The directive is absorbed while nothing is open, and opens nothing itself.
  · intro inside budget path progress state d calls comes inMatch host
    have shut := comes.closed inMatch
    obtain ⟨inert, _⟩ := quiet_inMatch sealed_.to_patternless calls comes shut inMatch host
    have flag := inMatch_absorbStep platform (parseWithin platform budget)
      path (parent path) state d
    rw [if_neg host, inMatch, ite_self] at flag
    exact ⟨inert.holds.stanzas, by rw [inert.closed flag, shut]⟩

/-- A `Match` block that includes a file whose stanzas were all gathered before. -/
def settingsInMatch : Platform where
  home := none
  userProfile := none
  unicodeLowercase := id
  canonicalize := some
  readToString path :=
    if path = "/c/config" then some "Include hosts\nMatch all\nInclude extra\nUser x\nHost b\n"
    else if path = "/c/extra" then some "Port 7\nInclude hosts\n"
    else if path = "/c/hosts" then some "Host c\n"
    else none
  isFile path := path == "/c/config" || path == "/c/extra" || path == "/c/hosts"
  readDir _ := none

/-- The same files with the block of the first one emptied. -/
def settingsDeleted (path : String) : Option String :=
  if path = "/c/config" then some "Include hosts\nMatch all\nHost b\n"
  else settingsInMatch.readToString path

/-- A `Match` block that includes a file with a stanza. -/
def stanzaInMatch : Platform where
  home := none
  userProfile := none
  unicodeLowercase := id
  canonicalize := some
  readToString path :=
    if path = "/c/config" then some "Match all\nInclude extra\n"
    else if path = "/c/extra" then some "Host leaked\n"
    else none
  isFile path := path == "/c/config" || path == "/c/extra"
  readDir _ := none

/-- The same files with the block of the first one emptied. -/
def stanzaDeleted (path : String) : Option String :=
  if path = "/c/config" then some "Match all\n"
  else if path = "/c/extra" then some "Host leaked\n"
  else none

/-- A host that exists only through an include inside a `Match` block. -/
theorem match_leaks_included_host :
    Redacted stanzaInMatch stanzaDeleted ∧
      (parseFile stanzaInMatch "/c/config").aliases = ["leaked"] ∧
      (parseFile (stanzaInMatch.withTexts stanzaDeleted) "/c/config").stanzas = [] := by
  -- Only the one file is edited, and what is left of it is what the flag lets through.
  refine ⟨redacted_of_emptied ?_, by decide +kernel, by decide +kernel⟩
  intro path
  by_cases config : path = "/c/config"
  · subst config
    exact .inr ⟨_, _, rfl, rfl, by decide +kernel⟩
  · left
    simp [stanzaInMatch, stanzaDeleted, config]

/-- The calls that the parse of these files makes. -/
def SettingsCall (inside : Bool) (budget : Nat) (path : String) (progress : Progress) : Prop :=
  (inside = false ∧ path = "/c/config" ∧ budget = 17 ∧ progress = ⟨⟨[], []⟩, []⟩) ∨
    (inside = false ∧ path = "/c/hosts") ∨
    (path = "/c/extra" ∧ budget = 16 ∧ components "/c/hosts" ∈ progress.visited) ∨
    (path = "/c/hosts" ∧ components "/c/hosts" ∈ progress.visited)

/-- An include of the config is its first line or the one inside the block. -/
theorem settingsCall_config {state : Absorbing} {d : Directive}
    (comes : ComesTo settingsInMatch 16 "/c/config" ⟨⟨[], []⟩, []⟩ state d)
    (include_ : d.keyword = "include") :
    (d.args = ["hosts"] ∧ state.inMatch = false) ∨
      (d.args = ["extra"] ∧ components "/c/hosts" ∈ state.progress.visited) := by
  obtain ⟨_, text, before, after, readable, split, rfl⟩ := comes
  obtain rfl := Option.some.inj readable
  have lines : tokenize settingsInMatch
      "Include hosts\nMatch all\nInclude extra\nUser x\nHost b\n" =
        [⟨1, "include", ["hosts"]⟩, ⟨2, "match", ["all"]⟩, ⟨3, "include", ["extra"]⟩,
          ⟨4, "user", ["x"]⟩, ⟨5, "host", ["b"]⟩] := by
    decide +kernel
  rw [lines] at split
  -- One case for each line that may be the one come to.
  match before, split with
  | [], split =>
    obtain ⟨rfl, _⟩ := List.cons.inj split
    exact .inl ⟨rfl, rfl⟩
  | [_], split =>
    simp only [List.cons_append, List.nil_append, List.cons.injEq] at split
    rw [← split.2.1] at include_
    exact absurd include_ (by decide)
  | [first, second], split =>
    simp only [List.cons_append, List.nil_append, List.cons.injEq] at split
    obtain ⟨rfl, rfl, rfl, _⟩ := split
    exact .inr ⟨rfl, by decide +kernel⟩
  | [_, _, _], split =>
    simp only [List.cons_append, List.nil_append, List.cons.injEq] at split
    rw [← split.2.2.2.1] at include_
    exact absurd include_ (by decide)
  | [_, _, _, _], split =>
    simp only [List.cons_append, List.nil_append, List.cons.injEq] at split
    rw [← split.2.2.2.2.1] at include_
    exact absurd include_ (by decide)
  | _ :: _ :: _ :: _ :: _ :: more, split =>
    simp at split

/-- A file with host lines only includes nothing. -/
theorem settingsCall_hosts {budget : Nat} {progress : Progress} {state : Absorbing} {d : Directive}
    (comes : ComesTo settingsInMatch budget "/c/hosts" progress state d) :
    d.keyword ≠ "include" := by
  -- The file is tokenized to its only line.
  obtain ⟨_, text, before, after, readable, split, _⟩ := comes
  obtain rfl := Option.some.inj readable
  have listed : d ∈ tokenize settingsInMatch "Host c\n" := by rw [split]; simp
  rw [show tokenize settingsInMatch "Host c\n" = [⟨1, "host", ["c"]⟩] by decide +kernel,
    List.mem_singleton] at listed
  rw [listed]
  decide

/-- These are all of them. -/
theorem settingsCall_of_calls {inside : Bool} {budget : Nat} {path : String} {progress : Progress}
    (calls : Calls settingsInMatch "/c/config" inside budget path progress) :
    SettingsCall inside budget path progress := by
  induction calls with
  | root => exact .inl ⟨rfl, rfl, rfl, rfl⟩
  | @entry inside budget path base entry progress reached state d calls comes include_ directory
      enters ih =>
    have named := enters.named
    obtain ⟨early, _⟩ := enters.retains (retains_parseWithin settingsInMatch budget)
    rcases ih with ⟨rfl, rfl, count, rfl⟩ | ⟨rfl, rfl⟩ | ⟨rfl, count, seen⟩ | ⟨rfl, seen⟩
    · -- The config itself includes the hosts, and inside the block the extra file.
      obtain rfl : budget = 16 := by omega
      rw [← directory] at named
      rcases settingsCall_config comes include_ with ⟨args, flag⟩ | ⟨args, seen⟩
      · rw [args, show includedFiles settingsInMatch (parent "/c/config") ["hosts"] =
          ["/c/hosts"] by decide +kernel, List.mem_singleton] at named
        exact .inr (.inl ⟨by rw [flag]; rfl, named⟩)
      · rw [args, show includedFiles settingsInMatch (parent "/c/config") ["extra"] =
          ["/c/extra"] by decide +kernel, List.mem_singleton] at named
        exact .inr (.inr (.inl ⟨named, rfl, early.visited seen⟩))
    · exact absurd include_ (settingsCall_hosts comes)
    · -- The file of the block includes the hosts again, which were entered before it.
      have visited := early.visited (comes.retains.1.visited seen)
      obtain ⟨_, text, before, after, readable, split, _⟩ := comes
      obtain rfl := Option.some.inj readable
      have listed : d ∈ tokenize settingsInMatch "Port 7\nInclude hosts\n" := by rw [split]; simp
      rw [show tokenize settingsInMatch "Port 7\nInclude hosts\n" =
        [⟨1, "port", ["7"]⟩, ⟨2, "include", ["hosts"]⟩] by decide +kernel] at listed
      simp only [List.mem_cons, List.not_mem_nil, or_false] at listed
      rcases listed with rfl | rfl
      · exact absurd include_ (by decide)
      · rw [← directory, show includedFiles settingsInMatch (parent "/c/extra") ["hosts"] =
          ["/c/hosts"] by decide +kernel, List.mem_singleton] at named
        exact .inr (.inr (.inr ⟨named, visited⟩))
    · exact absurd include_ (settingsCall_hosts comes)

/-- The file that the block includes brings no stanza, so emptying the block changes none. -/
theorem match_isolated_settings :
    (parseFile (settingsInMatch.withTexts settingsDeleted) "/c/config").stanzas =
        (parseFile settingsInMatch "/c/config").stanzas ∧
      (parseFile settingsInMatch "/c/config").aliases = ["c", "b"] := by
  -- The only file entered inside the block is the one that it names.
  have extra : ∀ {budget path}, EnteredInMatch settingsInMatch "/c/config" budget path →
      budget = 15 ∧ path = "/c/extra" := by
    intro budget path entered
    obtain ⟨progress, calls, fresh⟩ := entered
    rcases settingsCall_of_calls calls with ⟨flag, _⟩ | ⟨flag, _⟩ | ⟨rfl, count, _⟩ | ⟨rfl, seen⟩
    · cases flag
    · cases flag
    · exact ⟨by omega, rfl⟩
    · exact absurd seen fresh
  -- Under no other spelling is there a file to be read in its place.
  have texts : ∀ {other text}, components other = components "/c/extra" →
      settingsInMatch.readToString other = some text →
        other = "/c/extra" ∧ text = "Port 7\nInclude hosts\n" := by
    intro other text same present
    simp only [settingsInMatch] at present
    split_ifs at present with config spelled hosts
    · rw [config] at same
      exact absurd same (by decide +kernel)
    · exact ⟨spelled, (Option.some.inj present).symm⟩
    · rw [hosts] at same
      exact absurd same (by decide +kernel)
  -- That file has no `Host` line, and what it includes was entered before.
  have sealed_ : Sealed settingsInMatch "/c/config" := by
    refine ⟨?_, ?_⟩
    · intro budget path other entered same text present d member host
      obtain ⟨_, rfl⟩ := extra entered
      obtain ⟨_, rfl⟩ := texts same present
      rw [show tokenize settingsInMatch "Port 7\nInclude hosts\n" =
        [⟨1, "port", ["7"]⟩, ⟨2, "include", ["hosts"]⟩] by decide +kernel] at member
      simp only [List.mem_cons, List.not_mem_nil, or_false] at member
      rcases member with rfl | rfl
      · exact absurd host (by decide)
      · exact absurd host (by decide)
    · intro budget path other entry entered same includes
      obtain ⟨rfl, rfl⟩ := extra entered
      obtain ⟨text, d, present, rest⟩ := includes
      obtain ⟨rfl, rfl⟩ := texts same present
      exact .inr ⟨by decide, entry, ⟨_, d, present, rest⟩, rfl⟩
  -- Emptying the block deletes lines inside it only.
  have isolated := (match_isolated settingsInMatch "/c/config").1 sealed_
  refine ⟨isolated.stanzas settingsDeleted (redacted_of_emptied ?_), by decide +kernel⟩
  intro path
  by_cases config : path = "/c/config"
  · subst config
    exact .inr ⟨_, _, rfl, rfl, by decide +kernel⟩
  · left
    simp [settingsDeleted, config]

end Results

end Tern.SshConfig
