import Tern.SshConfig.Expand

/-! The calls that a parse makes, the lines that it reads, and what it never takes back. -/

namespace Tern.SshConfig

section Loops

variable {α β γ : Type*}

/-- What holds of no items, and goes from some first items on to one more, holds of all. -/
theorem prefix_ind {motive : List α → Prop} {items : List α} (start : motive [])
    (one : ∀ before item after, items = before ++ item :: after → motive before →
      motive (before ++ [item])) : motive items := by
  -- The items done so far grow at one end while the rest shrinks at the other.
  have general : ∀ rest before, items = before ++ rest → motive before → motive items := by
    intro rest
    induction rest with
    | nil =>
      intro before split held
      rw [split, List.append_nil]
      exact held
    | cons item rest ih =>
      intro before split held
      apply ih (before ++ [item])
      · rw [split, List.append_cons]
      · exact one before item rest split held
  exact general items [] rfl start

/-- Two loops over the same items stay related when each of their steps relates what it reaches. -/
theorem foldl_rel_before {relation : β → γ → Prop} {step : β → α → β} {other : γ → α → γ}
    {items : List α} {left : β} {right : γ} (start : relation left right)
    (one : ∀ before item after, items = before ++ item :: after → ∀ reached,
      relation (before.foldl step left) reached →
        relation (step (before.foldl step left) item) (other reached item)) :
    relation (items.foldl step left) (items.foldl other right) := by
  -- A step may depend on where its loop stands, so the items done so far are kept.
  let related : List α → Prop := fun before =>
    relation (before.foldl step left) (before.foldl other right)
  have all : related items := by
    refine prefix_ind start ?_
    intro before item after split held
    have next := one before item after split _ held
    simp only [related, List.foldl_append]
    exact next
  exact all

end Loops

section Calls

variable (platform : Platform)

/-- An include line comes to one of the files it names, with the patterns and files before done. -/
def EntersFrom (parseEntry : String → Progress → Progress) (base : String) (line : Nat)
    (file : String) (args : List String) (start : Progress) (entry : String) (reached : Progress) :
    Prop :=
  ∃ patterns pattern rest files others,
    args = patterns ++ pattern :: rest ∧
      globPaths platform (includeTarget platform base pattern) = files ++ entry :: others ∧
      reached = files.foldl (fun reached entry => parseEntry entry reached)
        (patterns.foldl (fun reached pattern =>
          include_ platform parseEntry pattern base line file reached) start)

/-- A call enters its file, and comes to one of the directives there. -/
def ComesTo (budget : Nat) (path : String) (progress : Progress) (state : Absorbing)
    (d : Directive) : Prop :=
  visitKey platform path ∉ progress.visited ∧
    ∃ text before after, platform.readToString path = some text ∧
      tokenize platform text = before ++ d :: after ∧
      state = before.foldl (absorbStep platform (parseWithin platform budget) path (parent path))
        ⟨{ progress with visited := visitKey platform path :: progress.visited }, none, false⟩

/--
The parse of a config calls for a file, with what may still nest and what it has gathered.

The flag tells whether an include inside a `Match` block led to the call.
-/
inductive Calls (root : String) : Bool → Nat → String → Progress → Prop
  | root : Calls root false (maxIncludeDepth + 1) root ⟨⟨[], []⟩, []⟩
  | entry {inside : Bool} {budget : Nat} {path base entry : String} {progress reached : Progress}
      {state : Absorbing} {d : Directive} :
      Calls root inside (budget + 1) path progress →
        ComesTo platform budget path progress state d → d.keyword = "include" →
        parent path = some base →
        EntersFrom platform (parseWithin platform budget) base d.line path d.args state.progress
          entry reached →
        Calls root (inside || state.inMatch) budget entry reached

end Calls

section Includes

variable {platform : Platform}

/-- What an include line comes to is one of the files that it names. -/
theorem EntersFrom.named {parseEntry : String → Progress → Progress} {base file entry : String}
    {line : Nat} {args : List String} {start reached : Progress}
    (enters : EntersFrom platform parseEntry base line file args start entry reached) :
    entry ∈ includedFiles platform (some base) args := by
  -- The file is in front of the ones still to come from its pattern.
  obtain ⟨patterns, pattern, rest, files, others, rfl, found, _⟩ := enters
  apply List.mem_flatMap.mpr
  refine ⟨pattern, by simp, ?_⟩
  rw [found]
  simp

/-- Every file that an include line names is come to at some moment. -/
theorem enters_of_named {parseEntry : String → Progress → Progress} {base file entry : String}
    {line : Nat} {args : List String} {start : Progress}
    (named : entry ∈ includedFiles platform (some base) args) :
    ∃ reached, EntersFrom platform parseEntry base line file args start entry reached := by
  obtain ⟨pattern, listed, found⟩ := List.mem_flatMap.mp named
  obtain ⟨patterns, rest, args_⟩ := List.append_of_mem listed
  obtain ⟨files, others, files_⟩ := List.append_of_mem found
  exact ⟨_, patterns, pattern, rest, files, others, args_, files_, rfl⟩

/-- What every file that an include names keeps between two runs, the whole include keeps. -/
theorem include_rel (relation : Progress → Progress → Prop)
    (warns : ∀ left right leftWarning rightWarning, relation left right →
      relation (left.warn leftWarning) (right.warn rightWarning))
    (leftEntry rightEntry : String → Progress → Progress) {base file : String}
    {leftLine : Nat} (rightLine : Nat) {args : List String} (left right : Progress)
    (related : relation left right)
    (entries : ∀ entry reached,
      EntersFrom platform leftEntry base leftLine file args left entry reached →
        ∀ other, relation reached other →
          relation (leftEntry entry reached) (rightEntry entry other)) :
    relation
      (args.foldl (fun reached pattern =>
        include_ platform leftEntry pattern base leftLine file reached) left)
      (args.foldl (fun reached pattern =>
        include_ platform rightEntry pattern base rightLine file reached) right) := by
  apply foldl_rel_before related
  intro patterns pattern rest split reached related
  unfold include_
  cases found : globPaths platform (includeTarget platform base pattern) with
  | nil => exact warns _ _ _ _ related
  | cons first others =>
    -- The files of one pattern are a loop of their own.
    apply foldl_rel_before related
    intro files entry others here other related
    apply entries _ _ _ _ related
    refine ⟨patterns, pattern, rest, files, others, split, found.trans here, ?_⟩
    rfl

/-- What every file that an include names keeps in one run, the whole include keeps. -/
theorem include_ind {holds : Progress → Prop}
    (warns : ∀ progress warning, holds progress → holds (progress.warn warning))
    {parseEntry : String → Progress → Progress} {base file : String} {line : Nat}
    {args : List String} {start : Progress} (held : holds start)
    (entries : ∀ entry reached,
      EntersFrom platform parseEntry base line file args start entry reached →
        holds reached → holds (parseEntry entry reached)) :
    holds (args.foldl (fun reached pattern =>
      include_ platform parseEntry pattern base line file reached) start) := by
  -- The relation looks at the first run only, so the second may be the same one.
  refine include_rel (fun reached _ => holds reached) (fun _ _ _ _ => warns _ _) parseEntry
    parseEntry line start start held ?_
  intro entry reached enters _ held
  exact entries entry reached enters held

end Includes

section Retention

/-- Nothing that was gathered or entered is taken back. -/
structure Retains (before after : Progress) : Prop where
  stanzas : before.cfg.stanzas <+: after.cfg.stanzas
  visited : before.visited ⊆ after.visited

/-- A parse that stands still takes nothing back. -/
theorem Retains.refl (progress : Progress) : Retains progress progress :=
  ⟨List.prefix_rfl, List.Subset.refl _⟩

/-- What is kept first and then again is kept throughout. -/
theorem Retains.trans {first second third : Progress} (early : Retains first second)
    (late : Retains second third) : Retains first third :=
  ⟨early.stanzas.trans late.stanzas, List.Subset.trans early.visited late.visited⟩

/-- A warning takes nothing back. -/
theorem Retains.warn {before after : Progress} (grows : Retains before after) (warning : Warning) :
    Retains before (after.warn warning) :=
  ⟨grows.stanzas, grows.visited⟩

/-- Entering a file takes nothing back. -/
theorem retains_enter (progress : Progress) (key : List Component) :
    Retains progress { progress with visited := key :: progress.visited } :=
  ⟨List.prefix_rfl, List.subset_cons_self _ _⟩

/-- Closing the open stanza takes nothing back. -/
theorem retains_flushed (state : Absorbing) : Retains state.progress state.flushed := by
  -- The stanza goes behind those that are there, if it has a pattern at all.
  refine ⟨?_, List.Subset.refl _⟩
  simp only [Absorbing.flushed, flush]
  cases state.current with
  | none => exact List.prefix_rfl
  | some stanza =>
    simp only
    split
    · exact List.prefix_rfl
    · exact List.prefix_append _ _

/-- A loop whose steps take nothing back takes nothing back. -/
theorem retains_foldl {α : Type*} {step : Progress → α → Progress}
    (one : ∀ item progress, Retains progress (step progress item)) (items : List α)
    (progress : Progress) : Retains progress (items.foldl step progress) := by
  induction items generalizing progress with
  | nil => exact .refl progress
  | cons item rest ih => exact (one item progress).trans (ih _)

section Entries

variable (platform : Platform) {parseEntry : String → Progress → Progress}

/-- One include pattern takes nothing back. -/
theorem retains_include_ (entries : ∀ entry progress, Retains progress (parseEntry entry progress))
    (pattern base : String) (line : Nat) (file : String) (progress : Progress) :
    Retains progress (include_ platform parseEntry pattern base line file progress) := by
  unfold include_
  split
  · exact (Retains.refl progress).warn _
  · exact retains_foldl entries _ progress

/-- One directive takes nothing back. -/
theorem retains_absorbStep (entries : ∀ entry progress,
    Retains progress (parseEntry entry progress))
    (file : String) (base : Option String) (state : Absorbing) (d : Directive) :
    Retains state.progress (absorbStep platform parseEntry file base state d).progress := by
  -- The cases are those of the keyword, as the parser distinguishes them.
  unfold absorbStep
  split
  · -- A `Host` and a `Match` line put the open stanza among the finished ones.
    exact retains_flushed state
  split
  · exact (retains_flushed state).warn _
  split
  · -- An include line only adds what its files bring.
    cases base with
    | none => exact (Retains.refl _).warn _
    | some base =>
      exact retains_foldl (fun pattern progress =>
        retains_include_ platform entries pattern base d.line file progress) d.args state.progress
  split
  · exact .refl _
  split
  · exact .refl _
  split
  · exact .refl _
  · exact (Retains.refl _).warn _

/-- The directives of a file take nothing back. -/
theorem retains_directives (entries : ∀ entry progress,
    Retains progress (parseEntry entry progress))
    (file : String) (base : Option String) (directives : List Directive) (state : Absorbing) :
    Retains state.progress
      (directives.foldl (absorbStep platform parseEntry file base) state).progress := by
  induction directives generalizing state with
  | nil => exact .refl _
  | cons d rest ih => exact (retains_absorbStep platform entries file base state d).trans (ih _)

variable {platform} in
/-- An include line has taken nothing back when it comes to a file, and takes nothing back after. -/
theorem EntersFrom.retains (entries : ∀ entry progress,
    Retains progress (parseEntry entry progress))
    {base file entry : String} {line : Nat} {args : List String} {start reached : Progress}
    (enters : EntersFrom platform parseEntry base line file args start entry reached) :
    Retains start reached ∧ Retains (parseEntry entry reached)
      (args.foldl (fun reached pattern =>
        include_ platform parseEntry pattern base line file reached) start) := by
  obtain ⟨patterns, pattern, rest, files, others, rfl, found, rfl⟩ := enters
  have each := fun pattern progress =>
    retains_include_ platform entries pattern base line file progress
  constructor
  · -- Before the file stand the earlier patterns, and the earlier files of its own.
    exact (retains_foldl each patterns start).trans (retains_foldl entries files _)
  · -- What is left are the other files of the pattern, and then the other patterns.
    rw [List.foldl_append, List.foldl_cons]
    refine Retains.trans ?_ (retains_foldl each rest _)
    unfold include_
    rw [found]
    cases files with
    | nil => exact retains_foldl entries others _
    | cons first files =>
      simp only [List.cons_append]
      rw [← List.cons_append, List.foldl_append, List.foldl_cons]
      exact retains_foldl entries others _

end Entries

variable (platform : Platform)

/-- A call takes nothing back. -/
theorem retains_parseWithin (budget : Nat) :
    ∀ path progress, Retains progress (parseWithin platform budget path progress) := by
  -- A call enters its file, reads it and closes its stanza, and none of that takes anything back.
  induction budget with
  | zero =>
    intro path progress
    exact (Retains.refl progress).warn _
  | succ budget ih =>
    intro path progress
    rw [parseWithin]
    split
    · exact (Retains.refl progress).warn _
    cases platform.readToString path with
    | none => exact retains_enter progress _
    | some text =>
      have read := retains_directives platform ih path (parent path) (tokenize platform text)
        ⟨{ progress with visited := visitKey platform path :: progress.visited }, none, false⟩
      exact ((retains_enter progress _).trans read).trans (retains_flushed _)

variable {platform} in
/-- A call that comes to a directive has taken nothing back, and takes nothing back behind it. -/
theorem ComesTo.retains {budget : Nat} {path : String} {progress : Progress} {state : Absorbing}
    {d : Directive} (reads : ComesTo platform budget path progress state d) :
    Retains progress state.progress ∧
      Retains (absorbStep platform (parseWithin platform budget) path (parent path)
        state d).progress (parseWithin platform (budget + 1) path progress) := by
  -- The directives in front have been absorbed, and the ones behind are still to come.
  obtain ⟨fresh, text, before, after, readable, split, rfl⟩ := reads
  have onward := retains_directives platform
    (retains_parseWithin platform budget) path (parent path)
  have read := onward before
    ⟨{ progress with visited := visitKey platform path :: progress.visited }, none, false⟩
  refine ⟨(retains_enter progress _).trans read, ?_⟩
  rw [parseWithin, if_neg fresh, readable]
  show Retains _ (absorb platform _ _ path (parent path) _)
  rw [absorb, split, List.foldl_append, List.foldl_cons]
  exact (onward after _).trans (retains_flushed _)

end Retention

end Tern.SshConfig
