import Tern.SshConfig.Parse

/-! Files from which some lines inside `Match` blocks were deleted. -/

namespace Tern.SshConfig

variable (platform : Platform)

section Blocks

/-- The keyword of a line that holds a directive. -/
def lineKeyword (raw : String) : Option String :=
  (tokenizeLine platform raw).map Prod.fst

/-- Whether what follows a line lies inside a `Match` block. -/
def matchAfter (inMatch : Bool) (raw : String) : Bool :=
  if lineKeyword platform raw = some "host" then false
  else if lineKeyword platform raw = some "match" then true
  else inMatch

/-- The second lines are the first with some lines inside `Match` blocks deleted. -/
inductive Redacts : Bool → List String → List String → Prop
  | nil {inMatch : Bool} : Redacts inMatch [] []
  | keep {inMatch : Bool} {raw : String} {rest kept : List String} :
      Redacts (matchAfter platform inMatch raw) rest kept →
        Redacts inMatch (raw :: rest) (raw :: kept)
  | drop {raw : String} {rest kept : List String} : lineKeyword platform raw ≠ some "host" →
      Redacts true rest kept → Redacts true (raw :: rest) kept

/-- The lines outside `Match` blocks, with the `Match` lines that open them. -/
def outsideMatch : Bool → List String → List String
  | _, [] => []
  | inMatch, raw :: rest =>
    if inMatch = true ∧ lineKeyword platform raw ≠ some "host" then outsideMatch true rest
    else raw :: outsideMatch (matchAfter platform inMatch raw) rest

/-- The platform with other texts in its files. -/
def Platform.withTexts (edited : String → Option String) : Platform :=
  { platform with readToString := edited }

/-- Tokenizing does not look at files. -/
theorem tokenize_withTexts (edited : String → Option String) (text : String) :
    tokenize (platform.withTexts edited) text = tokenize platform text := by
  -- A line is tokenized by its characters alone, on any platform.
  have general : ∀ (raws : List String) (number : Nat),
      tokenizeFrom (platform.withTexts edited) number raws = tokenizeFrom platform number raws := by
    intro raws
    induction raws with
    | nil => intro number; rfl
    | cons raw rest ih =>
      intro number
      rw [tokenizeFrom, tokenizeFrom, ih]
      rfl
  exact general _ 1

/-- Parsing over other texts follows the same rules otherwise. -/
theorem parseWithin_withTexts (edited : String → Option String) (budget : Nat) (path : String)
    (progress : Progress) :
    parseWithin (platform.withTexts edited) (budget + 1) path progress =
      if visitKey platform path ∈ progress.visited then progress.warn (.includeCycle path 0)
      else match edited path with
        | none => { progress with visited := visitKey platform path :: progress.visited }
        | some text =>
          absorb platform (parseWithin (platform.withTexts edited) budget) (tokenize platform text)
            path (parent path)
            { progress with visited := visitKey platform path :: progress.visited } := by
  rw [parseWithin]
  -- Only reading a file sees the edited texts.
  simp only [tokenize_withTexts]
  rfl

/-- Every file is as before, or has lost some lines inside its `Match` blocks. -/
def Redacted (edited : String → Option String) : Prop :=
  ∀ path, (platform.readToString path = none ∧ edited path = none) ∨
    ∃ text kept, platform.readToString path = some text ∧ edited path = some kept ∧
      Redacts platform false (Text.lines text) (Text.lines kept)

variable {platform}

/-- Lines with nothing deleted. -/
theorem Redacts.refl (inMatch : Bool) (raws : List String) :
    Redacts platform inMatch raws raws := by
  induction raws generalizing inMatch with
  | nil => exact .nil
  | cons raw rest ih => exact .keep (ih _)

/-- Deleting every line inside `Match` blocks is one way of deleting some. -/
theorem redacts_outsideMatch (inMatch : Bool) (raws : List String) :
    Redacts platform inMatch raws (outsideMatch platform inMatch raws) := by
  -- Each line is either outside and kept, or inside and dropped.
  induction raws generalizing inMatch with
  | nil => exact .nil
  | cons raw rest ih =>
    rw [outsideMatch]
    split
    · rename_i inside
      rw [inside.1]
      exact .drop inside.2 (ih true)
    · exact .keep (ih _)

/-- Deleting lines brings no new ones. -/
theorem Redacts.subset {inMatch : Bool} {raws kept : List String}
    (redacts : Redacts platform inMatch raws kept) : kept ⊆ raws := by
  induction redacts with
  | nil => exact List.Subset.refl _
  | keep _ ih => exact List.cons_subset_cons _ ih
  | drop _ _ ih => exact List.subset_cons_of_subset _ ih

/-- A tree is redacted when each file is untouched or has its `Match` blocks emptied. -/
theorem redacted_of_emptied {edited : String → Option String}
    (each : ∀ path, edited path = platform.readToString path ∨
      ∃ text kept, platform.readToString path = some text ∧ edited path = some kept ∧
        Text.lines kept = outsideMatch platform false (Text.lines text)) :
    Redacted platform edited := by
  -- An untouched file is one of which nothing was deleted.
  intro path
  rcases each path with same | ⟨text, kept, original, present, emptied⟩
  · rw [same]
    cases platform.readToString path with
    | none => exact .inl ⟨rfl, rfl⟩
    | some text => exact .inr ⟨text, text, rfl, rfl, Redacts.refl _ _⟩
  · refine .inr ⟨text, kept, original, present, ?_⟩
    rw [emptied]
    exact redacts_outsideMatch _ _

/-- Every directive is that of some line. -/
theorem line_of_mem_tokenizeFrom {number : Nat} {raws : List String} {d : Directive}
    (member : d ∈ tokenizeFrom platform number raws) :
    ∃ raw ∈ raws, tokenizeLine platform raw = some (d.keyword, d.args) := by
  induction raws generalizing number with
  | nil => simp [tokenizeFrom] at member
  | cons raw rest ih =>
    -- A directive that does not come from this line comes from a later one.
    have behind : d ∈ tokenizeFrom platform (number + 1) rest →
        ∃ other ∈ raw :: rest, tokenizeLine platform other = some (d.keyword, d.args) := by
      intro later
      obtain ⟨other, listed, fields⟩ := ih later
      exact ⟨other, List.mem_cons_of_mem _ listed, fields⟩
    rw [tokenizeFrom] at member
    cases fields : tokenizeLine platform raw with
    | none =>
      rw [fields] at member
      exact behind member
    | some pair =>
      rw [fields] at member
      rcases List.mem_cons.mp member with rfl | later
      · -- The directive of this line is told by this line.
        exact ⟨raw, List.mem_cons_self, fields⟩
      · exact behind later

/-- Every line with a keyword is that of some directive. -/
theorem mem_tokenizeFrom_of_line {number : Nat} {raws : List String} {raw keyword : String}
    {args : List String} (listed : raw ∈ raws)
    (fields : tokenizeLine platform raw = some (keyword, args)) :
    ∃ d ∈ tokenizeFrom platform number raws, d.keyword = keyword ∧ d.args = args := by
  -- A line gives its directive wherever it stands, and the lines before it only count.
  induction raws generalizing number with
  | nil => cases listed
  | cons first rest ih =>
    rw [tokenizeFrom]
    rcases List.mem_cons.mp listed with rfl | later
    · rw [fields]
      exact ⟨_, List.mem_cons_self, rfl, rfl⟩
    · obtain ⟨d, member, same⟩ : ∃ d ∈ tokenizeFrom platform (number + 1) rest,
          d.keyword = keyword ∧ d.args = args := ih later
      cases tokenizeLine platform first with
      | none => exact ⟨d, member, same⟩
      | some pair => exact ⟨d, List.mem_cons_of_mem _ member, same⟩

/-- What is left of a text has no directive that the text had not. -/
theorem Redacts.directive {text kept : String}
    (redacts : Redacts platform false (Text.lines text) (Text.lines kept)) {d : Directive}
    (member : d ∈ tokenize platform kept) :
    ∃ e ∈ tokenize platform text, e.keyword = d.keyword ∧ e.args = d.args := by
  obtain ⟨raw, listed, fields⟩ := line_of_mem_tokenizeFrom member
  exact mem_tokenizeFrom_of_line (redacts.subset listed) fields

end Blocks

end Tern.SshConfig
