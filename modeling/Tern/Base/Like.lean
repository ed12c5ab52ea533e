import Mathlib.Data.List.Infix

/-! Patterns with an escape: what they match, and how a text is written to match itself alone. -/

namespace Like

variable {α β : Type*} [DecidableEq β]

/-- One symbol of a pattern. -/
inductive Symbol (α : Type*) where
  /-- Any run of letters. -/
  | many
  /-- Any one letter. -/
  | one
  | letter (value : α)
  deriving DecidableEq, Repr

/-- The letters that have a role in the patterns of a language. -/
structure Signs (α : Type*) where
  many : α
  one : α
  escape : α
  deriving DecidableEq, Repr

/-- The symbols of a pattern, which may not end in an escape. -/
def symbols [DecidableEq α] (signs : Signs α) : List α → Option (List (Symbol α))
  | [] => some []
  | [last] =>
    if last = signs.escape then none
    else some [if last = signs.many then .many else if last = signs.one then .one else .letter last]
  | first :: second :: rest =>
    -- An escape stands for the letter behind it, whatever role that has.
    if first = signs.escape then (symbols signs rest).map (.letter second :: ·)
    else (symbols signs (second :: rest)).map
      ((if first = signs.many then .many
        else if first = signs.one then .one else .letter first) :: ·)

/-- Whether a word is one that some symbols stand for, with letters compared by what they fold
to. -/
def isMatch (fold : α → β) : List (Symbol α) → List α → Bool
  | [], word => word.isEmpty
  | .many :: rest, word => word.tails.any (isMatch fold rest)
  | .one :: _, [] => false
  | .one :: rest, _ :: word => isMatch fold rest word
  | .letter _ :: _, [] => false
  | .letter value :: rest, head :: word => decide (fold head = fold value) && isMatch fold rest word

/-- Whether a pattern matches a word, which none does that ends in an escape. -/
def like [DecidableEq α] (signs : Signs α) (fold : α → β) (pattern word : List α) : Bool :=
  (symbols signs pattern).any fun read => isMatch fold read word

/-- A text with every letter escaped that would have a role. -/
def escaped [DecidableEq α] (signs : Signs α) (text : List α) : List α :=
  text.flatMap fun letter =>
    if letter = signs.many ∨ letter = signs.one ∨ letter = signs.escape then
      [signs.escape, letter]
    else [letter]

section Laws

variable {signs : Signs α} {fold : α → β}

/-- Any run of letters may stand in front of what else is matched. -/
theorem isMatch_many (rest : List (Symbol α)) (word : List α) :
    isMatch fold (.many :: rest) word = true ↔
      ∃ front back, word = front ++ back ∧ isMatch fold rest back = true := by
  -- The matcher tries every tail, and the tails are what may stand behind some front.
  rw [isMatch, List.any_eq_true]
  constructor
  · rintro ⟨back, tail, found⟩
    obtain ⟨front, whole⟩ := (List.mem_tails _ _).mp tail
    exact ⟨front, back, whole.symm, found⟩
  · rintro ⟨front, back, rfl, found⟩
    exact ⟨back, (List.mem_tails _ _).mpr (List.suffix_append front back), found⟩

/-- Letters match a run of letters that fold to the same, in front of what else is matched. -/
theorem isMatch_letters (text : List α) (rest : List (Symbol α)) (word : List α) :
    isMatch fold (text.map .letter ++ rest) word = true ↔
      ∃ front back, word = front ++ back ∧ front.map fold = text.map fold ∧
        isMatch fold rest back = true := by
  -- Letter by letter, the front of the word is given to the text that is matched.
  induction text generalizing word with
  | nil => simp
  | cons letter text ih =>
    cases word with
    | nil => simp [isMatch]
    | cons head word =>
      rw [List.map_cons, List.cons_append, isMatch, Bool.and_eq_true, decide_eq_true_iff, ih]
      constructor
      · rintro ⟨same, front, back, rfl, folded, found⟩
        exact ⟨head :: front, back, rfl, by rw [List.map_cons, List.map_cons, same, folded], found⟩
      · rintro ⟨front, back, whole, folded, found⟩
        cases front with
        | nil => cases folded
        | cons first front =>
          cases whole
          rw [List.map_cons, List.map_cons, List.cons.injEq] at folded
          exact ⟨folded.1, front, back, rfl, folded.2, found⟩

section Reading

variable [DecidableEq α]

/-- The symbol a letter stands for that nothing escapes. -/
def plain (signs : Signs α) (letter : α) : Symbol α :=
  if letter = signs.many then .many else if letter = signs.one then .one else .letter letter

/-- A letter that is no escape is read by itself. -/
theorem symbols_cons {letter : α} (other : letter ≠ signs.escape) (rest : List α) :
    symbols signs (letter :: rest) = (symbols signs rest).map (plain signs letter :: ·) := by
  cases rest with
  | nil => simp [symbols, other, plain]
  | cons second rest => simp [symbols, other, plain]

/-- An escape makes a letter of what is behind it. -/
theorem symbols_escape (letter : α) (rest : List α) :
    symbols signs (signs.escape :: letter :: rest) =
      (symbols signs rest).map (.letter letter :: ·) := by
  simp [symbols]

/-- An escaped text is read as its own letters. -/
theorem symbols_escaped (text rest : List α) :
    symbols signs (escaped signs text ++ rest) =
      (symbols signs rest).map (text.map .letter ++ ·) := by
  -- Letter by letter: one with a role of its own has the escape before it.
  induction text with
  | nil => simp [escaped]
  | cons letter text ih =>
    rw [escaped, List.flatMap_cons, List.append_assoc]
    have onward : symbols signs (text.flatMap (fun letter =>
        if letter = signs.many ∨ letter = signs.one ∨ letter = signs.escape then
          [signs.escape, letter] else [letter]) ++ rest) =
        (symbols signs rest).map (text.map .letter ++ ·) := ih
    split
    · -- The escape takes the letter's role away.
      rw [List.cons_append, List.cons_append, List.nil_append, symbols_escape, onward,
        Option.map_map]
      rfl
    · next ordinary =>
      -- A letter without a role stands for itself.
      obtain ⟨notMany, notOne, notEscape⟩ : letter ≠ signs.many ∧ letter ≠ signs.one ∧
          letter ≠ signs.escape := by simpa [not_or] using ordinary
      rw [List.cons_append, List.nil_append, symbols_cons notEscape, onward, Option.map_map, plain,
        if_neg notMany, if_neg notOne]
      rfl

/-- With any run of letters on both sides, an escaped text is found wherever it occurs. -/
theorem like_infix (apart : signs.many ≠ signs.escape) (text word : List α) :
    like signs fold (signs.many :: (escaped signs text ++ [signs.many])) word = true ↔
      (text.map fold).IsInfix (word.map fold) := by
  have last : symbols signs [signs.many] = some [.many] := by simp [symbols, apart]
  have read : symbols signs (signs.many :: (escaped signs text ++ [signs.many])) =
      some (.many :: (text.map .letter ++ [.many])) := by
    rw [symbols_cons apart, symbols_escaped, last, plain, if_pos rfl]
    rfl
  have ends : ∀ back : List α, isMatch fold [.many] back = true := fun back =>
    (isMatch_many [] back).mpr ⟨back, [], (List.append_nil _).symm, rfl⟩
  rw [like, read, Option.any_some, isMatch_many]
  constructor
  · rintro ⟨front, _, rfl, found⟩
    obtain ⟨middle, back, rfl, folded, -⟩ := (isMatch_letters text _ _).mp found
    exact ⟨front.map fold, back.map fold, by simp [← folded]⟩
  · rintro ⟨front, back, whole⟩
    -- The word is cut where its folded letters are.
    obtain ⟨start, last, rfl, cutStart, rfl⟩ := List.map_eq_append_iff.mp whole.symm
    obtain ⟨first, middle, rfl, rfl, folded⟩ := List.map_eq_append_iff.mp cutStart
    refine ⟨first, middle ++ last, List.append_assoc .., ?_⟩
    exact (isMatch_letters text _ _).mpr ⟨middle, last, rfl, folded, ends last⟩

end Reading

end Laws

end Like
