import Tern.Base.Text

/-! Texts with holes in them: the holes numbered in order, and the numbers read back. -/

namespace Placeholder

/-- The text with its markers replaced by consecutive numbers above one. -/
def numberFrom : Nat → List Char → List Char
  | _, [] => []
  | _, [last] => [last]
  | number, first :: second :: rest =>
    if first = '?' ∧ second = '*' then
      '?' :: (number + 1).repr.toList ++ numberFrom (number + 1) rest
    else first :: numberFrom number (second :: rest)

/-- A hole that has no number yet. -/
def marker (_ : Nat) : List Char := ['?', '*']

/-- A hole with the number above one. -/
def numbered (number : Nat) : List Char := '?' :: (number + 1).repr.toList

/-- Fragments with the holes between them filled in, from a number on. -/
def fill (hole : Nat → List Char) : Nat → List (List Char) → List Char
  | _, [] => []
  | _, [last] => last
  | number, fragment :: next :: rest =>
    fragment ++ (hole number ++ fill hole (number + 1) (next :: rest))

/-- How many holes there are between some fragments. -/
def holes (fragments : List (List Char)) : Nat := fragments.length - 1

/-- How many holes there are in several texts. -/
def holesIn : List (List (List Char)) → Nat
  | [] => 0
  | fragments :: others => holes fragments + holesIn others

/-- Several texts one behind the other, with their holes filled in from a number on. -/
def fillAll (hole : Nat → List Char) : Nat → List (List (List Char)) → List Char
  | _, [] => []
  | number, fragments :: others =>
    fill hole number fragments ++ fillAll hole (number + holes fragments) others

/-- The number of a hole in front of a text. -/
def readHole : List Char → Option (Nat × List Char)
  | [] => none
  | first :: rest =>
    let digits := rest.takeWhile Char.isDigit
    if first = '?' ∧ digits ≠ [] then
      some (Nat.ofDigitChars 10 digits 0, rest.dropWhile Char.isDigit)
    else none

/-- The numbers of the holes between some fragments in front of a text. -/
def read : List (List Char) → List Char → Option (List Nat × List Char)
  | [], text => some ([], text)
  | [last], text => (text.dropPrefix? last).map fun rest => ([], rest)
  | fragment :: next :: others, text =>
    (text.dropPrefix? fragment).bind fun behind =>
      (readHole behind).bind fun hole =>
        (read (next :: others) hole.2).map fun found => (hole.1 :: found.1, found.2)

section Laws

variable {number : Nat} {text rest : List Char} {fragments : List (List Char)}

/-- Holes without numbers are the same wherever the count begins. -/
theorem fill_marker (other : Nat) : fill marker number fragments = fill marker other fragments := by
  -- A marker shows no number, so the count leaves no trace in the text.
  induction fragments generalizing number other with
  | nil => rfl
  | cons fragment others ih =>
    cases others with
    | nil => rfl
    | cons next others => rw [fill, fill, ih (other + 1)]; rfl

/-- A text without holes takes no number. -/
theorem fillAll_text (hole : Nat → List Char) (fragment : List Char)
    (others : List (List (List Char))) :
    fillAll hole number ([fragment] :: others) = fragment ++ fillAll hole number others := rfl

/-- The count goes on behind what is written in front. -/
theorem fillAll_append (hole : Nat → List Char) (front back : List (List (List Char))) :
    fillAll hole number (front ++ back) =
      fillAll hole number front ++ fillAll hole (number + holesIn front) back := by
  induction front generalizing number with
  | nil => rfl
  | cons fragments front ih =>
    rw [List.cons_append, fillAll, fillAll, ih, holesIn, List.append_assoc, Nat.add_assoc]

/-- A text without holes is passed as it is. -/
theorem numberFrom_text (whole : '?' ∉ text) :
    numberFrom number (text ++ rest) = text ++ numberFrom number rest := by
  induction text with
  | nil => rfl
  | cons first text ih =>
    obtain ⟨other, whole⟩ := not_or.mp (mt List.mem_cons.mpr whole)
    have onward := ih whole
    -- The first character is no question mark, whatever comes behind it.
    cases behind : text ++ rest with
    | nil =>
      obtain ⟨rfl, rfl⟩ := List.append_eq_nil_iff.mp behind
      rfl
    | cons second later =>
      rw [behind] at onward
      rw [List.cons_append, behind, numberFrom, if_neg fun both => other both.1.symm, onward]
      rfl

/-- A marker gets the next number. -/
theorem numberFrom_marker :
    numberFrom number (marker number ++ rest) =
      numbered number ++ numberFrom (number + 1) rest := by
  rw [marker, List.cons_append, List.cons_append, List.nil_append, numberFrom, if_pos ⟨rfl, rfl⟩]
  rfl

/-- The markers between some fragments get the next numbers. -/
theorem numberFrom_fill (whole : ∀ fragment ∈ fragments, '?' ∉ fragment) :
    numberFrom number (fill marker number fragments ++ rest) =
      fill numbered number fragments ++ numberFrom (number + holes fragments) rest := by
  -- The text between two holes has no marker in it and is passed over.
  induction fragments generalizing number with
  | nil => rfl
  | cons fragment others ih =>
    have first := whole fragment List.mem_cons_self
    cases others with
    | nil => exact numberFrom_text first
    | cons next others =>
      have onward :=
        @ih (number + 1) fun later member => whole later (List.mem_cons_of_mem _ member)
      rw [fill, fill, List.append_assoc, List.append_assoc, numberFrom_text first,
        numberFrom_marker, onward]
      simp only [holes, List.length_cons, List.append_assoc]
      congr 4
      omega

/-- The markers in several texts get the next numbers throughout. -/
theorem numberFrom_fillAll {texts : List (List (List Char))}
    (whole : ∀ fragments ∈ texts, ∀ fragment ∈ fragments, '?' ∉ fragment) :
    numberFrom number (fillAll marker number texts) = fillAll numbered number texts := by
  -- Each text takes up the count where the one before it left off.
  induction texts generalizing number with
  | nil => rfl
  | cons fragments others ih =>
    rw [fillAll, fillAll, numberFrom_fill (whole fragments List.mem_cons_self),
      ih fun later member => whole later (List.mem_cons_of_mem _ member)]

/-- A text does not begin with a digit, so that none before it goes on there. -/
def Ended (text : List Char) : Prop := ∀ c ∈ text.head?, c.isDigit = false

/-- A hole with a number is read as the number, unless a digit follows. -/
theorem readHole_numbered (ended : Ended rest) :
    readHole (numbered number ++ rest) = some (number + 1, rest) := by
  have digits : ∀ c ∈ (number + 1).repr.toList, c.isDigit = true :=
    fun c member => Text.isDigit_of_mem_repr member
  have some_ : (number + 1).repr.toList ≠ [] := by
    rw [Nat.toList_repr]
    exact Nat.toDigits_ne_nil
  -- The digits are all in front, and what follows them has none at its start.
  have taken : ((number + 1).repr.toList ++ rest).takeWhile Char.isDigit =
      (number + 1).repr.toList := by
    rw [List.takeWhile_append_of_pos digits]
    cases rest with
    | nil => simp
    | cons c rest => simp [ended c rfl]
  have left : ((number + 1).repr.toList ++ rest).dropWhile Char.isDigit = rest := by
    rw [List.dropWhile_append_of_pos digits]
    cases rest with
    | nil => rfl
    | cons c rest => simp [ended c rfl]
  rw [numbered, List.cons_append, readHole, taken, left, if_pos ⟨rfl, some_⟩, Nat.toList_repr,
    Nat.ofDigitChars_ten_toDigits]

/-- A text behind a fragment is found there. -/
theorem dropPrefix?_append (fragment rest : List Char) :
    (fragment ++ rest).dropPrefix? fragment = some rest := by
  induction fragment with
  | nil => cases rest <;> rfl
  | cons c fragment ih => simp [List.dropPrefix?, ih]

/-- What a filled text begins with is no digit, if the first fragment ends a number. -/
theorem ended_fill {fragment : List Char} (others : List (List Char))
    (ended : Ended (fragment ++ rest)) :
    Ended (fill numbered number (fragment :: others) ++ rest) := by
  cases others with
  | nil => exact ended
  | cons next others =>
    cases fragment with
    | nil =>
      -- Behind an empty fragment comes the mark of the next hole.
      intro c first
      cases first
      rfl
    | cons first fragment => exact ended

/-- The numbers in the holes between some fragments are read back in order. -/
theorem read_fill (ended : ∀ fragment ∈ fragments.tail, Ended (fragment ++ rest)) :
    read fragments (fill numbered number fragments ++ rest) =
      some (List.range' (number + 1) (holes fragments), rest) := by
  -- A number is read in full because the text behind its hole does not go on with a digit.
  induction fragments generalizing number with
  | nil => rfl
  | cons fragment others ih =>
    cases others with
    | nil => simp [fill, read, dropPrefix?_append, holes]
    | cons next others =>
      have behind : Ended (fill numbered (number + 1) (next :: others) ++ rest) :=
        ended_fill others (ended next List.mem_cons_self)
      have onward :=
        @ih (number + 1) fun later member => ended later (List.mem_cons_of_mem _ member)
      rw [fill, List.append_assoc, List.append_assoc, read, dropPrefix?_append, Option.bind_some,
        readHole_numbered behind, Option.bind_some, onward]
      rfl

end Laws

end Placeholder
