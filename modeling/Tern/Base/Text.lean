import Mathlib.Data.List.DropRight

/-! Line and whitespace handling of text, with the laws that let a file be rewritten line by
line. -/

namespace Text

/-- Unicode white space, the full `White_Space` property. -/
def isWhitespace (c : Char) : Bool :=
  let code := c.toNat
  (0x9 ≤ code && code ≤ 0xD) || code == 0x20 || code == 0x85 || code == 0xA0 || code == 0x1680 ||
    (0x2000 ≤ code && code ≤ 0x200A) || code == 0x2028 || code == 0x2029 || code == 0x202F ||
    code == 0x205F || code == 0x3000

/-- Characters with the white space on both sides dropped. -/
def trimChars (chars : List Char) : List Char :=
  (chars.dropWhile isWhitespace).rdropWhile isWhitespace

/-- Text with the white space on both sides dropped. -/
def trim (text : String) : String :=
  String.ofList (trimChars text.toList)

/-- The text cut after every line feed, each piece keeping its own. -/
def lineChunks : List Char → List (List Char)
  | [] => []
  | c :: rest =>
    if c = '\n' then [c] :: lineChunks rest
    else match lineChunks rest with
      | [] => [[c]]
      | chunk :: chunks => (c :: chunk) :: chunks

/-- A piece without its line feed, nor a carriage return directly before that. -/
def stripEnding (chunk : List Char) : List Char :=
  if chunk.getLast? = some '\n' then
    let body := chunk.dropLast
    -- A carriage return counts as part of the ending only when a line feed follows it.
    if body.getLast? = some '\r' then body.dropLast else body
  else chunk

/-- The lines of a text, without their endings. -/
def lines (text : String) : List String :=
  (lineChunks text.toList).map fun chunk => String.ofList (stripEnding chunk)

/-- Lines written out, each closed by a line feed. -/
def unlines : List String → String
  | [] => ""
  | line :: rest => line ++ "\n" ++ unlines rest

/-- The white-space separated fields still to come, behind one that may be under way. -/
def fieldsFrom : List Char → List Char → List (List Char)
  | current, [] => if current.isEmpty then [] else [current]
  | current, c :: rest =>
    if isWhitespace c then
      -- A blank closes the field under way, if there is one.
      if current.isEmpty then fieldsFrom [] rest else current :: fieldsFrom [] rest
    else fieldsFrom (current ++ [c]) rest

/-- The white-space separated fields of a text. -/
def splitWhitespace (text : String) : List String :=
  (fieldsFrom [] text.toList).map String.ofList

/-- What follows a leading character, if the text starts with it. -/
def stripPrefix (c : Char) (text : String) : Option String :=
  match text.toList with
  | [] => none
  | head :: rest => if head = c then some (String.ofList rest) else none

/-- Whether a text stops at a line feed. -/
def endsWithNewline (text : String) : Bool :=
  text.toList.getLast? == some '\n'

section Trim

/-- Dropping on both sides a second time changes nothing. -/
theorem dropBoth_idem {α : Type*} (drops : α → Bool) (items : List α) :
    (((items.dropWhile drops).rdropWhile drops).dropWhile drops).rdropWhile drops =
      (items.dropWhile drops).rdropWhile drops := by
  -- What survives on the left starts with what is kept, and so does any prefix of it.
  have settled : List.dropWhile drops ((items.dropWhile drops).rdropWhile drops) =
      (items.dropWhile drops).rdropWhile drops := by
    rw [List.dropWhile_eq_self_iff]
    intro occupied dropped
    have shorter := List.rdropWhile_prefix drops (items.dropWhile drops)
    have whole : 0 < (items.dropWhile drops).length :=
      Nat.lt_of_lt_of_le occupied shorter.length_le
    rw [shorter.getElem occupied] at dropped
    exact List.dropWhile_get_zero_not drops items whole dropped
  rw [settled, List.rdropWhile_idempotent]

/-- Trimming a second time changes nothing. -/
theorem trimChars_idem (chars : List Char) : trimChars (trimChars chars) = trimChars chars :=
  dropBoth_idem isWhitespace chars

/-- Trimming drops a trailing blank first or last alike. -/
theorem trimChars_concat_blank (chars : List Char) {c : Char} (blank : isWhitespace c = true) :
    trimChars (chars ++ [c]) = trimChars chars := by
  unfold trimChars
  rw [List.dropWhile_append]
  split
  · -- Text that is blank throughout trims to nothing with or without one blank more.
    rename_i empty
    have empty : chars.dropWhile isWhitespace = [] := by simpa using empty
    simp [empty, blank]
  · rw [List.rdropWhile_concat_pos _ _ _ blank]

/-- Text with a visible character at both ends is already trimmed. -/
theorem trimChars_eq_self {chars : List Char} {first last : Char}
    (front : chars.head? = some first) (back : chars.getLast? = some last)
    (firstVisible : isWhitespace first = false) (lastVisible : isWhitespace last = false) :
    trimChars chars = chars := by
  unfold trimChars
  -- A visible first character stops the left trim at once.
  have kept : chars.dropWhile isWhitespace = chars := by
    cases chars with
    | nil => rfl
    | cons head tail =>
      simp only [List.head?_cons, Option.some.injEq] at front
      simp [front, firstVisible]
  rw [kept, List.rdropWhile_eq_self_iff]
  intro nonempty
  rw [List.getLast?_eq_getLast_of_ne_nil nonempty, Option.some.injEq] at back
  simp [back, lastVisible]

/-- Trimming text a second time changes nothing. -/
@[simp] theorem trim_trim (text : String) : trim (trim text) = trim text := by
  simp [trim, trimChars_idem]

/-- Trimming only drops characters. -/
theorem mem_trimChars {c : Char} {chars : List Char} (member : c ∈ trimChars chars) :
    c ∈ chars := by
  have inner := (List.rdropWhile_prefix isWhitespace _).subset member
  exact (List.dropWhile_suffix isWhitespace).subset inner

end Trim

section Lines

/-- Nothing but the empty text has no pieces. -/
theorem lineChunks_eq_nil {chars : List Char} : lineChunks chars = [] ↔ chars = [] := by
  -- A text with a character in it has a first piece, however the character ends it.
  cases chars with
  | nil => simp [lineChunks]
  | cons c rest =>
    simp only [lineChunks]
    split
    · simp
    · split <;> simp

/-- Text that stops at a line feed is cut independently of what follows. -/
theorem lineChunks_append {front back : List Char}
    (closed : front = [] ∨ front.getLast? = some '\n') :
    lineChunks (front ++ back) = lineChunks front ++ lineChunks back := by
  induction front with
  | nil => simp [lineChunks]
  | cons c rest ih =>
    cases rest with
    | nil =>
      -- The only character left is the line feed that closes the front.
      have feed : c = '\n' := by simpa using closed
      simp [feed, lineChunks]
    | cons next tail =>
      -- The rest of the front stops at the same line feed.
      have inner : next :: tail = [] ∨ (next :: tail).getLast? = some '\n' := by
        simpa [List.getLast?_cons_cons] using closed
      have shifted := ih inner
      have pieces : lineChunks (next :: tail) ≠ [] := by simp [lineChunks_eq_nil]
      rw [List.cons_append, lineChunks, lineChunks, shifted]
      split
      · rfl
      · -- The character joins the first piece of the rest, which is there to be joined.
        cases cut : lineChunks (next :: tail) with
        | nil => exact absurd cut pieces
        | cons chunk chunks => rfl

/-- One line with its line feed is a single piece. -/
theorem lineChunks_line {line : List Char} (single : '\n' ∉ line) :
    lineChunks (line ++ ['\n']) = [line ++ ['\n']] := by
  induction line with
  | nil => simp [lineChunks]
  | cons c rest ih =>
    -- No character before the last one ends the piece.
    have head : c ≠ '\n' := fun same => single (by simp [same])
    simp [lineChunks, head, ih (fun inside => single (List.mem_cons_of_mem _ inside))]

/-- A line feed can only end a piece. -/
theorem feed_ends_chunk {chars chunk : List Char} (member : chunk ∈ lineChunks chars) :
    '\n' ∉ chunk.dropLast ∧ chunk ≠ [] := by
  induction chars generalizing chunk with
  | nil => simp [lineChunks] at member
  | cons c rest ih =>
    rw [lineChunks] at member
    split at member
    · -- A line feed is a piece of its own start, and the rest is cut afresh.
      rcases List.mem_cons.mp member with rfl | later
      · simp
      · exact ih later
    · -- Any other character only lengthens the first piece of the rest.
      rename_i visible
      split at member
      · -- At the end of the text the character is a piece alone.
        rw [List.mem_singleton] at member
        subst member
        simp
      · rename_i chunk' chunks cut
        rcases List.mem_cons.mp member with rfl | later
        · -- The lengthened piece was one of the rest, so it is clean inside.
          have first : chunk' ∈ lineChunks rest := by simp [cut]
          obtain ⟨clean, nonempty⟩ := ih first
          rw [List.dropLast_cons_of_ne_nil nonempty]
          exact ⟨by simp [clean, Ne.symm visible], by simp⟩
        · exact ih (by simp [cut, later])

/-- Without a line feed at its end, a piece holds none at all. -/
theorem feed_notMem_stripEnding {chars chunk : List Char} (member : chunk ∈ lineChunks chars) :
    '\n' ∉ stripEnding chunk := by
  obtain ⟨clean, nonempty⟩ := feed_ends_chunk member
  unfold stripEnding
  split
  · -- A closed piece loses its line feed, and the body before it has none.
    dsimp only
    split
    · exact fun inside => clean ((List.dropLast_prefix _).subset inside)
    · exact clean
  · -- An open piece would otherwise end in the line feed it is said not to end in.
    rename_i open_
    intro inside
    rw [← List.dropLast_append_getLast nonempty] at inside
    rcases List.mem_append.mp inside with early | last
    · exact clean early
    · apply open_
      rw [List.getLast?_eq_getLast_of_ne_nil nonempty, List.mem_singleton.mp last]

/-- Dropping a line ending never changes the trimmed text. -/
theorem trimChars_stripEnding (chunk : List Char) :
    trimChars (stripEnding chunk) = trimChars chunk := by
  unfold stripEnding
  split
  · -- Both characters of the ending are blanks, so trimming drops them anyway.
    rename_i fed
    obtain ⟨body, rfl⟩ := List.getLast?_eq_some_iff.mp fed
    rw [trimChars_concat_blank body (by decide)]
    simp only [List.dropLast_concat]
    split
    · rename_i returned
      obtain ⟨inner, rfl⟩ := List.getLast?_eq_some_iff.mp returned
      rw [List.dropLast_concat, trimChars_concat_blank inner (by decide)]
    · rfl
  · rfl

/-- No line holds a line feed. -/
theorem feed_notMem_lines {text line : String} (member : line ∈ lines text) :
    '\n' ∉ line.toList := by
  obtain ⟨chunk, inside, rfl⟩ := List.mem_map.mp member
  simpa using feed_notMem_stripEnding inside

/-- Text that stops at a line feed has its lines independently of what follows. -/
theorem lines_append {front : String} (back : String)
    (closed : front.toList = [] ∨ front.toList.getLast? = some '\n') :
    lines (front ++ back) = lines front ++ lines back := by
  simp [lines, lineChunks_append closed]

/-- Reading written-out lines back gives the same lines up to surrounding white space. -/
theorem trim_lines_unlines {texts : List String} (single : ∀ line ∈ texts, '\n' ∉ line.toList) :
    (lines (unlines texts)).map trim = texts.map trim := by
  induction texts with
  | nil => simp [unlines, lines, lineChunks]
  | cons line rest ih =>
    have head : '\n' ∉ line.toList := single line (by simp)
    rw [unlines, lines_append _ (by simp)]
    -- The line itself comes back as one piece, and the rest by induction.
    have one : (lines (line ++ "\n")).map trim = [trim line] := by
      simp [lines, lineChunks_line head, trim, trimChars_stripEnding,
        trimChars_concat_blank line.toList (c := '\n') (by decide)]
    rw [List.map_append, one, ih (fun text member => single text (List.mem_cons_of_mem _ member))]
    rfl

/-- An open last line is a single piece. -/
theorem lineChunks_open {line : List Char} (single : '\n' ∉ line) (occupied : line ≠ []) :
    lineChunks line = [line] := by
  induction line with
  | nil => exact absurd rfl occupied
  | cons c rest ih =>
    have head : c ≠ '\n' := fun same => single (by simp [same])
    rw [lineChunks, if_neg head]
    -- The character stands alone at the end, or joins the single piece behind it.
    by_cases last : rest = []
    · simp [last, lineChunks]
    · rw [ih (fun inside => single (List.mem_cons_of_mem _ inside)) last]

/-- Any text is a closed part followed by an open last line. -/
theorem split_open_line (chars : List Char) :
    ∃ front line, chars = front ++ line ∧ (front = [] ∨ front.getLast? = some '\n') ∧
      '\n' ∉ line := by
  refine ⟨chars.rdropWhile (· != '\n'), chars.rtakeWhile (· != '\n'),
    List.rdropWhile_append_rtakeWhile.symm, ?_, ?_⟩
  · -- The closed part is what is left once everything behind the last line feed is gone.
    by_cases empty : chars.rdropWhile (· != '\n') = []
    · exact .inl empty
    · have feed := List.rdropWhile_last_not _ chars empty
      rw [List.getLast?_eq_getLast_of_ne_nil empty]
      exact .inr (by simpa using feed)
  · intro inside
    have visible := List.mem_rtakeWhile_imp inside
    simp at visible

/-- Closing an open last line changes no line up to surrounding white space. -/
theorem trim_lines_close {text : String} (occupied : text.toList ≠ [])
    (opened : text.toList.getLast? ≠ some '\n') :
    (lines (text ++ "\n")).map trim = (lines text).map trim := by
  obtain ⟨front, line, whole, closed, single⟩ := split_open_line text.toList
  -- The open line is not empty, since the text would be empty or closed without it.
  have pending : line ≠ [] := by
    rintro rfl
    rcases closed with empty | fed
    · exact occupied (by simp [whole, empty])
    · exact opened (by simpa [whole] using fed)
  -- Only the open line differs, by the line feed that trimming drops again.
  simp [lines, whole, lineChunks_append closed, lineChunks_line single,
    lineChunks_open single pending,
    trim, trimChars_stripEnding, trimChars_concat_blank line (c := '\n') (by decide)]

end Lines

section Fields

/-- Every field is nonempty and holds no white space. -/
theorem visible_of_mem_fieldsFrom {chars current field : List Char}
    (started : ∀ c ∈ current, isWhitespace c = false) (member : field ∈ fieldsFrom current chars) :
    field ≠ [] ∧ ∀ c ∈ field, isWhitespace c = false := by
  -- Only visible characters are ever added to the field under way.
  induction chars generalizing current with
  | nil =>
    -- At the end of the text the field under way is the last one, if it holds anything.
    by_cases empty : current.isEmpty
    · simp [fieldsFrom, empty] at member
    · have same : field = current := by simpa [fieldsFrom, empty] using member
      subst same
      exact ⟨by simpa using empty, started⟩
  | cons c rest ih =>
    by_cases blank : isWhitespace c = true
    · -- A blank closes the field under way and starts an empty one.
      by_cases empty : current.isEmpty
      · rw [fieldsFrom, if_pos blank, if_pos empty] at member
        exact ih (by simp) member
      · rw [fieldsFrom, if_pos blank, if_neg empty, List.mem_cons] at member
        rcases member with rfl | later
        · exact ⟨by simpa using empty, started⟩
        · exact ih (by simp) later
    · rw [fieldsFrom, if_neg blank] at member
      refine ih ?_ member
      -- A visible character joins the others of its field.
      intro d inside
      rcases List.mem_append.mp inside with early | last
      · exact started d early
      · rw [List.mem_singleton.mp last]
        simpa using blank

/-- Every white-space separated field is nonempty and holds no white space. -/
theorem visible_of_mem_splitWhitespace {text field : String}
    (member : field ∈ splitWhitespace text) :
    field.toList ≠ [] ∧ ∀ c ∈ field.toList, isWhitespace c = false := by
  obtain ⟨chars, inside, rfl⟩ := List.mem_map.mp member
  simpa using visible_of_mem_fieldsFrom (by simp) inside

/-- Visible characters join the field under way. -/
theorem fieldsFrom_visible {field : List Char} (visible : ∀ c ∈ field, isWhitespace c = false)
    (current rest : List Char) :
    fieldsFrom current (field ++ rest) = fieldsFrom (current ++ field) rest := by
  induction field generalizing current with
  | nil => simp
  | cons c tail ih =>
    have head : isWhitespace c = false := visible c (by simp)
    rw [List.cons_append, fieldsFrom, head, if_neg (by simp)]
    -- The character moves from the text to the field, and the tail follows it.
    rw [ih (fun d inside => visible d (List.mem_cons_of_mem _ inside))]
    simp

/-- A visible run before a blank is the first field. -/
theorem fieldsFrom_cons {field : List Char} (occupied : field ≠ [])
    (visible : ∀ c ∈ field, isWhitespace c = false) (rest : List Char) :
    fieldsFrom [] (field ++ ' ' :: rest) = field :: fieldsFrom [] rest := by
  rw [fieldsFrom_visible visible, List.nil_append, fieldsFrom, if_pos (by decide)]
  simp [occupied]

/-- A visible run at the end is the last field. -/
theorem fieldsFrom_last {field : List Char} (occupied : field ≠ [])
    (visible : ∀ c ∈ field, isWhitespace c = false) : fieldsFrom [] field = [field] := by
  have whole := fieldsFrom_visible visible [] []
  rw [List.append_nil, List.nil_append] at whole
  rw [whole, fieldsFrom]
  simp [occupied]

end Fields

section Splitting

/-- Texts that agree up to their first separator agree on both sides of it. -/
theorem append_cons_inj {c : Char} {left right leftRest rightRest : List Char}
    (leftFree : c ∉ left) (rightFree : c ∉ right)
    (same : left ++ c :: leftRest = right ++ c :: rightRest) :
    left = right ∧ leftRest = rightRest := by
  induction left generalizing right with
  | nil =>
    cases right with
    | nil => exact ⟨rfl, (List.cons.inj same).2⟩
    | cons head tail =>
      -- The other side would have to start with the separator itself.
      exact absurd (List.cons.inj same).1 (fun equal => rightFree (by simp [equal]))
  | cons head tail ih =>
    cases right with
    | nil => exact absurd (List.cons.inj same).1 (fun equal => leftFree (by simp [equal]))
    | cons other rest =>
      -- Equal heads leave two shorter texts of the same kind.
      obtain ⟨first, later⟩ := List.cons.inj same
      obtain ⟨fronts, backs⟩ := ih (fun inside => leftFree (List.mem_cons_of_mem _ inside))
        (fun inside => rightFree (List.mem_cons_of_mem _ inside)) later
      exact ⟨by rw [first, fronts], backs⟩

/-- The decimal digits of a number tell the number. -/
theorem repr_inj {left right : Nat} (same : left.repr.toList = right.repr.toList) :
    left = right := by
  simp only [Nat.toList_repr] at same
  -- Reading the digits back is a left inverse of writing them.
  have numbers := congrArg (Nat.ofDigitChars 10 · 0) same
  simpa only [Nat.ofDigitChars_ten_toDigits] using numbers

/-- The decimal form of a number holds digits only. -/
theorem isDigit_of_mem_repr {number : Nat} {c : Char} (member : c ∈ number.repr.toList) :
    c.isDigit = true := by
  rw [Nat.toList_repr] at member
  exact Nat.isDigit_of_mem_toDigits (by decide) (by decide) member

/-- The decimal form of an integer is its sign and its digits. -/
theorem toString_int (number : Int) :
    (toString number).toList =
      if 0 ≤ number then number.toNat.repr.toList else '-' :: (-number).toNat.repr.toList := by
  rw [Int.toString_eq_repr, Int.repr_eq_if]
  split
  · rfl
  · simp

/-- The decimal form of an integer tells the integer. -/
theorem toString_int_inj {left right : Int}
    (same : (toString left).toList = (toString right).toList) : left = right := by
  -- A sign is never a digit, so the two forms agree on having one.
  have signless : ∀ number : Nat, '-' ∉ number.repr.toList := by
    intro number inside
    exact absurd (isDigit_of_mem_repr inside) (by decide)
  rw [toString_int, toString_int] at same
  split at same
  · -- Two numbers with the same sign agree on their digits, and mixed signs cannot agree at all.
    split at same
    · have numbers := repr_inj same
      omega
    · exact absurd (by rw [same]; exact List.mem_cons_self) (signless left.toNat)
  · split at same
    · exact absurd (by rw [← same]; exact List.mem_cons_self) (signless right.toNat)
    · have numbers := repr_inj (List.cons.inj same).2
      omega

/-- The decimal form of an integer holds no character but digits and the sign. -/
theorem notMem_toString_int {c : Char} (digitless : c.isDigit = false) (signless : c ≠ '-')
    (number : Int) : c ∉ (toString number).toList := by
  intro inside
  rw [toString_int] at inside
  split at inside
  · rw [isDigit_of_mem_repr inside] at digitless
    cases digitless
  · -- A negative number shows its sign first and digits behind it.
    rcases List.mem_cons.mp inside with sign | digit
    · exact signless sign
    · rw [isDigit_of_mem_repr digit] at digitless
      cases digitless

end Splitting

end Text
