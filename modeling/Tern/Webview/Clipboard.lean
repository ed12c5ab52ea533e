import Mathlib.Algebra.Order.Ring.Rat

/-! Paste protection: how many lines a paste counts as, and how many a terminal would take it
for. -/

namespace Tern.Webview

/-- A text as the webview holds it: a sequence of sixteen-bit code units. -/
abbrev CodeUnits := List UInt16

/-- The code unit that ends a line by itself, and the one in front of it in a `CRLF`. -/
def lineFeed : UInt16 := 0x0a

/-- The code unit that a terminal submits a line on. -/
def carriageReturn : UInt16 := 0x0d

/-- What a paste would do. -/
structure PasteAssessment where
  /-- The lines the paste would submit. -/
  lineCount : Nat
  /-- Whether the user should be asked before the paste reaches the shell. -/
  needsConfirmation : Bool
  deriving DecidableEq, Repr

/-- When a paste is worth asking about. -/
structure PastePolicy where
  /-- Warn at or above this many lines, or never when it is zero. -/
  warnAtLines : Rat
  deriving DecidableEq

/-- The policy that is used where none is given. -/
def defaultPastePolicy : PastePolicy := ⟨2⟩

/-- The text without the `LF` or the `CRLF` it ends in, if it does. -/
def withoutFinalNewline : CodeUnits → CodeUnits
  | [] => []
  | unit :: rest =>
    if unit = carriageReturn ∧ rest = [lineFeed] then []
    else if unit = lineFeed ∧ rest = [] then []
    else unit :: withoutFinalNewline rest

/-- One more code unit in front of the first of some pieces. -/
def consFirst (unit : UInt16) : List CodeUnits → List CodeUnits
  | [] => [[unit]]
  | piece :: pieces => (unit :: piece) :: pieces

/-- The pieces of a text between its `LF`s and `CRLF`s. -/
def splitNewlines : CodeUnits → List CodeUnits
  | [] => [[]]
  | [unit] => if unit = lineFeed then [[], []] else [[unit]]
  | unit :: next :: rest =>
    if unit = lineFeed then [] :: splitNewlines (next :: rest)
    else if unit = carriageReturn ∧ next = lineFeed then [] :: splitNewlines rest
    -- A `CR` with anything else behind it separates nothing.
    else consFirst unit (splitNewlines (next :: rest))

/-- Count what a paste would submit, and decide whether to ask. -/
def assessPaste (text : CodeUnits) (policy : PastePolicy) : PasteAssessment :=
  let trimmed := withoutFinalNewline text
  let lineCount := if trimmed.isEmpty then 0 else (splitNewlines trimmed).length
  { lineCount
    needsConfirmation :=
      decide (0 < policy.warnAtLines) && decide (policy.warnAtLines ≤ lineCount) }

section Terminal

/--
The lines that a terminal reads from a text.

A line ends at a `CR`, an `LF` or a `CRLF`, and what is left behind the last of them is a line too.
-/
def terminalLines : CodeUnits → List CodeUnits
  | [] => []
  | [unit] => if unit = carriageReturn ∨ unit = lineFeed then [[]] else [[unit]]
  | unit :: next :: rest =>
    if unit = carriageReturn ∧ next = lineFeed then [] :: terminalLines rest
    else if unit = carriageReturn ∨ unit = lineFeed then [] :: terminalLines (next :: rest)
    else consFirst unit (terminalLines (next :: rest))

/-- How many lines a paste submits or contains, where a terminator alone submits nothing. -/
def pastedLines (text : CodeUnits) : Nat :=
  if text = [carriageReturn] ∨ text = [lineFeed] ∨ text = [carriageReturn, lineFeed] then 0
  else (terminalLines text).length

/-- A paste is assessed rightly: it is counted as a terminal does, and asked about when it must. -/
def AssessedRightly (text : CodeUnits) (policy : PastePolicy) : Prop :=
  (policy.warnAtLines ≤ pastedLines text → (assessPaste text policy).needsConfirmation = true) ∧
    (assessPaste text policy).lineCount = pastedLines text

/-- Every `CR` has an `LF` behind it, or ends a text that is more than this `CR`. -/
def ReturnsPaired (text : CodeUnits) : Prop :=
  text ≠ [carriageReturn] ∧ ∀ before after, text = before ++ carriageReturn :: after →
    after = [] ∨ after.head? = some lineFeed

/-- The `CR`s of a text without an `LF` behind them. -/
def strayReturns : CodeUnits → Nat
  | [] => 0
  | unit :: rest =>
    (if unit = carriageReturn ∧ rest.head? ≠ some lineFeed then 1 else 0) + strayReturns rest

/-- Whether something is left behind the last terminator. -/
def openEnd (text : CodeUnits) : Nat :=
  match text.getLast? with
  | none => 0
  | some last => if last = carriageReturn ∨ last = lineFeed then 0 else 1

variable {text : CodeUnits}

/-- The two terminators are different. -/
theorem lineFeed_ne_carriageReturn : lineFeed ≠ carriageReturn := by decide

/-- One more code unit makes the first piece longer, and no piece more. -/
theorem length_consFirst {unit : UInt16} {pieces : List CodeUnits} (some_ : pieces ≠ []) :
    (consFirst unit pieces).length = pieces.length := by
  cases pieces with
  | nil => exact absurd rfl some_
  | cons piece rest => rfl

/-- With a code unit in front, there is a piece. -/
theorem consFirst_ne_nil (unit : UInt16) (pieces : List CodeUnits) :
    consFirst unit pieces ≠ [] := by
  cases pieces with
  | nil => exact List.cons_ne_nil _ _
  | cons piece rest => exact List.cons_ne_nil _ _

/-- A split never leaves nothing. -/
theorem splitNewlines_ne_nil (text : CodeUnits) : splitNewlines text ≠ [] := by
  -- Each arm puts something in front, or into the first of what is left.
  fun_cases splitNewlines text with
  | case1 => exact List.cons_ne_nil _ _
  | case2 => exact List.cons_ne_nil _ _
  | case3 => exact List.cons_ne_nil _ _
  | case4 => exact List.cons_ne_nil _ _
  | case5 => exact List.cons_ne_nil _ _
  | case6 => exact consFirst_ne_nil _ _

/-- A text falls into one piece more than it has `LF`s. -/
theorem length_splitNewlines (text : CodeUnits) :
    (splitNewlines text).length = text.count lineFeed + 1 := by
  fun_induction splitNewlines text with
  | case1 => rfl
  | case2 => simp [lineFeed]
  | case3 unit differs => simp [differs]
  | case4 next rest ih => simp [ih]
  | case5 unit next rest differs pair ih =>
    -- Both units of a `CRLF` are taken at once, and one of them is its `LF`.
    simp [ih, pair.1, pair.2, lineFeed_ne_carriageReturn.symm]
  | case6 unit next rest differs single ih =>
    rw [length_consFirst (splitNewlines_ne_nil _), ih, List.count_cons_of_ne differs]

/-- What is left behind the last terminator does not depend on the first unit of a longer text. -/
theorem openEnd_cons {unit : UInt16} {rest : CodeUnits} (more : rest ≠ []) :
    openEnd (unit :: rest) = openEnd rest := by
  cases rest with
  | nil => exact absurd rfl more
  | cons next rest => rw [openEnd, openEnd, List.getLast?_cons_cons]

/-- A terminator in front leaves as much behind the last terminator as there was. -/
theorem openEnd_terminator {unit : UInt16} (ends : unit = carriageReturn ∨ unit = lineFeed)
    (rest : CodeUnits) : openEnd (unit :: rest) = openEnd rest := by
  cases rest with
  | nil => simp [openEnd, ends]
  | cons next rest => exact openEnd_cons (List.cons_ne_nil _ _)

/-- A text that is not empty is one line at least. -/
theorem terminalLines_ne_nil (some_ : text ≠ []) : terminalLines text ≠ [] := by
  -- Each arm puts something in front, or into the first of what is left.
  fun_cases terminalLines text with
  | case1 => exact absurd rfl some_
  | case2 => exact List.cons_ne_nil _ _
  | case3 => exact List.cons_ne_nil _ _
  | case4 => exact List.cons_ne_nil _ _
  | case5 => exact List.cons_ne_nil _ _
  | case6 => exact consFirst_ne_nil _ _

/-- A terminal reads a line for every `LF`, for every `CR` without one, and for what is left. -/
theorem length_terminalLines (text : CodeUnits) :
    (terminalLines text).length = text.count lineFeed + strayReturns text + openEnd text := by
  -- The induction is on the lines, as they are cut off the front.
  fun_induction terminalLines text with
  | case1 => rfl
  | case2 unit ends =>
    rcases ends with rfl | rfl
    · decide
    · decide
  | case3 unit plain =>
    obtain ⟨return_, feed⟩ := not_or.mp plain
    simp [openEnd, strayReturns, return_, feed]
  | case4 unit next rest pair ih =>
    obtain ⟨rfl, rfl⟩ := pair
    -- The `LF` stands for both units, and its `CR` is no stray one.
    rw [openEnd_terminator (.inl rfl), openEnd_terminator (.inr rfl)]
    simp [strayReturns, ih, lineFeed_ne_carriageReturn.symm, lineFeed_ne_carriageReturn]
    omega
  | case5 unit next rest single ends ih =>
    rw [openEnd_terminator ends, List.length_cons, ih]
    rcases ends with rfl | rfl
    · -- A `CR` that does not belong to a `CRLF` is a stray one.
      have apart : next ≠ lineFeed := fun feed => single ⟨rfl, feed⟩
      rw [List.count_cons_of_ne lineFeed_ne_carriageReturn.symm]
      simp only [strayReturns, List.head?_cons, Option.some.injEq, ne_eq, apart,
        not_false_eq_true, and_self, if_true]
      omega
    · rw [List.count_cons_self]
      simp only [strayReturns, lineFeed_ne_carriageReturn, false_and, if_false]
      omega
  -- Any other unit joins the line behind it.
  | case6 unit next rest single plain ih =>
    obtain ⟨return_, feed⟩ := not_or.mp plain
    rw [length_consFirst (terminalLines_ne_nil (List.cons_ne_nil _ _)), ih,
      openEnd_cons (List.cons_ne_nil _ _), List.count_cons_of_ne feed]
    simp only [strayReturns, return_, false_and, if_false]
    omega

/-- A text that ends in an `LF` loses this one, and any other text stays as it is. -/
theorem count_withoutFinalNewline (text : CodeUnits) :
    (withoutFinalNewline text).count lineFeed + (if text.getLast? = some lineFeed then 1 else 0) =
      text.count lineFeed := by
  fun_induction withoutFinalNewline text with
  | case1 => rfl
  | case2 unit rest pair =>
    obtain ⟨rfl, rfl⟩ := pair
    decide
  | case3 unit rest pair feed =>
    obtain ⟨rfl, rfl⟩ := feed
    decide
  | case4 unit rest pair feed ih =>
    cases rest with
    | nil =>
      -- The last unit of all is no `LF` here.
      have apart : unit ≠ lineFeed := fun same => feed ⟨same, rfl⟩
      simp [withoutFinalNewline, apart]
    | cons next rest =>
      rw [List.getLast?_cons_cons, List.count_cons, List.count_cons, ← ih]
      omega

/-- Nothing is left only of a text that is empty or a terminator with an `LF`. -/
theorem withoutFinalNewline_eq_nil :
    withoutFinalNewline text = [] ↔
      text = [] ∨ text = [lineFeed] ∨ text = [carriageReturn, lineFeed] := by
  fun_cases withoutFinalNewline text with
  | case1 => simp
  | case2 unit rest pair => simp [pair.1, pair.2]
  | case3 unit rest pair feed => simp [feed.1, feed.2]
  | case4 unit rest pair feed =>
    -- Something is left here, so that the text is none of the three.
    refine iff_of_false (List.cons_ne_nil _ _) ?_
    rintro (empty | single | both)
    · cases empty
    · cases single
      exact feed ⟨rfl, rfl⟩
    · cases both
      exact pair ⟨rfl, rfl⟩

/-- A text is counted by its `LF`s, and by what stands behind the last of them. -/
theorem lineCount_assessPaste (policy : PastePolicy)
    (left : ¬(text = [] ∨ text = [lineFeed] ∨ text = [carriageReturn, lineFeed])) :
    (assessPaste text policy).lineCount =
      text.count lineFeed + if text.getLast? = some lineFeed then 0 else 1 := by
  -- One final newline is dropped before the split, and the pieces are one more than the breaks.
  have some_ : withoutFinalNewline text ≠ [] := mt withoutFinalNewline_eq_nil.mp left
  have counted := count_withoutFinalNewline text
  show (if (withoutFinalNewline text).isEmpty = true then 0 else _) = _
  rw [if_neg (by simpa using some_), length_splitNewlines]
  split at counted
  · rename_i feed
    rw [if_pos feed]
    omega
  · rename_i apart
    rw [if_neg apart]
    omega

/-- A text has a stray `CR` if it ends in one. -/
theorem strayReturns_last (text : CodeUnits) :
    (if text.getLast? = some carriageReturn then 1 else 0) ≤ strayReturns text := by
  -- A return at the end has nothing behind it, so it is stray.
  induction text with
  | nil => decide
  | cons unit rest ih =>
    cases rest with
    | nil =>
      by_cases return_ : unit = carriageReturn
      · simp [strayReturns, return_]
      · simp [return_]
    | cons next rest =>
      rw [List.getLast?_cons_cons, strayReturns]
      omega

/-- A value in a longer list is its first or one of the rest. -/
theorem forall_split_cons {α : Type} {value first : α} {rest : List α} {Fits : List α → Prop} :
    (∀ before after, first :: rest = before ++ value :: after → Fits after) ↔
      (first = value → Fits rest) ∧
        ∀ before after, rest = before ++ value :: after → Fits after := by
  -- A split is either before the first element or inside the rest.
  refine ⟨fun all => ⟨?_, ?_⟩, fun both before after same => ?_⟩
  · rintro rfl
    exact all [] rest rfl
  · intro before after same
    exact all (first :: before) after (by rw [same, List.cons_append])
  · cases before with
    | nil =>
      cases same
      exact both.1 rfl
    | cons head before =>
      cases same
      exact both.2 before after rfl

/-- The last unit alone may be a stray `CR` exactly when there are no others. -/
theorem strayReturns_eq_iff (text : CodeUnits) :
    (∀ before after, text = before ++ carriageReturn :: after →
      after = [] ∨ after.head? = some lineFeed) ↔
    strayReturns text = if text.getLast? = some carriageReturn then 1 else 0 := by
  induction text with
  | nil =>
    refine iff_of_true ?_ rfl
    intro before after split
    exact absurd split.symm (by simp)
  | cons unit rest ih =>
    have least := strayReturns_last rest
    rw [forall_split_cons, ih]
    cases rest with
    | nil =>
      by_cases return_ : unit = carriageReturn
      · simp [strayReturns, return_]
      · simp [strayReturns, return_]
    | cons next rest =>
      have here : strayReturns (unit :: next :: rest) =
          (if unit = carriageReturn ∧ some next ≠ some lineFeed then 1 else 0) +
            strayReturns (next :: rest) := rfl
      rw [List.getLast?_cons_cons, here]
      by_cases stray : unit = carriageReturn ∧ some next ≠ some lineFeed
      · -- A stray `CR` in front is one too many.
        rw [if_pos stray]
        refine iff_of_false (fun both => ?_) (fun same => ?_)
        · rcases both.1 stray.1 with empty | feed
          · cases empty
          · exact stray.2 feed
        · omega
      · -- Any other unit in front is no stray return, so the rest decides.
        have plain : unit = carriageReturn → next :: rest = [] ∨
            (next :: rest).head? = some lineFeed :=
          fun return_ => .inr (not_not.mp fun apart => stray ⟨return_, apart⟩)
        rw [if_neg stray, Nat.zero_add]
        exact and_iff_right plain

/-- A `CR` is not an `LF`, so no text ends in both. -/
theorem openEnd_eq (some_ : text ≠ []) :
    openEnd text = if text.getLast? = some carriageReturn ∨ text.getLast? = some lineFeed then 0
      else 1 := by
  obtain ⟨front, last, rfl⟩ := List.eq_nil_or_concat text |>.resolve_left some_
  simp [openEnd]

/--
A paste is counted as a terminal does, and asked about whenever it must be,
exactly when every `CR` in it has an `LF` behind it or ends it behind something else.
-/
theorem paste_assessed_rightly_iff (text : CodeUnits) (policy : PastePolicy)
    (warns : 1 ≤ policy.warnAtLines) : AssessedRightly text policy ↔ ReturnsPaired text := by
  -- Once the count is right, so is the question.
  have counted : AssessedRightly text policy ↔
      (assessPaste text policy).lineCount = pastedLines text := by
    refine ⟨And.right, fun same => ⟨fun many => ?_, same⟩⟩
    show (decide _ && decide _) = true
    rw [Bool.and_eq_true, decide_eq_true_iff, decide_eq_true_iff]
    exact ⟨lt_of_lt_of_le zero_lt_one warns, by rw [← same] at many; exact many⟩
  rw [counted, ReturnsPaired, strayReturns_eq_iff]
  by_cases quiet : text = [] ∨ text = [lineFeed] ∨ text = [carriageReturn, lineFeed]
  · -- These are counted as nothing on both sides.
    rcases quiet with rfl | rfl | rfl
    · exact iff_of_true rfl ⟨by decide, by decide⟩
    · exact iff_of_true rfl ⟨by decide, by decide⟩
    · exact iff_of_true rfl ⟨by decide, by decide⟩
  rw [lineCount_assessPaste policy quiet]
  by_cases alone : text = [carriageReturn]
  · -- A lone return is counted as a line, where a terminator alone should count as none.
    subst alone
    exact iff_of_false (by decide) (fun both => both.1 rfl)
  have several : ¬(text = [carriageReturn] ∨ text = [lineFeed] ∨
      text = [carriageReturn, lineFeed]) := fun some_ => quiet (some_.elim (absurd · alone) .inr)
  have some_ : text ≠ [] := fun empty => quiet (.inl empty)
  rw [pastedLines, if_neg several, length_terminalLines, openEnd_eq some_, and_iff_right alone]
  -- What remains to compare is the end of the text.
  by_cases feed : text.getLast? = some lineFeed
  · have apart : text.getLast? ≠ some carriageReturn := by
      rw [feed]
      decide
    rw [if_pos feed, if_pos (.inr feed), if_neg apart]
    omega
  · rw [if_neg feed]
    -- A return at the end is the one that is allowed.
    by_cases return_ : text.getLast? = some carriageReturn
    · rw [if_pos (.inl return_), if_pos return_]
      omega
    · rw [if_neg (not_or.mpr ⟨return_, feed⟩), if_neg return_]
      omega

/-- Two commands, each ended by an `LF`, are asked about. -/
theorem paste_assessed_rightly_two_lines :
    AssessedRightly [0x6c, 0x73, lineFeed, 0x70, 0x73, lineFeed] defaultPastePolicy :=
  (paste_assessed_rightly_iff _ _ (by decide)).mpr
    ⟨by decide, (strayReturns_eq_iff _).mpr (by decide)⟩

/-- Two commands with a `CR` between them are taken for one line, and written without a question. -/
theorem paste_unasked_between_returns :
    ¬AssessedRightly [0x6c, 0x73, carriageReturn, 0x70, 0x73] defaultPastePolicy :=
  fun rightly => absurd rightly.2 (by decide)

end Terminal

end Tern.Webview
