import Mathlib.Computability.Language
import Mathlib.Data.List.Infix
import Mathlib.Tactic.Ring

/-! Wildcard patterns as formal languages, and the backtracking scan that decides them. -/

namespace Wildcard

variable {α : Type*} [DecidableEq α]

/-- The words one pattern symbol stands for. -/
def symbolLanguage (star any symbol : α) : Language α :=
  -- A star spans any run, the second wildcard spans one symbol, the rest stand for themselves.
  (if symbol = star then Set.univ
  else if symbol = any then {word | ∃ head, word = [head]}
  else {[symbol]} : Set (List α))

/-- The words a whole pattern stands for: one symbol's words after another's. -/
def language (star any : α) (pattern : List α) : Language α :=
  (pattern.map (symbolLanguage star any)).prod

/-- Where a scan stands in its pattern and value, and where its last star lets it resume. -/
structure Registers where
  pi : Nat
  vi : Nat
  star : Option Nat
  resume : Nat
  deriving DecidableEq, Repr

/--
The scan over the value, answering with the pattern position it stops at.

No answer means a mismatch with no star to fall back on.
-/
def scan (star any : α) (pattern value : List α) : Nat → Registers → Option Nat
  | 0, _ => none
  | fuel + 1, at_ =>
    if at_.vi < value.length then
      -- One symbol is consumed on both sides.
      if at_.pi < pattern.length ∧
          (pattern[at_.pi]? = some any ∨ pattern[at_.pi]? = value[at_.vi]?) then
        scan star any pattern value fuel { at_ with pi := at_.pi + 1, vi := at_.vi + 1 }
      -- A star is first tried with an empty run, and remembered.
      else if at_.pi < pattern.length ∧ pattern[at_.pi]? = some star then
        scan star any pattern value fuel
          { at_ with pi := at_.pi + 1, star := some at_.pi, resume := at_.vi }
      else match at_.star with
        -- The remembered star gives ground by one symbol.
        | some last =>
          scan star any pattern value fuel
            { at_ with pi := last + 1, vi := at_.resume + 1, resume := at_.resume + 1 }
        | none => none
    else some at_.pi

/-- Enough scan steps for any pattern and value of these lengths. -/
def scanFuel (pattern value : List α) : Nat :=
  value.length * (pattern.length + 2) + pattern.length + 1

/-- Whether a pattern matches a value, by scanning and then skipping the stars left over. -/
def isMatch (star any : α) (pattern value : List α) : Bool :=
  match scan star any pattern value (scanFuel pattern value) ⟨0, 0, none, 0⟩ with
  | none => false
  | some pi => ((pattern.drop pi).dropWhile (· == star)).isEmpty

section Turns

variable (star any : α) (pattern value : List α)

/-- Where the matcher stands: in its loop over the value, or in the one over the leftover stars. -/
inductive Control where
  | scanning (at_ : Registers)
  | skipping (pi : Nat)
  deriving DecidableEq, Repr

/-- What one turn of a loop comes to. -/
inductive Turn where
  | onward (control : Control)
  | answer (matched : Bool)
  /-- An index was not within its list. -/
  | outside
  deriving DecidableEq, Repr

/-- Whether the pattern symbol under the cursor takes the value symbol under its own. -/
def takesAt (at_ : Registers) : Option Bool :=
  if at_.pi < pattern.length then
    pattern[at_.pi]?.bind fun symbol =>
      -- The value is looked at only where the symbol does not take everything.
      if symbol = any then some true
      else value[at_.vi]?.map fun letter => decide (symbol = letter)
  else some false

/-- Whether the pattern has a star at a position. -/
def starAt (pi : Nat) : Option Bool :=
  if pi < pattern.length then pattern[pi]?.map fun symbol => decide (symbol = star)
  else some false

/-- One turn of the matcher's loops. -/
def turn : Control → Turn
  | .scanning at_ =>
    if at_.vi < value.length then
      match takesAt any pattern value at_ with
      | none => .outside
      | some true => .onward (.scanning { at_ with pi := at_.pi + 1, vi := at_.vi + 1 })
      | some false =>
        match starAt star pattern at_.pi with
        | none => .outside
        | some true =>
          .onward (.scanning { at_ with pi := at_.pi + 1, star := some at_.pi, resume := at_.vi })
        | some false =>
          match at_.star with
          | some last =>
            .onward (.scanning
              { at_ with pi := last + 1, vi := at_.resume + 1, resume := at_.resume + 1 })
          | none => .answer false
    else .onward (.skipping at_.pi)
  | .skipping pi =>
    match starAt star pattern pi with
    | none => .outside
    | some true => .onward (.skipping (pi + 1))
    | some false => .answer (pi == pattern.length)

/-- So many turns of the loops, or as many as there are until they end. -/
def turns : Nat → Control → Turn
  | 0, control => .onward control
  | count + 1, control =>
    match turn star any pattern value control with
    | .onward next => turns count next
    | ended => ended

/-- Enough turns for any pattern and value of these lengths. -/
def turnsFuel : Nat := scanFuel pattern value + pattern.length + 1

end Turns

section Language

variable (star any : α)

/-- Only the empty word matches the empty pattern. -/
@[simp] theorem mem_language_nil (word : List α) :
    word ∈ language star any [] ↔ word = [] := by
  simp [language, Language.mem_one]

/-- A star stands for every word. -/
theorem mem_symbolLanguage_star (word : List α) :
    word ∈ symbolLanguage star any star := by
  simp only [symbolLanguage, if_true]
  exact trivial

/-- Every other symbol stands for one-symbol words only. -/
theorem mem_symbolLanguage {symbol : α} (plain : symbol ≠ star) (word : List α) :
    word ∈ symbolLanguage star any symbol ↔
      ∃ head, word = [head] ∧ (symbol = any ∨ symbol = head) := by
  -- What is not a star stands for exactly one symbol.
  unfold symbolLanguage
  rw [if_neg plain]
  by_cases wild : symbol = any
  · -- The single-symbol wildcard accepts whatever stands there.
    rw [if_pos wild]
    constructor
    · rintro ⟨head, rfl⟩
      exact ⟨head, rfl, .inl wild⟩
    · rintro ⟨head, rfl, _⟩
      exact ⟨head, rfl⟩
  · -- A literal accepts only itself.
    rw [if_neg wild]
    constructor
    · rintro rfl
      exact ⟨symbol, rfl, .inr rfl⟩
    · rintro ⟨head, rfl, same⟩
      rw [same.resolve_left wild]
      exact rfl

/-- The first symbol of a pattern matches a front part of the word. -/
theorem mem_language_split (symbol : α) (rest word : List α) :
    word ∈ language star any (symbol :: rest) ↔
      ∃ front ∈ symbolLanguage star any symbol, ∃ tail ∈ language star any rest,
        front ++ tail = word := by
  simp [language, Language.mem_mul]

/-- A star in front lets any run be dropped from the word. -/
theorem mem_language_star (rest word : List α) :
    word ∈ language star any (star :: rest) ↔
      ∃ skipped, skipped ≤ word.length ∧ word.drop skipped ∈ language star any rest := by
  rw [mem_language_split]
  constructor
  · -- What the star spans is a front part of the word, so its length says how much to drop.
    rintro ⟨run, -, tail, member, rfl⟩
    exact ⟨run.length, by simp, by simpa using member⟩
  · -- Conversely the dropped part is a run, and a star accepts any run.
    rintro ⟨skipped, _, member⟩
    exact ⟨word.take skipped, mem_symbolLanguage_star star any _, word.drop skipped, member,
      List.take_append_drop _ _⟩

/-- Every other symbol consumes exactly one symbol of the word. -/
theorem mem_language_cons {symbol : α} (plain : symbol ≠ star) (rest word : List α) :
    word ∈ language star any (symbol :: rest) ↔
      ∃ head tail, word = head :: tail ∧ (symbol = any ∨ symbol = head) ∧
        tail ∈ language star any rest := by
  rw [mem_language_split]
  constructor
  · -- The front part is a single symbol, which is the head of the word.
    rintro ⟨front, single, tail, member, rfl⟩
    obtain ⟨head, rfl, fits⟩ := (mem_symbolLanguage star any plain front).mp single
    exact ⟨head, tail, rfl, fits, member⟩
  · rintro ⟨head, tail, rfl, fits, member⟩
    exact ⟨[head], (mem_symbolLanguage star any plain [head]).mpr ⟨head, rfl, fits⟩, tail, member,
      rfl⟩

/-- A pattern with no wildcard at all matches only itself. -/
theorem mem_language_literal {pattern : List α} (starless : star ∉ pattern)
    (anyless : any ∉ pattern) :
    ∀ {word : List α}, word ∈ language star any pattern ↔ word = pattern := by
  induction pattern with
  | nil => intro word; simp
  | cons symbol rest ih =>
    intro word
    have plain : symbol ≠ star := fun same => starless (by simp [same])
    have literal : symbol ≠ any := fun same => anyless (by simp [same])
    -- Neither wildcard stands in the tail either, so the tail spells itself.
    have tails := @ih (fun inside => starless (List.mem_cons_of_mem _ inside))
      (fun inside => anyless (List.mem_cons_of_mem _ inside))
    rw [mem_language_cons star any plain]
    constructor
    · rintro ⟨head, tail, rfl, same, member⟩
      rw [same.resolve_left literal, tails.mp member]
    · rintro rfl
      exact ⟨symbol, rest, rfl, .inr rfl, tails.mpr rfl⟩

end Language

section Direct

/-- A symbol of a pattern takes a letter of a value, and spans nothing else. -/
def Fits (any symbol letter : α) : Prop := symbol = any ∨ symbol = letter

/--
A word is read along a pattern, and a star that finds a star there takes just that one.

Every other star spans any run, the second wildcard one symbol, the rest themselves.
-/
def Direct (star any : α) : List α → List α → Prop
  | [], word => word = []
  | symbol :: rest, word =>
    if symbol = star then
      if word.head? = some star then Direct star any rest word.tail
      else ∃ tail, tail <:+ word ∧ Direct star any rest tail
    else ∃ head tail, word = head :: tail ∧ Fits any symbol head ∧ Direct star any rest tail

variable {star any : α}

/-- A star that finds a star takes it. -/
theorem direct_star_cons (rest tail : List α) :
    Direct star any (star :: rest) (star :: tail) ↔ Direct star any rest tail := by
  simp [Direct]

/-- A star that finds none spans any run. -/
theorem direct_star {word : List α} (other : word.head? ≠ some star) (rest : List α) :
    Direct star any (star :: rest) word ↔ ∃ tail, tail <:+ word ∧ Direct star any rest tail := by
  rw [Direct, if_pos rfl, if_neg other]

/-- Whatever a star finds, the rest is read behind it. -/
theorem suffix_of_direct_star {rest word : List α} (direct : Direct star any (star :: rest) word) :
    ∃ tail, tail <:+ word ∧ Direct star any rest tail := by
  by_cases found : word.head? = some star
  · rw [Direct, if_pos rfl, if_pos found] at direct
    exact ⟨word.tail, List.tail_suffix word, direct⟩
  · exact (direct_star found rest).mp direct

/-- Every other symbol takes exactly one symbol of the word. -/
theorem direct_cons {symbol : α} (plain : symbol ≠ star) (rest word : List α) :
    Direct star any (symbol :: rest) word ↔
      ∃ head tail, word = head :: tail ∧ Fits any symbol head ∧ Direct star any rest tail := by
  rw [Direct, if_neg plain]

/-- The empty word is read along exactly the patterns made of stars alone. -/
theorem direct_nil_iff (pattern : List α) :
    Direct star any pattern [] ↔ (pattern.dropWhile (· == star)).isEmpty = true := by
  induction pattern with
  | nil => simp [Direct]
  | cons symbol rest ih =>
    by_cases wild : symbol = star
    · -- A leading star can only span nothing, so the rest of the pattern decides.
      subst wild
      rw [direct_star (by simp)]
      simpa using ih
    · rw [direct_cons wild]
      simp [wild]

/-- A word that is read along a pattern matches it. -/
theorem mem_language_of_direct {pattern word : List α} (direct : Direct star any pattern word) :
    word ∈ language star any pattern := by
  -- The word is taken apart symbol by symbol, and a star takes the run before the suffix it picks.
  induction pattern generalizing word with
  | nil => exact (mem_language_nil star any word).mpr direct
  | cons symbol rest ih =>
    by_cases wild : symbol = star
    · subst wild
      obtain ⟨tail, ⟨run, rfl⟩, onward⟩ := suffix_of_direct_star direct
      rw [mem_language_star]
      exact ⟨run.length, by simp, by simpa using ih onward⟩
    · obtain ⟨head, tail, rfl, fits, direct⟩ := (direct_cons wild rest word).mp direct
      exact (mem_language_cons star any wild rest _).mpr ⟨head, tail, rfl, fits, ih direct⟩

/-- Where no star can find one, a word that matches a pattern is read along it. -/
theorem direct_of_mem_language {pattern word : List α} (starless : star ∉ pattern ∨ star ∉ word)
    (member : word ∈ language star any pattern) : Direct star any pattern word := by
  -- No star of the pattern can meet a star of the word, so each stands for a plain run.
  induction pattern generalizing word with
  | nil => exact (mem_language_nil star any word).mp member
  | cons symbol rest ih =>
    by_cases wild : symbol = star
    · subst wild
      have starless : symbol ∉ word := starless.resolve_left (by simp)
      obtain ⟨skipped, -, member⟩ := (mem_language_star symbol any rest word).mp member
      have other : word.head? ≠ some symbol := fun found => starless (List.mem_of_head? found)
      rw [direct_star other]
      have behind : symbol ∉ word.drop skipped :=
        fun inside => starless (List.mem_of_mem_drop inside)
      exact ⟨word.drop skipped, List.drop_suffix skipped word, ih (.inr behind) member⟩
    · obtain ⟨head, tail, rfl, fits, member⟩ :=
        (mem_language_cons star any wild rest word).mp member
      refine (direct_cons wild rest _).mpr ⟨head, tail, rfl, fits, ih ?_ member⟩
      exact starless.imp (mt (List.mem_cons_of_mem _)) (mt (List.mem_cons_of_mem _))

/--
What a stretch of a pattern has taken symbol by symbol cannot be read to end any earlier.

Wherever the stretch starts instead, what is behind it is read behind what it has taken.
-/
theorem direct_span (distinct : any ≠ star) {stretch run : List α}
    (taken : List.Forall₂ (Fits any) stretch run) {rest tail word : List α}
    (behind : word <:+ run ++ tail) (direct : Direct star any (stretch ++ rest) word) :
    ∃ left, left <:+ tail ∧ Direct star any rest left := by
  -- The induction is on the stretch, and the word never gets ahead of what was taken.
  induction taken generalizing word with
  | nil => exact ⟨word, behind, direct⟩
  | @cons symbol letter stretch run fits _ ih =>
    rw [List.cons_append] at behind direct
    by_cases wild : symbol = star
    · subst wild
      rcases List.suffix_cons_iff.mp behind with rfl | within
      · -- At its own place the star finds the star that it has taken.
        obtain rfl : symbol = letter := fits.resolve_left distinct.symm
        exact ih (List.suffix_refl _) ((direct_star_cons _ _).mp direct)
      · obtain ⟨left, shorter, direct⟩ := suffix_of_direct_star direct
        exact ih (shorter.trans within) direct
    · obtain ⟨head, left, rfl, -, direct⟩ := (direct_cons wild _ word).mp direct
      refine ih ?_ direct
      rcases List.suffix_cons_iff.mp behind with same | within
      · rw [(List.cons.inj same).2]
      · exact (List.suffix_cons head left).trans within

end Direct

section Scan

variable {star any : α} {pattern value : List α}

/-- The bounds a scan keeps, and the stretch it has taken symbol by symbol since its last star. -/
structure Shaped (any : α) (pattern value : List α) (at_ : Registers) : Prop where
  inPattern : at_.pi ≤ pattern.length
  inValue : at_.vi ≤ value.length
  behind : at_.resume ≤ at_.vi
  stretch : ∀ last, at_.star = some last → last < at_.pi ∧ ∃ stretch run,
    pattern.drop (last + 1) = stretch ++ pattern.drop at_.pi ∧
      value.drop at_.resume = run ++ value.drop at_.vi ∧ List.Forall₂ (Fits any) stretch run

/-- What is left to try: the cursors as they stand, or the last star spanning a longer run. -/
def Live (star any : α) (pattern value : List α) (at_ : Registers) : Prop :=
  Direct star any (pattern.drop at_.pi) (value.drop at_.vi) ∨
    ∃ last, at_.star = some last ∧ ∃ tail, tail <:+ value.drop (at_.resume + 1) ∧
      Direct star any (pattern.drop (last + 1)) tail

/-- Scan steps still possible from these registers. -/
def remaining (pattern value : List α) (at_ : Registers) : Nat :=
  (value.length - at_.resume) * (pattern.length + 2) + (pattern.length - at_.pi)

omit [DecidableEq α] in
/-- The suffixes of a list are the list itself and those behind its first symbol. -/
theorem suffix_iff_drop (next : Nat) {tail : List α} :
    tail <:+ value.drop next ↔ tail = value.drop next ∨ tail <:+ value.drop (next + 1) := by
  rw [← List.tail_drop]
  cases value.drop next with
  | nil => simp
  | cons head rest => exact List.suffix_cons_iff

/-- Whatever the last star still offers is read behind the stretch already taken. -/
theorem Shaped.span (distinct : any ≠ star) {at_ : Registers}
    (shaped : Shaped any pattern value at_) {last : Nat} (starred : at_.star = some last)
    {tail : List α} (offered : tail <:+ value.drop (at_.resume + 1))
    (direct : Direct star any (pattern.drop (last + 1)) tail) :
    ∃ left, left <:+ value.drop at_.vi ∧ Direct star any (pattern.drop at_.pi) left := by
  -- What the last star offers lies behind the stretch that was compared, so it is offered again.
  obtain ⟨-, stretch, run, patterns, values, taken⟩ := shaped.stretch last starred
  have behind : tail <:+ value.drop at_.resume := (suffix_iff_drop _).mpr (.inr offered)
  rw [values] at behind
  rw [patterns] at direct
  exact direct_span distinct taken behind direct

/-- Mismatched symbols rule out the cursors as they stand. -/
theorem stuck {at_ : Registers} (inside : at_.vi < value.length)
    (differs : ¬(at_.pi < pattern.length ∧
      (pattern[at_.pi]? = some any ∨ pattern[at_.pi]? = value[at_.vi]?)))
    (unstarred : ¬(at_.pi < pattern.length ∧ pattern[at_.pi]? = some star)) :
    ¬Direct star any (pattern.drop at_.pi) (value.drop at_.vi) := by
  intro direct
  rw [List.drop_eq_getElem_cons inside] at direct
  by_cases more : at_.pi < pattern.length
  · -- Inside the pattern a plain symbol has to fit the next symbol of the value.
    have plain : pattern[at_.pi] ≠ star := by
      intro same
      exact unstarred ⟨more, by rw [List.getElem?_eq_getElem more, same]⟩
    rw [List.drop_eq_getElem_cons more, direct_cons plain] at direct
    obtain ⟨head, tail, whole, fits, _⟩ := direct
    obtain ⟨rfl, _⟩ := List.cons.inj whole
    apply differs
    rw [List.getElem?_eq_getElem more, List.getElem?_eq_getElem inside]
    exact ⟨more, by simpa [Fits] using fits⟩
  · -- Past the pattern only the empty word would be read.
    rw [List.drop_eq_nil_of_le (Nat.not_lt.mp more)] at direct
    exact List.cons_ne_nil _ _ direct

/-- Once the value is used up, the leftover pattern decides, and no longer run can help. -/
theorem live_done (distinct : any ≠ star) {at_ : Registers} (shaped : Shaped any pattern value at_)
    (done : ¬at_.vi < value.length) :
    Live star any pattern value at_ ↔
      ((pattern.drop at_.pi).dropWhile (· == star)).isEmpty = true := by
  -- No suffix of a value that is used up is shorter, so the last star has nothing new to offer.
  have spent : value.drop at_.vi = [] := List.drop_eq_nil_of_le (Nat.not_lt.mp done)
  rw [← @direct_nil_iff _ _ star any, Live, spent, or_iff_left_of_imp]
  rintro ⟨last, starred, tail, offered, direct⟩
  obtain ⟨left, behind, direct⟩ := shaped.span distinct starred offered direct
  rw [spent, List.suffix_nil] at behind
  rwa [behind] at direct

/-- A value symbol that fits the pattern symbol is taken, even where both are stars. -/
theorem live_consume (distinct : any ≠ star) {at_ : Registers}
    (shaped : Shaped any pattern value at_) (inside : at_.vi < value.length)
    (more : at_.pi < pattern.length) (fits : Fits any pattern[at_.pi] value[at_.vi]) :
    Shaped any pattern value { at_ with pi := at_.pi + 1, vi := at_.vi + 1 } ∧
      (Live star any pattern value at_ ↔
        Live star any pattern value { at_ with pi := at_.pi + 1, vi := at_.vi + 1 }) := by
  have patterns := List.drop_eq_getElem_cons more
  have values := List.drop_eq_getElem_cons inside
  constructor
  · refine ⟨more, inside, Nat.le_succ_of_le shaped.behind, ?_⟩
    intro last starred
    obtain ⟨before, stretch, run, patterns', values', taken⟩ := shaped.stretch last starred
    -- The stretch grows by the symbol that was taken.
    refine ⟨Nat.lt_succ_of_lt before, stretch ++ [pattern[at_.pi]], run ++ [value[at_.vi]],
      ?_, ?_, List.rel_append taken (.cons fits .nil)⟩
    · rw [patterns', patterns, List.append_assoc, List.singleton_append]
    · rw [values', values, List.append_assoc, List.singleton_append]
  · -- The star remembered from before is untouched, so only the cursors matter.
    refine or_congr ?_ Iff.rfl
    rw [patterns, values]
    by_cases wild : pattern[at_.pi] = star
    · rw [wild] at fits ⊢
      rw [← fits.resolve_left distinct.symm, direct_star_cons]
    · rw [direct_cons wild]
      constructor
      · rintro ⟨head, tail, whole, -, direct⟩
        rwa [(List.cons.inj whole).2]
      · exact fun direct => ⟨_, _, rfl, fits, direct⟩

/-- Remembering a star forgets the one before it without losing anything. -/
theorem live_star (distinct : any ≠ star) {at_ : Registers} (shaped : Shaped any pattern value at_)
    (inside : at_.vi < value.length) (more : at_.pi < pattern.length)
    (wild : pattern[at_.pi] = star) (other : value[at_.vi] ≠ star) :
    Shaped any pattern value { at_ with pi := at_.pi + 1, star := some at_.pi, resume := at_.vi } ∧
      (Live star any pattern value at_ ↔ Live star any pattern value
        { at_ with pi := at_.pi + 1, star := some at_.pi, resume := at_.vi }) := by
  have patterns := List.drop_eq_getElem_cons more
  rw [wild] at patterns
  constructor
  · refine ⟨more, inside.le, le_refl _, ?_⟩
    intro last starred
    -- The stretch since the new star is still empty.
    cases starred
    exact ⟨Nat.lt_succ_self _, [], [], rfl, rfl, .nil⟩
  · have head : (value.drop at_.vi).head? ≠ some star := by
      rw [List.drop_eq_getElem_cons inside, List.head?_cons, ne_eq, Option.some.injEq]
      exact other
    -- Either way, what counts is that the rest is read behind some run.
    calc Live star any pattern value at_
      _ ↔ ∃ tail, tail <:+ value.drop at_.vi ∧
          Direct star any (pattern.drop (at_.pi + 1)) tail := by
        rw [Live, patterns, direct_star head, or_iff_left_of_imp]
        rintro ⟨last, starred, tail, offered, direct⟩
        -- An older star would have to reach this one first, further along the value.
        obtain ⟨left, behind, direct⟩ := shaped.span distinct starred offered direct
        rw [patterns] at direct
        obtain ⟨tail, shorter, direct⟩ := suffix_of_direct_star direct
        exact ⟨tail, shorter.trans behind, direct⟩
      _ ↔ _ := by
        simp only [Live, suffix_iff_drop at_.vi, or_and_right, exists_or, exists_eq_left,
          Option.some.injEq, exists_eq_left']

/-- Falling back makes the last star span exactly one symbol more. -/
theorem live_backtrack {at_ : Registers} (shaped : Shaped any pattern value at_)
    (inside : at_.vi < value.length) {last : Nat} (starred : at_.star = some last)
    (dead : ¬Direct star any (pattern.drop at_.pi) (value.drop at_.vi)) :
    Shaped any pattern value
        { at_ with pi := last + 1, vi := at_.resume + 1, resume := at_.resume + 1 } ∧
      (Live star any pattern value at_ ↔ Live star any pattern value
        { at_ with pi := last + 1, vi := at_.resume + 1, resume := at_.resume + 1 }) := by
  obtain ⟨before, -⟩ := shaped.stretch last starred
  have behind := shaped.behind
  have inPattern := shaped.inPattern
  constructor
  · refine ⟨by simp only; omega, by simp only; omega, le_refl _, ?_⟩
    intro other same
    -- The star remembered is still the same one, with its stretch emptied.
    obtain rfl : last = other := Option.some.inj (starred.symm.trans same)
    exact ⟨Nat.lt_succ_self _, [], [], rfl, rfl, .nil⟩
  · simp only [Live, or_iff_right dead, starred, suffix_iff_drop (at_.resume + 1),
      or_and_right, exists_or, exists_eq_left, Option.some.injEq, exists_eq_left']

/-- The symbols under the cursors are there to be compared. -/
theorem takesAt_eq {at_ : Registers} (inside : at_.vi < value.length) :
    takesAt any pattern value at_ = some (decide (at_.pi < pattern.length ∧
      (pattern[at_.pi]? = some any ∨ pattern[at_.pi]? = value[at_.vi]?))) := by
  -- Both indices are in range, so the partial look-ups find what the total ones do.
  unfold takesAt
  by_cases more : at_.pi < pattern.length
  · rw [if_pos more, List.getElem?_eq_getElem more, List.getElem?_eq_getElem inside]
    by_cases wild : pattern[at_.pi] = any <;> simp [wild, more]
  · simp [more]

/-- A position in front of the pattern's end is there to be looked at. -/
theorem starAt_eq (pi : Nat) :
    starAt star pattern pi = some (decide (pi < pattern.length ∧ pattern[pi]? = some star)) := by
  unfold starAt
  by_cases more : pi < pattern.length
  · simp [more]
  · simp [more]

/-- What a turn of the loop over the value does, and that it neither loses nor gains anything. -/
theorem turn_cases (distinct : any ≠ star) {at_ : Registers}
    (shaped : Shaped any pattern value at_) :
    (turn star any pattern value (.scanning at_) = .onward (.skipping at_.pi) ∧
      (Live star any pattern value at_ ↔
        ((pattern.drop at_.pi).dropWhile (· == star)).isEmpty = true)) ∨
    (turn star any pattern value (.scanning at_) = .answer false ∧
      ¬Live star any pattern value at_) ∨
    ∃ next, turn star any pattern value (.scanning at_) = .onward (.scanning next) ∧
      Shaped any pattern value next ∧
      (Live star any pattern value at_ ↔ Live star any pattern value next) ∧
      remaining pattern value next < remaining pattern value at_ := by
  have behind := shaped.behind
  by_cases inside : at_.vi < value.length
  · simp only [turn, if_pos inside, takesAt_eq inside, starAt_eq]
    by_cases fits : at_.pi < pattern.length ∧
        (pattern[at_.pi]? = some any ∨ pattern[at_.pi]? = value[at_.vi]?)
    · rw [decide_eq_true fits]
      -- A fitting symbol is taken, which moves the pattern cursor on.
      obtain ⟨more, fits⟩ := fits
      have fits : Fits any pattern[at_.pi] value[at_.vi] := by
        simpa [Fits, List.getElem?_eq_getElem more, List.getElem?_eq_getElem inside] using fits
      obtain ⟨kept, same⟩ := live_consume distinct shaped inside more fits
      refine .inr (.inr ⟨_, rfl, kept, same, ?_⟩)
      simp only [remaining]
      omega
    · rw [decide_eq_false fits]
      by_cases wild : at_.pi < pattern.length ∧ pattern[at_.pi]? = some star
      · rw [decide_eq_true wild]
        -- A star is remembered, which moves the pattern cursor on without losing ground.
        obtain ⟨more, wild⟩ := wild
        have other : value[at_.vi] ≠ star := by
          intro found
          exact fits ⟨more, .inr (by rw [wild, List.getElem?_eq_getElem inside, found])⟩
        rw [List.getElem?_eq_getElem more, Option.some.injEq] at wild
        obtain ⟨kept, same⟩ := live_star distinct shaped inside more wild other
        refine .inr (.inr ⟨_, rfl, kept, same, ?_⟩)
        have shrink : (value.length - at_.vi) * (pattern.length + 2) ≤
            (value.length - at_.resume) * (pattern.length + 2) :=
          Nat.mul_le_mul_right _ (by omega)
        simp only [remaining]
        omega
      · rw [decide_eq_false wild]
        -- With neither branch taken nothing is read from the cursors as they stand.
        have dead := stuck inside fits wild
        cases starred : at_.star with
        | none => exact .inr (.inl ⟨rfl, by simp [Live, starred, dead]⟩)
        | some last =>
          obtain ⟨before, -⟩ := shaped.stretch last starred
          obtain ⟨kept, same⟩ := live_backtrack shaped inside starred dead
          refine .inr (.inr ⟨_, rfl, by rwa [starred] at kept, by rwa [starred] at same, ?_⟩)
          -- One symbol less to resume from pays for the pattern restarting at the star.
          have spent : (value.length - at_.resume) * (pattern.length + 2) =
              (value.length - (at_.resume + 1)) * (pattern.length + 2) +
                (pattern.length + 2) := by
            rw [← Nat.succ_mul]
            congr 1
            omega
          simp only [remaining]
          omega
  · -- The value is used up, so the leftover check answers.
    refine .inl ⟨?_, live_done distinct shaped inside⟩
    rw [turn, if_neg inside]

/-- The scan does what the turns of the loop over the value do. -/
theorem scan_turn (fuel : Nat) (at_ : Registers) :
    scan star any pattern value (fuel + 1) at_ =
      match turn star any pattern value (.scanning at_) with
      | .onward (.scanning next) => scan star any pattern value fuel next
      | .onward (.skipping pi) => some pi
      | _ => none := by
  -- Both sides look at the same symbols and decide the same three ways.
  rw [scan, turn]
  by_cases inside : at_.vi < value.length
  · rw [if_pos inside, if_pos inside, takesAt_eq inside, starAt_eq]
    by_cases fits : at_.pi < pattern.length ∧
        (pattern[at_.pi]? = some any ∨ pattern[at_.pi]? = value[at_.vi]?)
    · rw [if_pos fits, decide_eq_true fits]
    · rw [if_neg fits, decide_eq_false fits]
      by_cases wild : at_.pi < pattern.length ∧ pattern[at_.pi]? = some star
      · rw [if_pos wild, decide_eq_true wild]
      · rw [if_neg wild, decide_eq_false wild]
        cases at_.star with
        | none => rfl
        | some last => rfl
  · rw [if_neg inside, if_neg inside]

/-- With enough fuel, the scan and its leftover check decide what is still live. -/
theorem scan_live (distinct : any ≠ star) (fuel : Nat) {at_ : Registers}
    (shaped : Shaped any pattern value at_) (enough : remaining pattern value at_ < fuel) :
    (∃ stop, scan star any pattern value fuel at_ = some stop ∧
        ((pattern.drop stop).dropWhile (· == star)).isEmpty = true) ↔
      Live star any pattern value at_ := by
  -- Each turn ends the scan with the answer or makes what remains smaller.
  induction fuel generalizing at_ with
  | zero => omega
  | succ fuel ih =>
    rw [scan_turn]
    rcases turn_cases distinct shaped with
      ⟨ended, live⟩ | ⟨ended, dead⟩ | ⟨next, ended, kept, same, less⟩
    · rw [ended, live]
      simp
    · rw [ended]
      simpa using dead
    · rw [ended, same]
      exact ih kept (by omega)

omit [DecidableEq α] in
/-- The registers a scan starts with: both fronts, and nothing remembered. -/
theorem shaped_start : Shaped any pattern value ⟨0, 0, none, 0⟩ :=
  ⟨Nat.zero_le _, Nat.zero_le _, le_refl _, by simp⟩

/-- At the start nothing is remembered, so what is live is the whole question. -/
theorem live_start :
    Live star any pattern value ⟨0, 0, none, 0⟩ ↔ Direct star any pattern value := by
  simp [Live]

/-- The matcher decides which values are read along a pattern. -/
theorem isMatch_iff_direct (distinct : any ≠ star) :
    isMatch star any pattern value = true ↔ Direct star any pattern value := by
  -- The fuel covers what remains at the start, so the scan decides what is live there.
  have enough : remaining pattern value ⟨0, 0, none, 0⟩ < scanFuel pattern value := by
    simp [remaining, scanFuel]
  rw [← live_start, ← scan_live distinct _ shaped_start enough]
  unfold isMatch
  cases scan star any pattern value (scanFuel pattern value) ⟨0, 0, none, 0⟩ with
  | none => simp
  | some stop => simp

/-- The loop over the leftover stars ends with the answer whether nothing else is left. -/
theorem turns_skipping (count : Nat) {pi : Nat} (within : pi ≤ pattern.length)
    (enough : pattern.length - pi < count) :
    turns star any pattern value count (.skipping pi) =
      .answer ((pattern.drop pi).dropWhile (· == star)).isEmpty := by
  -- Each turn passes one star, and the first other symbol or the end is the answer.
  induction count generalizing pi with
  | zero => omega
  | succ count ih =>
    rw [turns, turn, starAt_eq]
    by_cases more : pi < pattern.length
    · rw [List.drop_eq_getElem_cons more]
      by_cases wild : pattern[pi] = star
      · rw [decide_eq_true ⟨more, by rw [List.getElem?_eq_getElem more, wild]⟩]
        simpa [wild] using ih more (by omega)
      · have other : ¬(pi < pattern.length ∧ pattern[pi]? = some star) := by
          simpa [more] using wild
        rw [decide_eq_false other, List.dropWhile_cons_of_neg (by simpa using wild)]
        exact congrArg Turn.answer (beq_false_of_ne (Nat.ne_of_lt more))
    · obtain rfl : pi = pattern.length := by omega
      simp

/-- The loops end with an answer to whether anything is live, and no index is ever outside. -/
theorem turns_scanning (distinct : any ≠ star) (count : Nat) {at_ : Registers}
    (shaped : Shaped any pattern value at_)
    (enough : remaining pattern value at_ + pattern.length + 1 < count) :
    ∃ matched, turns star any pattern value count (.scanning at_) = .answer matched ∧
      (matched = true ↔ Live star any pattern value at_) := by
  -- Each turn ends the scan, or goes on with the same answer and less that remains.
  induction count generalizing at_ with
  | zero => omega
  | succ count ih =>
    rw [turns]
    rcases turn_cases distinct shaped with
      ⟨ended, live⟩ | ⟨ended, dead⟩ | ⟨next, ended, kept, same, less⟩
    · rw [ended]
      exact ⟨_, turns_skipping count shaped.inPattern (by omega), live.symm⟩
    · rw [ended]
      exact ⟨false, rfl, by simpa using dead⟩
    · rw [ended, same]
      exact ih kept (by omega)

/-- The loops end within a bound on their turns, with the matcher's answer. -/
theorem turns_eq (distinct : any ≠ star) {count : Nat} (enough : turnsFuel pattern value ≤ count) :
    turns star any pattern value count (.scanning ⟨0, 0, none, 0⟩) =
      .answer (isMatch star any pattern value) := by
  -- The scan cannot use up the bound, so its answer is the one of the matcher.
  have start : remaining pattern value ⟨0, 0, none, 0⟩ + pattern.length + 1 < count := by
    simp only [turnsFuel, scanFuel] at enough
    simp only [remaining, Nat.sub_zero]
    omega
  obtain ⟨matched, ended, live⟩ := turns_scanning distinct count shaped_start start
  rw [ended, Turn.answer.injEq, Bool.eq_iff_iff, live, live_start, isMatch_iff_direct distinct]

/--
The matcher decides the pattern's language, unless both sides hold a literal star.

A star of the value that meets a star of the pattern is consumed as an ordinary symbol.
-/
theorem isMatch_iff (distinct : any ≠ star) (starless : star ∉ pattern ∨ star ∉ value) :
    isMatch star any pattern value = true ↔ value ∈ language star any pattern := by
  rw [isMatch_iff_direct distinct]
  exact ⟨mem_language_of_direct, direct_of_mem_language starless⟩

/-- The matcher is right about a value unless a star has to span a run that starts with a star. -/
theorem isMatch_correct_iff (distinct : any ≠ star) :
    (isMatch star any pattern value = true ↔ value ∈ language star any pattern) ↔
      (value ∈ language star any pattern → Direct star any pattern value) := by
  rw [isMatch_iff_direct distinct]
  exact ⟨fun right member => right.mpr member, fun found => ⟨mem_language_of_direct, found⟩⟩

/-- A pattern without wildcards matches exactly the value it spells. -/
theorem isMatch_literal (distinct : any ≠ star) (starless : star ∉ pattern)
    (anyless : any ∉ pattern) :
    isMatch star any pattern value = true ↔ value = pattern := by
  rw [isMatch_iff distinct (.inl starless), mem_language_literal star any starless anyless]

end Scan

end Wildcard
