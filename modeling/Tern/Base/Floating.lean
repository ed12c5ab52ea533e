import Mathlib.Algebra.Order.Field.Power
import Mathlib.Data.Int.Log
import Mathlib.Data.Rat.Floor

/-! Rounding to binary floating point: to the nearest number, and to the even one of two. -/

namespace Floating

/-- The nearest integer, and of two that are equally near the even one. -/
def roundEven (x : ℚ) : ℤ :=
  if x - ⌊x⌋ < 1 / 2 then ⌊x⌋
  else if 1 / 2 < x - ⌊x⌋ then ⌊x⌋ + 1
  -- Halfway between two integers the parity of the lower one decides.
  else ⌊x⌋ + ⌊x⌋ % 2

/-- A number rounds to the integer below it or to the one above that. -/
theorem roundEven_cases (x : ℚ) : roundEven x = ⌊x⌋ ∨ roundEven x = ⌊x⌋ + 1 := by
  unfold roundEven
  have parity := Int.emod_two_eq_zero_or_one ⌊x⌋
  split_ifs <;> omega

/-- An integer rounds to itself. -/
@[simp] theorem roundEven_intCast (n : ℤ) : roundEven (n : ℚ) = n := by
  simp [roundEven]

/-- A natural number rounds to itself. -/
@[simp] theorem roundEven_natCast (n : ℕ) : roundEven (n : ℚ) = n := roundEven_intCast n

/-- Rounding moves a number by half a unit at most. -/
theorem roundEven_error (x : ℚ) : |(roundEven x : ℚ) - x| ≤ 1 / 2 := by
  have low := Int.floor_le x
  have high := Int.lt_floor_add_one x
  unfold roundEven
  split_ifs with below above
  · rw [abs_le]
    constructor <;> linarith
  · rw [abs_le]
    push_cast
    constructor <;> linarith
  · -- Halfway, either of the two integers is half a unit away.
    rcases Int.emod_two_eq_zero_or_one ⌊x⌋ with even | odd
    · rw [even, abs_le]
      push_cast
      constructor <;> linarith
    · rw [odd, abs_le]
      push_cast
      constructor <;> linarith

/-- Rounding keeps the order of numbers. -/
theorem roundEven_mono {x y : ℚ} (below : x ≤ y) : roundEven x ≤ roundEven y := by
  -- Either an integer lies between the two, or both are rounded from the same one.
  rcases (Int.floor_mono below).lt_or_eq with apart | same
  · have upper := roundEven_cases x
    have lower := roundEven_cases y
    omega
  · have parity := Int.emod_two_eq_zero_or_one ⌊y⌋
    unfold roundEven
    rw [same]
    split_ifs <;> first | omega | linarith

/-- What is not above an integer rounds to no more. -/
theorem roundEven_le {x : ℚ} {n : ℤ} (below : x ≤ n) : roundEven x ≤ n := by
  simpa using roundEven_mono below

/-- What is not below an integer rounds to no less. -/
theorem le_roundEven {x : ℚ} {n : ℤ} (above : (n : ℚ) ≤ x) : n ≤ roundEven x := by
  simpa using roundEven_mono above

/-- What is less than half a unit away from an integer rounds to it. -/
theorem roundEven_eq {x : ℚ} {n : ℤ} (near : |x - n| < 1 / 2) : roundEven x = n := by
  have moved := roundEven_error x
  -- Two integers less than a unit apart are the same.
  have apart : |((roundEven x - n : ℤ) : ℚ)| < 1 := by
    push_cast
    calc |(roundEven x : ℚ) - n| = |((roundEven x : ℚ) - x) + (x - n)| := by ring_nf
      _ ≤ |(roundEven x : ℚ) - x| + |x - n| := abs_add_le _ _
      _ < 1 := by linarith
  have zero : |roundEven x - n| < 1 := by exact_mod_cast apart
  have same := Int.abs_lt_one_iff.mp zero
  omega

/-- A binary format: how many digits a number has, and the place of the last one of the least. -/
structure Format where
  precision : ℕ
  least : ℤ
  deriving DecidableEq, Repr

/-- Double precision. -/
def Format.double : Format := ⟨53, -1074⟩

section Rounding

variable (format : Format)

/-- The place of the last digit that a positive number has. -/
def Format.lastPlace (x : ℚ) : ℤ := max (Int.log 2 x + 1 - format.precision) format.least

/-- The nearest number of the format to one that is not negative, without a largest number. -/
def Format.round (x : ℚ) : ℚ :=
  roundEven (x / 2 ^ format.lastPlace x) * 2 ^ format.lastPlace x

variable {format} {x y : ℚ}

/-- A digit in any place counts. -/
theorem place_pos (place : ℤ) : (0 : ℚ) < 2 ^ place := zpow_pos two_pos place

/-- Zero is in every format. -/
@[simp] theorem round_zero : format.round 0 = 0 := by
  simp [Format.round, roundEven]

/-- What is a multiple of the last place is in the format. -/
theorem round_eq_self {n : ℤ} (whole : x = n * 2 ^ format.lastPlace x) : format.round x = x := by
  have exact_ : x / 2 ^ format.lastPlace x = n := (div_eq_iff (place_pos _).ne').mpr whole
  rw [Format.round, exact_, roundEven_intCast]
  exact whole.symm

/-- Numbers that are not negative do not round to negative ones. -/
theorem round_nonneg (positive : 0 ≤ x) : 0 ≤ format.round x := by
  have least : 0 ≤ roundEven (x / 2 ^ format.lastPlace x) := by
    refine le_roundEven ?_
    exact_mod_cast div_nonneg positive (place_pos _).le
  exact mul_nonneg (by exact_mod_cast least) (place_pos _).le

/-- Rounding moves a number by half of its last place at most. -/
theorem round_error : |format.round x - x| ≤ 2 ^ format.lastPlace x / 2 := by
  -- In units of the last place the error is that of rounding to an integer.
  have place := place_pos (format.lastPlace x)
  have scaled : format.round x - x =
      (roundEven (x / 2 ^ format.lastPlace x) - x / 2 ^ format.lastPlace x) *
        2 ^ format.lastPlace x := by
    rw [sub_mul, div_mul_cancel₀ _ place.ne', Format.round]
  rw [scaled, abs_mul, abs_of_pos place]
  calc |(roundEven (x / 2 ^ format.lastPlace x) : ℚ) - x / 2 ^ format.lastPlace x| *
        2 ^ format.lastPlace x ≤ 1 / 2 * 2 ^ format.lastPlace x :=
      mul_le_mul_of_nonneg_right (roundEven_error _) place.le
    _ = 2 ^ format.lastPlace x / 2 := by ring

/-- A number below a power of two has its last place that many digits further down, or the least. -/
theorem round_error_of_lt {power : ℤ} (positive : 0 ≤ x) (below : x < 2 ^ power) :
    |format.round x - x| ≤ 2 ^ max (power - format.precision) format.least / 2 := by
  -- The exponent of a number below a power of two is smaller, so its last place is too.
  rcases positive.eq_or_lt with rfl | positive
  · simpa using (div_nonneg (place_pos _).le zero_le_two)
  have logs : Int.log 2 x < power :=
    (Int.lt_zpow_iff_log_lt one_lt_two positive).mp (by exact_mod_cast below)
  have place : format.lastPlace x ≤ max (power - format.precision) format.least :=
    max_le_max_right _ (by omega)
  refine round_error.trans (div_le_div_of_nonneg_right ?_ zero_le_two)
  exact zpow_le_zpow_right₀ one_le_two place

/-- A power of two is a multiple of every place that is not above it. -/
theorem zpow_eq_mul_place {power place : ℤ} (above : place ≤ power) :
    ∃ n : ℤ, (2 : ℚ) ^ power = n * 2 ^ place := by
  -- What is left of the exponent above the place is the exponent of the factor.
  refine ⟨2 ^ (power - place).toNat, ?_⟩
  push_cast
  rw [← zpow_natCast, ← zpow_add₀ two_ne_zero]
  congr 1
  omega

/-- A number below a power of two rounds to no more, if the power is not below the last place. -/
theorem round_le_zpow {power : ℤ} (place : format.lastPlace x ≤ power) (below : x ≤ 2 ^ power) :
    format.round x ≤ 2 ^ power := by
  obtain ⟨n, whole⟩ := zpow_eq_mul_place place
  rw [whole] at below ⊢
  refine mul_le_mul_of_nonneg_right ?_ (place_pos _).le
  exact_mod_cast roundEven_le ((div_le_iff₀ (place_pos _)).mpr below)

/-- A number above a power of two rounds to no less, if the power is not below the last place. -/
theorem zpow_le_round {power : ℤ} (place : format.lastPlace x ≤ power) (above : 2 ^ power ≤ x) :
    2 ^ power ≤ format.round x := by
  obtain ⟨n, whole⟩ := zpow_eq_mul_place place
  rw [whole] at above ⊢
  refine mul_le_mul_of_nonneg_right ?_ (place_pos _).le
  exact_mod_cast le_roundEven ((le_div_iff₀ (place_pos _)).mpr above)

/-- Rounding keeps the order of numbers that are not negative. -/
theorem round_mono (digits : 0 < format.precision) (positive : 0 ≤ x) (below : x ≤ y) :
    format.round x ≤ format.round y := by
  -- Zero is rounded to itself, and nothing is rounded below it.
  rcases positive.eq_or_lt with rfl | positive
  · rw [round_zero]
    exact round_nonneg below
  have logs := Int.log_mono_right (b := 2) positive below
  -- The larger number has no lower last place.
  have lower : format.lastPlace x ≤ format.lastPlace y := max_le_max_right _ (by omega)
  rcases lower.eq_or_lt with same | apart
  · -- In the same places the numbers are rounded alike.
    unfold Format.round
    rw [same]
    refine mul_le_mul_of_nonneg_right ?_ (place_pos _).le
    exact_mod_cast roundEven_mono (div_le_div_of_nonneg_right below (place_pos _).le)
  · -- Between numbers of different last places lies a power of two, which is in the format.
    have beneath : (2 : ℚ) ^ Int.log 2 y ≤ y := by
      exact_mod_cast Int.zpow_log_le_self one_lt_two (positive.trans_le below)
    have above : x < (2 : ℚ) ^ (Int.log 2 x + 1) := by
      exact_mod_cast Int.lt_zpow_succ_log_self one_lt_two x
    unfold Format.lastPlace at apart
    have power : Int.log 2 x + 1 ≤ Int.log 2 y := by omega
    have within : x ≤ 2 ^ Int.log 2 y :=
      above.le.trans (zpow_le_zpow_right₀ one_le_two power)
    calc format.round x ≤ 2 ^ Int.log 2 y :=
        round_le_zpow (by unfold Format.lastPlace; omega) within
      _ ≤ format.round y := zpow_le_round (by unfold Format.lastPlace; omega) beneath

/-- A positive number is in the format when a multiple of a place is, that is not below its last. -/
theorem round_mul_place {n place : ℤ} (below : format.lastPlace (n * 2 ^ place) ≤ place) :
    format.round (n * 2 ^ place) = n * 2 ^ place := by
  obtain ⟨unit, whole⟩ := zpow_eq_mul_place below
  refine round_eq_self (n := n * unit) ?_
  push_cast
  rw [mul_assoc, ← whole]

/-- A number that does not round to zero has no last place above all of its digits. -/
theorem lastPlace_le_of_round (above : 0 < format.round x) :
    format.lastPlace x ≤ Int.log 2 x + 1 := by
  by_contra beyond
  have upper : x < (2 : ℚ) ^ (Int.log 2 x + 1) := by
    exact_mod_cast Int.lt_zpow_succ_log_self one_lt_two x
  -- The number is less than half of its last place.
  have half : x < 1 / 2 * 2 ^ format.lastPlace x := by
    calc x < 2 ^ (Int.log 2 x + 1) := upper
      _ ≤ 2 ^ (format.lastPlace x - 1) := zpow_le_zpow_right₀ one_le_two (by omega)
      _ = 1 / 2 * 2 ^ format.lastPlace x := by rw [zpow_sub_one₀ two_ne_zero]; ring
  have scaled : x / 2 ^ format.lastPlace x ≤ 1 / 2 :=
    ((div_lt_iff₀ (place_pos _)).mpr half).le
  have zero : roundEven (x / 2 ^ format.lastPlace x) ≤ 0 := by
    have halfway : roundEven (1 / 2) = 0 := by decide +kernel
    exact (roundEven_mono scaled).trans halfway.le
  have nothing : format.round x ≤ 0 :=
    mul_nonpos_of_nonpos_of_nonneg (by exact_mod_cast zero) (place_pos _).le
  exact absurd above (not_lt.mpr nothing)

/-- What is rounded is in the format. -/
theorem round_round (digits : 0 < format.precision) (positive : 0 ≤ x) :
    format.round (format.round x) = format.round x := by
  rcases positive.eq_or_lt with rfl | positive
  · simp
  -- What was rounded to zero stays there.
  rcases (round_nonneg positive.le).eq_or_lt with zero | above
  · rw [← zero, round_zero]
  have upper : x < (2 : ℚ) ^ (Int.log 2 x + 1) := by
    exact_mod_cast Int.lt_zpow_succ_log_self one_lt_two x
  rcases lt_or_ge (format.round x) (2 ^ (Int.log 2 x + 1)) with inside | carried
  · -- Below the next power of two the last place is no higher than it was.
    refine round_mul_place (max_le_max_right _ ?_)
    have logs := (Int.lt_zpow_iff_log_lt (b := 2) one_lt_two above).mp (by exact_mod_cast inside)
    change Int.log 2 (format.round x) + 1 - _ ≤ _
    omega
  · -- Otherwise the number was rounded up to that power, which has no lower digits.
    have place := lastPlace_le_of_round above
    have power : format.round x = 2 ^ (Int.log 2 x + 1) :=
      le_antisymm (round_le_zpow place upper.le) carried
    have lone : format.lastPlace ((1 : ℤ) * 2 ^ (Int.log 2 x + 1)) ≤ Int.log 2 x + 1 := by
      have log : Int.log 2 ((2 : ℚ) ^ (Int.log 2 x + 1)) = Int.log 2 x + 1 := by
        exact_mod_cast Int.log_zpow (R := ℚ) one_lt_two (Int.log 2 x + 1)
      rw [Int.cast_one, one_mul]
      unfold Format.lastPlace at place ⊢
      rw [log]
      omega
    rw [power]
    simpa using round_mul_place lone

/-- A natural number with no more digits than the format has is in it. -/
theorem round_natCast (integral : format.least ≤ 0) {n : ℕ} (short : n < 2 ^ format.precision) :
    format.round n = n := by
  -- With few enough digits the last place is at or below the units, which divide every integer.
  rcases n.eq_zero_or_pos with rfl | positive
  · simp
  have place : format.lastPlace n ≤ 0 := by
    have few : Int.log 2 (n : ℚ) < format.precision := by
      rw [← Int.lt_zpow_iff_log_lt one_lt_two (by exact_mod_cast positive)]
      exact_mod_cast short
    unfold Format.lastPlace
    omega
  have whole : format.round ((n : ℤ) * 2 ^ (0 : ℤ)) = (n : ℤ) * 2 ^ (0 : ℤ) :=
    round_mul_place (by simpa using place)
  simpa using whole

end Rounding

end Floating
