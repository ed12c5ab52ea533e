import Mathlib.Tactic.GCongr
import Tern.Desktop.Reconnect

/-! The arithmetic of the backoff: what its delays are, and where computing them saturates. -/

namespace Tern.Desktop

section Saturation

/-- A span is clamped to the longest one. -/
theorem nanos_saturate (nanos : Nat) :
    (Duration.saturate nanos).nanos = min nanos Duration.max.nanos := by
  -- A span that is too long becomes the longest one, and any other stays what it is.
  unfold Duration.saturate
  by_cases bounded : nanos < 2 ^ 64 * 10 ^ 9
  · rw [dif_pos bounded, min_eq_left]
    simp only [Duration.max]
    omega
  · rw [dif_neg bounded, min_eq_right]
    simp only [Duration.max]
    omega

/-- No span is longer than the longest one. -/
theorem nanos_le_max (span : Duration) : span.nanos ≤ Duration.max.nanos := by
  have bounded := span.bounded
  simp only [Duration.max]
  omega

/-- The shorter span has the smaller number of nanoseconds. -/
theorem nanos_min (span other : Duration) :
    (span.min other).nanos = min span.nanos other.nanos := by
  unfold Duration.min
  by_cases shorter : span.nanos ≤ other.nanos
  · rw [if_pos shorter, min_eq_left shorter]
  · rw [if_neg shorter, min_eq_right (Nat.le_of_not_le shorter)]

/-- A power is clamped to the largest 32-bit number. -/
theorem toNat_saturatingPow (base : UInt32) (exponent : Nat) :
    (saturatingPow base exponent).toNat = min (base.toNat ^ exponent) (2 ^ 32 - 1) := by
  unfold saturatingPow
  generalize base.toNat ^ exponent = power
  -- The power is looked at only by how it compares to the bound.
  by_cases fits : power < 2 ^ 32
  · rw [if_pos fits, UInt32.toNat_ofNat_of_lt' fits, min_eq_left (by omega)]
  · rw [if_neg fits, UInt32.toNat_ofNat_of_lt' (by decide), min_eq_right (by omega)]

end Saturation

section Ceiling

variable (backoff : Backoff)

/-- The factor by which the base grows until a retry, in exact integers. -/
def Backoff.growth (self : Backoff) (attempt : UInt32) : Nat :=
  self.factor.toNat ^ (attempt.toNat - 1)

/-- The ceiling is the base times its growth, clamped in the power, the product and at the cap. -/
theorem nanos_ceiling (attempt : UInt32) :
    (backoff.ceiling attempt).nanos =
      min (min (backoff.base.nanos * min (backoff.growth attempt) (2 ^ 32 - 1)) Duration.max.nanos)
        backoff.cap.nanos := by
  simp only [Backoff.ceiling, Backoff.growth, Duration.saturatingMul, nanos_min, nanos_saturate,
    toNat_saturatingPow]

/-- The cap hides where the product would saturate. -/
theorem nanos_ceiling_eq (attempt : UInt32) :
    (backoff.ceiling attempt).nanos =
      min (backoff.base.nanos * min (backoff.growth attempt) (2 ^ 32 - 1)) backoff.cap.nanos := by
  rw [nanos_ceiling, min_assoc, min_eq_right (nanos_le_max backoff.cap)]

/-- No ceiling is above the cap. -/
theorem ceiling_le_cap (attempt : UInt32) :
    (backoff.ceiling attempt).nanos ≤ backoff.cap.nanos := by
  rw [nanos_ceiling_eq]
  exact min_le_right _ _

/-- The ceilings rise with the attempts, unless the factor is zero. -/
theorem ceiling_mono (grows : 1 ≤ backoff.factor.toNat) {attempt later : UInt32}
    (earlier : attempt.toNat ≤ later.toNat) :
    (backoff.ceiling attempt).nanos ≤ (backoff.ceiling later).nanos := by
  -- Only the growth depends on the attempt, and each clamping keeps its order.
  have growth : backoff.growth attempt ≤ backoff.growth later :=
    Nat.pow_le_pow_right grows (Nat.sub_le_sub_right earlier 1)
  rw [nanos_ceiling_eq, nanos_ceiling_eq]
  gcongr

/-- The ceiling is exact as soon as the cap is below what the power saturates at. -/
theorem ceiling_exact
    (reaches : backoff.cap.nanos ≤ backoff.base.nanos * (2 ^ 32 - 1)) (attempt : UInt32) :
    (backoff.ceiling attempt).nanos =
      min backoff.cap.nanos (backoff.base.nanos * backoff.growth attempt) := by
  rw [nanos_ceiling_eq, min_comm]
  rcases Nat.le_total (backoff.growth attempt) (2 ^ 32 - 1) with fits | saturates
  · -- A power that fits is exact, and so is the product.
    rw [min_eq_left fits]
  · -- From where the power saturates on, both products are above the cap.
    have beyond : backoff.base.nanos * (2 ^ 32 - 1) ≤
        backoff.base.nanos * backoff.growth attempt := Nat.mul_le_mul_left _ saturates
    rw [min_eq_right saturates, min_eq_left reaches, min_eq_left (reaches.trans beyond)]

end Ceiling

section Jitter

/-- A jitter value stands for a fraction from zero to one. -/
theorem fraction_mem (rand01 : Jitter) : 0 ≤ rand01.fraction ∧ rand01.fraction ≤ 1 := by
  -- A value that is not a number stands for no jitter.
  cases rand01 with
  | none => exact ⟨le_refl _, zero_le_one⟩
  | some value =>
    simp only [Jitter.fraction]
    split_ifs with negative above
    · exact ⟨le_refl _, zero_le_one⟩
    · exact ⟨zero_le_one, le_refl _⟩
    · exact ⟨not_lt.mp negative, not_lt.mp above⟩

/-- So many nanoseconds do not come out as more when they have been seconds in double precision. -/
def Returns (nanos : Nat) : Prop :=
  Floating.roundEven (Duration.secsF64 nanos * 10 ^ 9) ≤ nanos

instance (nanos : Nat) : Decidable (Returns nanos) := Int.decLe _ _

/-- Neither the whole seconds of a span nor the rest of them are negative. -/
theorem sum_nonneg (nanos : Nat) :
    0 ≤ Floating.Format.double.round (nanos / 10 ^ 9 : Nat) +
      Floating.Format.double.round ((nanos % 10 ^ 9 : Nat) / 10 ^ 9) :=
  add_nonneg (Floating.round_nonneg (Nat.cast_nonneg _)) (Floating.round_nonneg (by positivity))

/-- The seconds of a span are not negative. -/
theorem secsF64_nonneg (nanos : Nat) : 0 ≤ Duration.secsF64 nanos := by
  unfold Duration.secsF64
  exact Floating.round_nonneg (sum_nonneg nanos)

/-- The seconds of a span are a double. -/
theorem round_secsF64 (nanos : Nat) :
    Floating.Format.double.round (Duration.secsF64 nanos) = Duration.secsF64 nanos := by
  unfold Duration.secsF64
  exact Floating.round_round (by decide) (sum_nonneg nanos)

/-- A part of a span is a span no longer than it, if the whole span comes back as no more. -/
theorem mulF64_within {span : Duration} (returns : Returns span.nanos) {fraction : ℚ}
    (positive : 0 ≤ fraction) (part : fraction ≤ 1) :
    ∃ delay, span.mulF64 fraction = some delay ∧ delay.nanos ≤ span.nanos := by
  have seconds := secsF64_nonneg span.nanos
  have least : 0 ≤ fraction * span.asSecsF64 := mul_nonneg positive seconds
  have most : fraction * span.asSecsF64 ≤ span.asSecsF64 := mul_le_of_le_one_left seconds part
  -- Both roundings keep the order, so that the part comes out below what the whole does.
  have rounded : Floating.Format.double.round (fraction * span.asSecsF64) ≤ span.asSecsF64 :=
    (Floating.round_mono (by decide) least most).trans_eq (round_secsF64 span.nanos)
  have scaled := mul_le_mul_of_nonneg_right rounded (show (0 : ℚ) ≤ 10 ^ 9 by positivity)
  have above := (Floating.roundEven_mono scaled).trans returns
  have positive : 0 ≤ Floating.Format.double.round (fraction * span.asSecsF64) :=
    Floating.round_nonneg least
  have below : 0 ≤ Floating.roundEven
      (Floating.Format.double.round (fraction * span.asSecsF64) * 10 ^ 9) :=
    Floating.le_roundEven (by rw [Int.cast_zero]; positivity)
  have bounded := span.bounded
  rw [Duration.mulF64, Duration.fromSecsF64, dif_pos ⟨below, by omega⟩]
  exact ⟨_, rfl, by dsimp only; omega⟩

/-- A span that is no longer than it was when all of it is taken comes back as no more. -/
theorem returns_of_mulF64 {span delay : Duration} (whole : span.mulF64 1 = some delay)
    (within : delay.nanos ≤ span.nanos) : Returns span.nanos := by
  -- With a factor of one, multiplying is reading the span as seconds and writing it back.
  rw [Duration.mulF64, one_mul, Duration.asSecsF64, round_secsF64, Duration.fromSecsF64] at whole
  split at whole
  · cases whole
    exact Int.toNat_le.mp within
  · cases whole

/-- The rest of a second is near to its double. -/
theorem round_rest {rest : Nat} (short : rest < 10 ^ 9) :
    |Floating.Format.double.round (rest / 10 ^ 9) - rest / 10 ^ 9| ≤ 1 / 2 ^ 54 := by
  -- A rest is below one second, whose last place in a double is fifty-three digits down.
  have below : (rest : ℚ) / 10 ^ 9 < 2 ^ (0 : ℤ) := by
    rw [zpow_zero, div_lt_one (by positivity)]
    exact_mod_cast short
  refine (Floating.round_error_of_lt (by positivity) below).trans (le_of_eq ?_)
  simp only [Floating.Format.double]
  norm_num

/-- The seconds of a span of less than forty-eight days are less than half a nanosecond off. -/
theorem secsF64_near {nanos : Nat} (short : nanos < 2 ^ 22 * 10 ^ 9) :
    |Duration.secsF64 nanos - nanos / 10 ^ 9| < 1 / 2 / 10 ^ 9 := by
  have less := Nat.mod_lt nanos (show 0 < 10 ^ 9 by decide)
  have seconds : nanos / 10 ^ 9 + 1 ≤ 2 ^ 22 := by omega
  have split : (nanos : ℚ) = (nanos / 10 ^ 9 : Nat) * 10 ^ 9 + (nanos % 10 ^ 9 : Nat) := by
    exact_mod_cast (Nat.div_add_mod' nanos (10 ^ 9)).symm
  -- The whole seconds are a double, and the rest of them is near to one.
  have whole : Floating.Format.double.round (nanos / 10 ^ 9 : Nat) = (nanos / 10 ^ 9 : Nat) :=
    Floating.round_natCast (by decide) (seconds.trans (by decide))
  have rest := abs_le.mp (round_rest less)
  have positive : 0 ≤ Floating.Format.double.round ((nanos % 10 ^ 9 : Nat) / 10 ^ 9) :=
    Floating.round_nonneg (by positivity)
  have few : ((nanos / 10 ^ 9 : Nat) : ℚ) + 1 ≤ 2 ^ 22 := by exact_mod_cast seconds
  have some_ : (0 : ℚ) ≤ (nanos / 10 ^ 9 : Nat) := Nat.cast_nonneg _
  have part : ((nanos % 10 ^ 9 : Nat) : ℚ) + 1 ≤ 10 ^ 9 := by exact_mod_cast less
  simp only [Duration.secsF64, whole, split]
  rw [add_div, mul_div_cancel_right₀ _ (by positivity)]
  -- Their sum is below the twenty-second power of two, so that it is rounded by little.
  generalize ((nanos % 10 ^ 9 : Nat) : ℚ) = remaining at *
  generalize ((nanos / 10 ^ 9 : Nat) : ℚ) = full at *
  generalize Floating.Format.double.round (remaining / 10 ^ 9) = double at *
  have moved : |Floating.Format.double.round (full + double) - (full + double)| ≤
      2 ^ max (((22 : ℕ) : ℤ) - 53) (-1074) / 2 := by
    refine Floating.round_error_of_lt (add_nonneg some_ positive) ?_
    rw [zpow_natCast]
    linarith
  have small : (2 : ℚ) ^ max (((22 : ℕ) : ℤ) - 53) (-1074) / 2 = 1 / 2 ^ 32 := by norm_num
  rw [small] at moved
  have moved := abs_le.mp moved
  rw [abs_lt]
  constructor <;> linarith

/-- A span of less than forty-eight days comes back as it was. -/
theorem returns_of_short {nanos : Nat} (short : nanos < 2 ^ 22 * 10 ^ 9) : Returns nanos := by
  -- The error of the double is less than half a nanosecond, so rounding back undoes it.
  have same : Floating.roundEven (Duration.secsF64 nanos * 10 ^ 9) = nanos := by
    refine Floating.roundEven_eq ?_
    have scaled : Duration.secsF64 nanos * 10 ^ 9 - ((nanos : ℤ) : ℚ) =
        (Duration.secsF64 nanos - nanos / 10 ^ 9) * 10 ^ 9 := by
      push_cast
      ring
    rw [scaled, abs_mul, abs_of_pos (by positivity : (0 : ℚ) < 10 ^ 9)]
    exact (lt_div_iff₀ (by positivity)).mp (secsF64_near short)
  exact same.le

end Jitter

/-- What the delays of a backoff are to be at an attempt, for every jitter value. -/
structure Backoff.Lawful (backoff : Backoff) (attempt : UInt32) : Prop where
  /-- Whatever overflows on the way is clamped: the power, then the product, then the whole. -/
  clamped : (backoff.ceiling attempt).nanos =
    min (min (backoff.base.nanos * min (backoff.growth attempt) (2 ^ 32 - 1)) (2 ^ 64 * 10 ^ 9 - 1))
      backoff.cap.nanos
  capped : (backoff.ceiling attempt).nanos ≤ backoff.cap.nanos
  rising : 1 ≤ backoff.factor.toNat → ∀ later : UInt32, attempt.toNat ≤ later.toNat →
    (backoff.ceiling attempt).nanos ≤ (backoff.ceiling later).nanos
  /-- There is no attempt before the first one. -/
  first : backoff.ceiling 0 = backoff.ceiling 1
  exact : backoff.cap.nanos ≤ backoff.base.nanos * (2 ^ 32 - 1) →
    (backoff.ceiling attempt).nanos =
      min backoff.cap.nanos (backoff.base.nanos * backoff.factor.toNat ^ (attempt.toNat - 1))
  /-- The part of the ceiling that is waited for is a span, and no longer than the ceiling. -/
  within : ∀ rand01 : Jitter, ∃ delay, backoff.delay? attempt rand01 = some delay ∧
    0 ≤ delay.nanos ∧ delay.nanos ≤ (backoff.ceiling attempt).nanos

/--
The delays of a backoff stay within its ceiling exactly when the ceiling,
put into seconds in double precision and back, does not come out as more nanoseconds.
-/
theorem backoff_lawful_iff (backoff : Backoff) (attempt : UInt32) :
    backoff.Lawful attempt ↔
      Returns (min (backoff.base.nanos * min (backoff.growth attempt) (2 ^ 32 - 1))
        backoff.cap.nanos) := by
  rw [← nanos_ceiling_eq]
  constructor
  · intro lawful
    -- With the largest jitter value the delay is the ceiling itself, put into seconds and back.
    obtain ⟨delay, computed, -, below⟩ := lawful.within (some 1)
    have all : Jitter.fraction (some 1) = 1 := by decide +kernel
    rw [Backoff.delay?, all] at computed
    exact returns_of_mulF64 computed below
  · intro returns
    refine ⟨nanos_ceiling backoff attempt, ceiling_le_cap backoff attempt,
      fun grows _ => ceiling_mono backoff grows, rfl,
      fun reaches => ceiling_exact backoff reaches attempt, fun rand01 => ?_⟩
    obtain ⟨positive, part⟩ := fraction_mem rand01
    obtain ⟨delay, computed, below⟩ := mulF64_within returns positive part
    exact ⟨delay, computed, Nat.zero_le _, below⟩

/-- A number of seconds that lies between two doubles. -/
def beyondDoubles : Duration := .fromSecs 9007199254740995

/-- A ceiling that is no double is rounded up, and so is the delay that takes all of it. -/
theorem delay_above_ceiling :
    (Backoff.delay? ⟨beyondDoubles, beyondDoubles, 2⟩ 1 (some 1)).map Duration.nanos =
        some (9007199254740996 * 10 ^ 9) ∧
      ¬Backoff.Lawful ⟨beyondDoubles, beyondDoubles, 2⟩ 1 := by
  -- Evaluated exactly, the delay at the fraction one is a second longer than the ceiling.
  refine ⟨by decide +kernel, fun lawful => ?_⟩
  obtain ⟨delay, computed, -, below⟩ := lawful.within (some 1)
  have longer : (Backoff.delay? ⟨beyondDoubles, beyondDoubles, 2⟩ 1 (some 1)).map Duration.nanos =
    some (9007199254740996 * 10 ^ 9) := by decide +kernel
  rw [computed, Option.map_some, Option.some.injEq] at longer
  rw [longer] at below
  exact absurd below (by decide +kernel)

/-- A backoff with a cap of less than forty-eight days is lawful at every attempt. -/
theorem lawful_of_short_cap {backoff : Backoff} (short : backoff.cap.nanos < 2 ^ 22 * 10 ^ 9)
    (rand01 : Jitter) (attempt : UInt32) :
    backoff.delay? attempt rand01 = some (backoff.delay attempt rand01) ∧
      (backoff.delay attempt rand01).nanos ≤ (backoff.ceiling attempt).nanos := by
  -- The ceiling is no longer than the cap, so it comes back from its double unchanged.
  have returns := returns_of_short ((ceiling_le_cap backoff attempt).trans_lt short)
  obtain ⟨positive, part⟩ := fraction_mem rand01
  obtain ⟨delay, computed, below⟩ := mulF64_within returns positive part
  have same : backoff.delay? attempt rand01 = some delay := computed
  rw [Backoff.delay, same]
  exact ⟨rfl, below⟩

end Tern.Desktop
