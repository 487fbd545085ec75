import Mathlib.Data.Nat.Log
import Mathlib.Tactic.Ring

/-!
Products and quotients of integers as IEEE 754 double precision rounds them (53
significant bits, ties to even), and what is made of them: an integer by truncation, or
a decimal. Rounding a quotient to a decimal respects the order of quotients.
-/
namespace Binary64

/-- The value `mantissa / 2 ^ exponent`. -/
structure Positive where
  mantissa : Nat
  exponent : Nat
  positive : 0 < mantissa

def precision : Nat := 53

/-- `n` rounded to the nearest number of at most `precision` bits, ties to even. -/
def round (n : Nat) : Nat :=
  let excess := n.log2 + 1 - precision
  let kept := n >>> excess
  let lost := n - kept <<< excess
  let half := 1 <<< (excess - 1)
  if excess = 0 ∨ lost < half ∨ (lost = half ∧ kept % 2 = 0) then kept <<< excess
  else (kept + 1) <<< excess

/-- `int(n * x)`. A product below the range of normal numbers is rounded more
coarsely by the hardware, but it is less than one and truncates to zero here too. -/
def truncMul (n : Nat) (x : Positive) : Nat :=
  round (n * x.mantissa) >>> x.exponent

/-- The double nearest to nine tenths. -/
def nineTenths : Positive := ⟨8106479329266893, 53, by decide⟩

example : truncMul 400 nineTenths = 360 := by decide
example : truncMul 10 nineTenths = 9 := by decide

/-- The double nearest to ninety-five hundredths. -/
def ninetyFiveHundredths : Positive := ⟨4278419646001971, 52, by decide⟩

def half : Positive := ⟨1, 1, by decide⟩

/-! Quotients. -/

/-- The integer nearest to a quotient, ties to even. -/
def divRoundEven (a b : Nat) : Nat :=
  if 2 * (a % b) < b ∨ (2 * (a % b) = b ∧ a / b % 2 = 0) then a / b else a / b + 1

/-- The exponent of the double nearest to a quotient: its mantissa has 53 bits. -/
def quotientExponent (num den : Nat) : Nat := 116 - (num * 2 ^ 64 / den).log2

/-- `round(num / den, digits)`, as a multiple of `10 ^ -digits`: the double nearest to
the quotient is rounded to the nearest decimal, both with ties to even. -/
def roundQuotient (digits num den : Nat) : Nat :=
  let exponent := quotientExponent num den
  divRoundEven (divRoundEven (num * 2 ^ exponent) den * 10 ^ digits) (2 ^ exponent)

/-- `percentile_cont(p)` of sorted integers, rounded to tenths: the value at `p` times the
last index, interpolated between its neighbours. Every step of it is rounded to a double. -/
def percentileCont (p : Positive) (sorted : List Nat) : Option Nat :=
  let position := round ((sorted.length - 1) * p.mantissa)
  let first := position >>> p.exponent
  let fraction := position - first <<< p.exponent
  sorted[first]?.map fun low =>
    let high := if fraction = 0 then low else sorted.getD (first + 1) low
    let value := round (low <<< p.exponent + round (fraction * (high - low)))
    divRoundEven (value * 10) (1 <<< p.exponent)

theorem divRoundEven_le_succ (a b : Nat) : divRoundEven a b ≤ a / b + 1 := by
  unfold divRoundEven
  split <;> omega

theorem div_le_divRoundEven (a b : Nat) : a / b ≤ divRoundEven a b := by
  unfold divRoundEven
  split <;> omega

theorem divRoundEven_mul (n : Nat) {b : Nat} (positive : 0 < b) : divRoundEven (n * b) b = n := by
  simp [divRoundEven, positive]

/-- Rounding respects the order of quotients. -/
theorem divRoundEven_le {a b a' b' : Nat} (positive : 0 < b) (positive' : 0 < b')
    (le : a * b' ≤ a' * b) : divRoundEven a b ≤ divRoundEven a' b' := by
  have floors : a / b ≤ a' / b' := by
    rw [Nat.le_div_iff_mul_le positive']
    have low : a / b * b ≤ a := Nat.div_mul_le_self a b
    refine Nat.le_of_mul_le_mul_right ?_ positive
    calc a / b * b' * b = a / b * b * b' := by ring
      _ ≤ a * b' := Nat.mul_le_mul_right b' low
      _ ≤ a' * b := le
  rcases Nat.lt_or_eq_of_le floors with less | same
  · calc divRoundEven a b ≤ a / b + 1 := divRoundEven_le_succ a b
      _ ≤ a' / b' := less
      _ ≤ divRoundEven a' b' := div_le_divRoundEven a' b'
  · -- the floors agree, so the remainders compare like the quotients
    have rests : a % b * b' ≤ a' % b' * b := by
      have whole := Nat.div_add_mod a b
      have whole' := Nat.div_add_mod a' b'
      rw [← whole, ← whole', ← same] at le
      have split : (b * (a / b) + a % b) * b' = b * (a / b) * b' + a % b * b' := by ring
      have split' : (b' * (a / b) + a' % b') * b = b * (a / b) * b' + a' % b' * b := by ring
      rw [split, split'] at le
      exact Nat.le_of_add_le_add_left le
    unfold divRoundEven
    rw [← same]
    split
    · split <;> omega
    · rename_i up
      rw [if_neg]
      intro down
      apply up
      have scaled : 2 * (a % b) * b' ≤ 2 * (a' % b') * b := by
        calc 2 * (a % b) * b' = 2 * (a % b * b') := by ring
          _ ≤ 2 * (a' % b' * b) := Nat.mul_le_mul_left 2 rests
          _ = 2 * (a' % b') * b := by ring
      rcases down with less | ⟨tie, even⟩
      · left
        have strict : 2 * (a' % b') * b < b' * b := Nat.mul_lt_mul_of_pos_right less positive
        refine Nat.lt_of_mul_lt_mul_right (a := b') ?_
        calc 2 * (a % b) * b' ≤ 2 * (a' % b') * b := scaled
          _ < b' * b := strict
          _ = b * b' := Nat.mul_comm b' b
      · rw [tie] at scaled
        have most : 2 * (a % b) ≤ b :=
          Nat.le_of_mul_le_mul_right (by rwa [Nat.mul_comm b b']) positive'
        rcases Nat.lt_or_eq_of_le most with less | eq
        · exact .inl less
        · exact .inr ⟨eq, even⟩

theorem quotientExponent_anti {num num' : Nat} (den : Nat) (le : num ≤ num') :
    quotientExponent num' den ≤ quotientExponent num den := by
  have scaled : num * 2 ^ 64 / den ≤ num' * 2 ^ 64 / den :=
    Nat.div_le_div_right (Nat.mul_le_mul_right _ le)
  have logs := Nat.log_mono_right (b := 2) scaled
  rw [← Nat.log2_eq_log_two, ← Nat.log2_eq_log_two] at logs
  unfold quotientExponent
  omega

/-- The mantissa has no more than 53 bits. -/
theorem mantissa_le (num : Nat) {den : Nat} (positive : 0 < den)
    (fractional : 0 < quotientExponent num den) :
    num * 2 ^ quotientExponent num den ≤ 2 ^ 53 * den := by
  unfold quotientExponent at *
  have bound : num * 2 ^ 64 / den < 2 ^ ((num * 2 ^ 64 / den).log2 + 1) := Nat.lt_log2_self
  generalize (num * 2 ^ 64 / den).log2 = log at *
  have top : num * 2 ^ 64 < den * 2 ^ (log + 1) := by
    rw [Nat.mul_comm den]
    exact (Nat.div_lt_iff_lt_mul positive).mp bound
  have exponents : 2 ^ (log + 1) * 2 ^ (116 - log) = 2 ^ 53 * 2 ^ 64 := by
    rw [← Nat.pow_add, ← Nat.pow_add]
    congr 1
    omega
  refine Nat.le_of_mul_le_mul_right ?_ (Nat.two_pow_pos 64)
  calc num * 2 ^ (116 - log) * 2 ^ 64 = num * 2 ^ 64 * 2 ^ (116 - log) := by ring
    _ ≤ den * 2 ^ (log + 1) * 2 ^ (116 - log) := Nat.mul_le_mul_right _ (Nat.le_of_lt top)
    _ = den * (2 ^ (log + 1) * 2 ^ (116 - log)) := Nat.mul_assoc ..
    _ = 2 ^ 53 * den * 2 ^ 64 := by rw [exponents]; ring

/-- And no fewer, unless the quotient is too small. -/
theorem le_mantissa {num den : Nat} (large : quotientExponent num den < 116) :
    2 ^ 52 * den ≤ num * 2 ^ quotientExponent num den := by
  unfold quotientExponent at *
  have nonzero : num * 2 ^ 64 / den ≠ 0 := by
    intro zero
    rw [zero] at large
    exact absurd large (by decide)
  have bound : 2 ^ (num * 2 ^ 64 / den).log2 ≤ num * 2 ^ 64 / den := Nat.log2_self_le nonzero
  generalize (num * 2 ^ 64 / den).log2 = log at *
  have bottom : 2 ^ log * den ≤ num * 2 ^ 64 :=
    (Nat.mul_le_mul_right den bound).trans (Nat.div_mul_le_self _ _)
  have exponents : 2 ^ 52 * 2 ^ 64 ≤ 2 ^ log * 2 ^ (116 - log) := by
    rw [← Nat.pow_add, ← Nat.pow_add]
    exact Nat.pow_le_pow_right Nat.two_pos (by omega)
  refine Nat.le_of_mul_le_mul_right ?_ (Nat.two_pow_pos 64)
  calc 2 ^ 52 * den * 2 ^ 64 = 2 ^ 52 * 2 ^ 64 * den := by ring
    _ ≤ 2 ^ log * 2 ^ (116 - log) * den := Nat.mul_le_mul_right den exponents
    _ = 2 ^ log * den * 2 ^ (116 - log) := by ring
    _ ≤ num * 2 ^ 64 * 2 ^ (116 - log) := Nat.mul_le_mul_right _ bottom
    _ = num * 2 ^ (116 - log) * 2 ^ 64 := by ring

/-- A greater quotient is not rounded to a smaller double. -/
theorem double_le {num num' den : Nat} (positive : 0 < den) (le : num ≤ num') :
    divRoundEven (num * 2 ^ quotientExponent num den) den * 2 ^ quotientExponent num' den ≤
      divRoundEven (num' * 2 ^ quotientExponent num' den) den * 2 ^ quotientExponent num den := by
  rcases Nat.lt_or_eq_of_le (quotientExponent_anti den le) with less | same
  · have low : divRoundEven (num * 2 ^ quotientExponent num den) den ≤ 2 ^ 53 := by
      refine (divRoundEven_le positive positive ?_).trans_eq (divRoundEven_mul (2 ^ 53) positive)
      exact Nat.mul_le_mul_right den (mantissa_le num positive (Nat.zero_lt_of_lt less))
    have high : 2 ^ 52 ≤ divRoundEven (num' * 2 ^ quotientExponent num' den) den := by
      refine (divRoundEven_mul (2 ^ 52) positive).symm.trans_le
        (divRoundEven_le positive positive ?_)
      refine Nat.mul_le_mul_right den (le_mantissa (Nat.lt_of_lt_of_le less ?_))
      exact Nat.sub_le ..
    calc _ ≤ 2 ^ 53 * 2 ^ quotientExponent num' den := Nat.mul_le_mul_right _ low
      _ = 2 ^ 52 * 2 ^ (quotientExponent num' den + 1) := by ring
      _ ≤ 2 ^ 52 * 2 ^ quotientExponent num den :=
          Nat.mul_le_mul_left _ (Nat.pow_le_pow_right Nat.two_pos less)
      _ ≤ _ := Nat.mul_le_mul_right _ high
  · rw [same]
    refine Nat.mul_le_mul_right _ (divRoundEven_le positive positive ?_)
    exact Nat.mul_le_mul_right den (Nat.mul_le_mul_right _ le)

theorem roundQuotient_mono (digits : Nat) {num num' den : Nat} (positive : 0 < den)
    (le : num ≤ num') : roundQuotient digits num den ≤ roundQuotient digits num' den := by
  refine divRoundEven_le (Nat.two_pow_pos _) (Nat.two_pow_pos _) ?_
  have scaled := Nat.mul_le_mul_right (10 ^ digits) (double_le positive le)
  calc _ = divRoundEven (num * 2 ^ quotientExponent num den) den *
        2 ^ quotientExponent num' den * 10 ^ digits := by ring
    _ ≤ _ := scaled
    _ = _ := by ring

/-- The same for a numerator of either sign. -/
def roundSigned (digits : Nat) (num : Int) (den : Nat) : Int :=
  if 0 ≤ num then roundQuotient digits num.toNat den else -(roundQuotient digits (-num).toNat den)

theorem roundSigned_mono (digits : Nat) {num num' : Int} {den : Nat} (positive : 0 < den)
    (le : num ≤ num') : roundSigned digits num den ≤ roundSigned digits num' den := by
  unfold roundSigned
  split
  · rw [if_pos (by omega)]
    exact Int.ofNat_le.mpr (roundQuotient_mono digits positive (Int.toNat_le_toNat le))
  · split
    · omega
    · refine Int.neg_le_neg (Int.ofNat_le.mpr (roundQuotient_mono digits positive ?_))
      exact Int.toNat_le_toNat (Int.neg_le_neg le)

-- the doubles nearest to 0.35 and 0.45 lie below the one and above the other
example : roundQuotient 1 35 100 = 3 ∧ roundQuotient 1 45 100 = 5 := by decide +kernel

end Binary64
