import Mathlib.Algebra.Order.Field.Power
import Mathlib.Data.Rat.Cast.Order
import Mathlib.Tactic.FieldSimp
import Mathlib.Tactic.Linarith
import Mathlib.Tactic.Positivity
import Mathlib.Tactic.Ring
import Hypermark.Decimal.Binary64

/-!
# How far rounding goes

The magnitude of a binary number as a rational one, and bounds for what `ofRatio` makes of a
quotient: the result is finite when the quotient is below `Binary64.limit`, half a place past the
largest finite number, and it is at most one part in `2 ^ 53` larger than a quotient from one on.

Reading a decimal multiplies or divides rounded numbers, so these two facts decide which decimals
are in range (`isSome_ofScientific`), and every number that is read is finite.
-/

namespace Hypermark.Binary64

/-! ## Quotients -/

section Quotient

variable {num den : Nat}

/-- Rounding to an integer goes half the way to the next one at most. -/
theorem roundQuotient_near (num : Nat) (hden : 0 < den) :
    2 * num ≤ 2 * den * roundQuotient num den + den ∧
      2 * den * roundQuotient num den ≤ 2 * num + den := by
  have hdiv : den * (num / den) + num % den = num := Nat.div_add_mod num den
  have hmod : num % den < den := Nat.mod_lt num hden
  have hmul (n : Nat) : 2 * den * n = 2 * (den * n) := Nat.mul_assoc 2 den n
  unfold roundQuotient
  dsimp only
  split
  · rw [hmul]
    omega
  split
  · rw [hmul, Nat.mul_add]
    omega
  · -- a tie goes up or down by the whole half
    rcases Nat.mod_two_eq_zero_or_one (num / den) with h | h
    · rw [h, Nat.add_zero, hmul]
      omega
    · rw [h, hmul, Nat.mul_add]
      omega

/-- As a distance: a quotient and the integer it is rounded to are half a unit apart at most. -/
theorem abs_roundQuotient_sub_le (num : Nat) (hden : 0 < den) :
    |(roundQuotient num den : ℚ) - num / den| ≤ 1 / 2 := by
  obtain ⟨hlow, hhigh⟩ := roundQuotient_near num hden
  have hden' : (0 : ℚ) < den := by exact_mod_cast hden
  have hlow' : 2 * (num : ℚ) ≤ 2 * den * roundQuotient num den + den := by exact_mod_cast hlow
  have hhigh' : 2 * (den : ℚ) * roundQuotient num den ≤ 2 * num + den := by exact_mod_cast hhigh
  have hquotient : (num : ℚ) / den * den = num := div_mul_cancel₀ _ hden'.ne'
  rw [abs_le]
  constructor
  · refine le_of_mul_le_mul_right ?_ hden'
    linarith
  · refine le_of_mul_le_mul_right ?_ hden'
    linarith

/-- The guess at the leading place is reached when the power of two is. -/
theorem shiftLeft_le_iff (hden : 0 < den) (place : Int) :
    (if 0 ≤ place then den <<< place.toNat ≤ num else den ≤ num <<< (-place).toNat) ↔
      (2 : ℚ) ^ place ≤ num / den := by
  have hden' : (0 : ℚ) < den := by exact_mod_cast hden
  rw [le_div_iff₀ hden', Nat.shiftLeft_eq, Nat.shiftLeft_eq]
  split
  · next h =>
    lift place to ℕ using h
    rw [Int.toNat_natCast, zpow_natCast, mul_comm]
    exact_mod_cast Iff.rfl
  · next h =>
    obtain ⟨n, rfl⟩ : ∃ n : ℕ, place = -n := ⟨(-place).toNat, by omega⟩
    have hpow : (0 : ℚ) < 2 ^ n := by positivity
    rw [neg_neg, Int.toNat_natCast, zpow_neg, zpow_natCast, inv_mul_le_iff₀ hpow, mul_comm]
    exact_mod_cast Iff.rfl

/-- The leading place bounds a quotient from both sides. -/
theorem leadingPlace_spec (hnum : 0 < num) (hden : 0 < den) :
    (2 : ℚ) ^ leadingPlace num den ≤ num / den ∧
      (num / den : ℚ) < 2 ^ (leadingPlace num den + 1) := by
  have hden' : (0 : ℚ) < den := by exact_mod_cast hden
  have num_ge : (2 : ℚ) ^ (num.log2 : ℤ) ≤ num := by
    exact_mod_cast Nat.log2_self_le hnum.ne'
  have num_lt : (num : ℚ) < 2 ^ (num.log2 + 1 : ℤ) := by
    exact_mod_cast Nat.lt_log2_self (n := num)
  have den_ge : (2 : ℚ) ^ (den.log2 : ℤ) ≤ den := by
    exact_mod_cast Nat.log2_self_le hden.ne'
  have den_lt : (den : ℚ) < 2 ^ (den.log2 + 1 : ℤ) := by
    exact_mod_cast Nat.lt_log2_self (n := den)
  -- The quotient lies between the powers next to the guess.
  have hlow : (2 : ℚ) ^ ((num.log2 : ℤ) - den.log2 - 1) ≤ num / den := by
    rw [le_div_iff₀ hden']
    calc (2 : ℚ) ^ ((num.log2 : ℤ) - den.log2 - 1) * den
        ≤ 2 ^ ((num.log2 : ℤ) - den.log2 - 1) * 2 ^ (den.log2 + 1 : ℤ) := by gcongr
      _ = 2 ^ (num.log2 : ℤ) := by
        rw [← zpow_add₀ two_ne_zero]
        congr 1
        ring
      _ ≤ num := num_ge
  have hhigh : (num / den : ℚ) < 2 ^ ((num.log2 : ℤ) - den.log2 + 1) := by
    rw [div_lt_iff₀ hden']
    calc (num : ℚ) < 2 ^ (num.log2 + 1 : ℤ) := num_lt
      _ = 2 ^ ((num.log2 : ℤ) - den.log2 + 1) * 2 ^ (den.log2 : ℤ) := by
        rw [← zpow_add₀ two_ne_zero]
        congr 1
        ring
      _ ≤ 2 ^ ((num.log2 : ℤ) - den.log2 + 1) * den := by gcongr
  unfold leadingPlace
  dsimp only
  simp only [shiftLeft_le_iff hden]
  split
  · next hreached => exact ⟨hreached, hhigh⟩
  · next hreached =>
    rw [sub_add_cancel]
    exact ⟨hlow, not_le.mp hreached⟩

end Quotient

/-! ## Magnitudes -/

/-- The magnitude of a number. -/
def magnitude (x : Binary64) : ℚ := x.mantissa * 2 ^ x.exponent

/-- The quotients below are rounded to finite numbers. -/
def limit : ℚ := (2 ^ 54 - 1) * 2 ^ (970 : ℤ)

/-- The limit is a power of two, less half a place. -/
theorem limit_lt : limit < 2 ^ (1024 : ℤ) := by
  rw [limit, show (1024 : ℤ) = 54 + 970 by rfl, zpow_add₀ two_ne_zero]
  gcongr
  norm_num

section Magnitude

variable {x : Binary64} {negative : Bool}

/-- The denominator of a magnitude is positive. -/
theorem ratio_pos : 0 < x.ratio.2 := by
  unfold ratio
  split
  · exact Nat.one_pos
  · rw [Nat.shiftLeft_eq]
    positivity

/-- The quotient of natural numbers is the magnitude. -/
theorem ratio_eq : (x.ratio.1 / x.ratio.2 : ℚ) = x.magnitude := by
  unfold ratio magnitude
  split
  · next h =>
    obtain ⟨n, hn⟩ := Int.eq_ofNat_of_zero_le h
    rw [hn, Nat.shiftLeft_eq]
    simp
  · next h =>
    obtain ⟨n, hn⟩ : ∃ n : ℕ, x.exponent = -n := ⟨(-x.exponent).toNat, by omega⟩
    rw [hn, Nat.shiftLeft_eq, neg_neg, Int.toNat_natCast, zpow_neg]
    simp [div_eq_mul_inv]

/-- The leading bit of a mantissa is not zero. -/
theorem hiddenBit_pos : 0 < hiddenBit := by decide

/-- The leading bit of a mantissa as a power of two. -/
theorem hiddenBit_eq : (hiddenBit : ℚ) = 2 ^ (52 : ℤ) := by
  rw [show hiddenBit = 2 ^ 52 from rfl]
  norm_num

/-- A code that is put together from an exponent and a mantissa, which may be `2 ^ 53`. -/
theorem magnitude_code {place mantissa : Nat} (hle : mantissa ≤ 2 * hiddenBit)
    (hnormal : place = 0 ∨ hiddenBit ≤ mantissa) :
    magnitude ⟨negative, place * hiddenBit + mantissa⟩ = mantissa * 2 ^ (place + minExponent) := by
  have hpos := hiddenBit_pos
  rcases Nat.lt_or_ge mantissa hiddenBit with hsmall | hlarge
  · obtain rfl : place = 0 := by omega
    simp [magnitude, Binary64.mantissa, exponent, hsmall]
  have hcode : ¬ place * hiddenBit + mantissa < hiddenBit := by omega
  rcases hle.lt_or_eq with hlt | rfl
  · -- The code holds the exponent and what is above the hidden bit.
    obtain ⟨above, rfl⟩ := Nat.exists_eq_add_of_le hlarge
    have habove : above < hiddenBit := by omega
    have hsplit : place * hiddenBit + (hiddenBit + above) = above + hiddenBit * (place + 1) := by
      ring
    simp only [magnitude, Binary64.mantissa, exponent, if_neg hcode]
    rw [hsplit, Nat.add_mul_mod_self_left, Nat.add_mul_div_left _ _ hpos, Nat.mod_eq_of_lt habove,
      Nat.div_eq_of_lt habove, Nat.add_comm above]
    congr 2
    rw [minExponent]
    push_cast
    ring
  · -- A mantissa past the last one counts as the first of the next exponent.
    have hsplit : place * hiddenBit + 2 * hiddenBit = hiddenBit * (place + 2) := by ring
    simp only [magnitude, Binary64.mantissa, exponent, if_neg hcode]
    rw [hsplit, Nat.mul_mod_right, Nat.mul_div_cancel_left _ hpos, Nat.zero_add]
    have hexponent : ((place + 2 : Nat) : Int) - 1075 = 1 + (place + minExponent) := by
      rw [minExponent]
      push_cast
      ring
    rw [hexponent, zpow_add₀ two_ne_zero, zpow_one]
    push_cast
    ring

end Magnitude

/-! ## Rounding a quotient -/

section OfRatio

variable {num den : Nat} {negative : Bool}

/-- The exponent that a quotient is rounded to. -/
def roundingPlace (num den : Nat) : Int := max (leadingPlace num den - 52) minExponent

/-- The mantissa that a quotient is rounded to. -/
def roundedMantissa (num den : Nat) : Nat :=
  let place := roundingPlace num den
  if 0 ≤ place then roundQuotient num (den <<< place.toNat)
  else roundQuotient (num <<< (-place).toNat) den

/-- A positive quotient is rounded to the code that its place and its mantissa make, up to that of
infinity. -/
theorem ofRatio_eq (hnum : 0 < num) :
    ofRatio negative num den = ⟨negative,
      min ((roundingPlace num den - minExponent).toNat * hiddenBit + roundedMantissa num den)
        infinityCode⟩ := by
  rw [ofRatio, if_neg hnum.ne']
  rfl

/-- Shifting left multiplies by a power of two, in the rational numbers too. -/
theorem cast_shiftLeft (m n : Nat) : ((m <<< n : Nat) : ℚ) = m * 2 ^ n := by
  rw [Nat.shiftLeft_eq]
  push_cast
  rfl

/-- The mantissa is half a unit of its last place away from the quotient at most. -/
theorem abs_roundedMantissa_sub_le (num : Nat) (hden : 0 < den) :
    |(roundedMantissa num den : ℚ) - num / den / 2 ^ roundingPlace num den| ≤ 1 / 2 := by
  unfold roundedMantissa
  dsimp only
  generalize roundingPlace num den = place
  split
  · next h =>
    lift place to ℕ using h
    have hpos : 0 < den <<< place := by
      rw [Nat.shiftLeft_eq]
      positivity
    have := abs_roundQuotient_sub_le num hpos
    rwa [cast_shiftLeft, ← div_div] at this
  · next h =>
    obtain ⟨n, rfl⟩ : ∃ n : ℕ, place = -n := ⟨(-place).toNat, by omega⟩
    have := abs_roundQuotient_sub_le (num <<< n) hden
    rw [cast_shiftLeft, mul_div_right_comm] at this
    rwa [neg_neg, Int.toNat_natCast, zpow_neg, zpow_natCast, div_inv_eq_mul]

/-- The rounded mantissa is at most that of the next exponent, and that of a normal number unless
the exponent is the smallest. -/
theorem roundedMantissa_bounds (hnum : 0 < num) (hden : 0 < den) :
    roundedMantissa num den ≤ 2 * hiddenBit ∧
      (roundingPlace num den = minExponent ∨ hiddenBit ≤ roundedMantissa num den) := by
  obtain ⟨hlow, hhigh⟩ := leadingPlace_spec hnum hden
  obtain ⟨hbelow, habove⟩ := abs_le.mp (abs_roundedMantissa_sub_le num hden)
  have hpow : (0 : ℚ) < 2 ^ roundingPlace num den := by positivity
  constructor
  · have : (num / den / 2 ^ roundingPlace num den : ℚ) < 2 * hiddenBit := by
      rw [div_lt_iff₀ hpow, hiddenBit_eq, ← zpow_one_add₀ two_ne_zero, ← zpow_add₀ two_ne_zero]
      refine hhigh.trans_le (zpow_le_zpow_right₀ one_le_two ?_)
      unfold roundingPlace
      omega
    have : (roundedMantissa num den : ℚ) < (2 * hiddenBit + 1 : Nat) := by
      push_cast
      linarith
    exact Nat.le_of_lt_succ (by exact_mod_cast this)
  · refine or_iff_not_imp_left.mpr fun hplace => ?_
    have hplace : roundingPlace num den = leadingPlace num den - 52 := by
      unfold roundingPlace at hplace ⊢
      omega
    have : (hiddenBit : ℚ) ≤ num / den / 2 ^ roundingPlace num den := by
      rw [le_div_iff₀ hpow, hiddenBit_eq, ← zpow_add₀ two_ne_zero, hplace, add_sub_cancel]
      exact hlow
    have : (hiddenBit : ℚ) < (roundedMantissa num den + 1 : Nat) := by
      push_cast
      linarith
    exact Nat.le_of_lt_succ (by exact_mod_cast this)

/-- **A quotient below the limit is rounded to a finite number.** -/
theorem code_lt_of_lt_limit (hnum : 0 < num) (hden : 0 < den) (hlt : (num / den : ℚ) < limit) :
    (roundingPlace num den - minExponent).toNat * hiddenBit + roundedMantissa num den
      < infinityCode := by
  obtain ⟨hlow, hhigh⟩ := leadingPlace_spec hnum hden
  have hle := (roundedMantissa_bounds hnum hden).1
  have hleading : leadingPlace num den < 1024 := by
    have : (2 : ℚ) ^ leadingPlace num den < 2 ^ (1024 : ℤ) := (hlow.trans_lt hlt).trans limit_lt
    exact (zpow_lt_zpow_iff_right₀ one_lt_two).mp this
  have hpos := hiddenBit_pos
  rw [infinityCode]
  rcases Nat.lt_or_ge (roundingPlace num den - minExponent).toNat 2045 with hplace | hplace
  · have := Nat.mul_le_mul_right hiddenBit (Nat.le_of_lt_succ hplace)
    omega
  · -- With the largest exponent the limit lies half a place below the next mantissa.
    have hplace : roundingPlace num den = 970 + 1 := by
      unfold roundingPlace minExponent at *
      omega
    have hquotient : (num / den / 2 ^ roundingPlace num den : ℚ) < 2 * hiddenBit - 1 / 2 := by
      rw [hplace, zpow_add_one₀ two_ne_zero, ← div_div, div_lt_iff₀ two_pos,
        div_lt_iff₀ (by positivity)]
      refine hlt.trans_eq ?_
      rw [limit, show hiddenBit = 2 ^ 52 from rfl]
      generalize (2 : ℚ) ^ (970 : ℤ) = power
      push_cast
      ring
    have hmantissa : (roundedMantissa num den : ℚ) < (2 * hiddenBit : Nat) := by
      have := (abs_le.mp (abs_roundedMantissa_sub_le num hden)).2
      push_cast
      linarith
    have hmantissa : roundedMantissa num den < 2 * hiddenBit := by exact_mod_cast hmantissa
    rw [hplace, show (970 + 1 - minExponent).toNat = 2045 from rfl]
    omega

/-- **What a quotient below the limit is rounded to.** -/
theorem ofRatio_spec (hnum : 0 < num) (hden : 0 < den) (hlt : (num / den : ℚ) < limit) :
    (ofRatio negative num den).Finite ∧
      (ofRatio negative num den).magnitude
        = roundedMantissa num den * 2 ^ roundingPlace num den := by
  have hcode := code_lt_of_lt_limit hnum hden hlt
  obtain ⟨hle, hnormal⟩ := roundedMantissa_bounds hnum hden
  have hplace : ((roundingPlace num den - minExponent).toNat : Int) + minExponent
      = roundingPlace num den := by
    unfold roundingPlace
    omega
  rw [ofRatio_eq hnum, min_eq_left hcode.le]
  refine ⟨hcode, ?_⟩
  rw [magnitude_code hle, hplace]
  refine hnormal.imp_left fun h => ?_
  rw [h]
  rfl

/-- A quotient from one on grows by one part in `2 ^ 53` at most, and it stays at least one. -/
theorem magnitude_ofRatio_le (negative : Bool) (hden : 0 < den) (hone : (1 : ℚ) ≤ num / den)
    (hlt : (num / den : ℚ) < limit) :
    1 ≤ (ofRatio negative num den).magnitude ∧
      (ofRatio negative num den).magnitude ≤ num / den * (1 + 1 / 2 ^ 53) := by
  have hden' : (0 : ℚ) < den := by exact_mod_cast hden
  have hnum : 0 < num := by
    rw [one_le_div hden'] at hone
    exact_mod_cast hden'.trans_le hone
  obtain ⟨hlow, hhigh⟩ := leadingPlace_spec hnum hden
  have hleading : 0 ≤ leadingPlace num den := by
    have : (2 : ℚ) ^ (0 : ℤ) < 2 ^ (leadingPlace num den + 1) := by
      rw [zpow_zero]
      exact hone.trans_lt hhigh
    have := (zpow_lt_zpow_iff_right₀ one_lt_two).mp this
    omega
  have hplace : leadingPlace num den = roundingPlace num den + 52 := by
    unfold roundingPlace minExponent
    omega
  have hmantissa : hiddenBit ≤ roundedMantissa num den := by
    rcases (roundedMantissa_bounds hnum hden).2 with h | h
    · rw [minExponent] at h
      omega
    · exact h
  have hpow : (0 : ℚ) < 2 ^ roundingPlace num den := by positivity
  rw [(ofRatio_spec hnum hden hlt).2]
  constructor
  · calc (1 : ℚ) ≤ 2 ^ leadingPlace num den := one_le_zpow₀ one_le_two hleading
      _ = hiddenBit * 2 ^ roundingPlace num den := by
        rw [hplace, add_comm, zpow_add₀ two_ne_zero, hiddenBit_eq]
      _ ≤ roundedMantissa num den * 2 ^ roundingPlace num den := by
        gcongr
  · -- Half a unit of the last place is a part in `2 ^ 53` of the leading one.
    have hround := (abs_le.mp (abs_roundedMantissa_sub_le num hden)).2
    have hunit : (2 : ℚ) ^ roundingPlace num den * 2 ^ 52 ≤ num / den := by
      refine le_trans (le_of_eq ?_) hlow
      rw [hplace, zpow_add₀ two_ne_zero]
      norm_cast
    calc (roundedMantissa num den : ℚ) * 2 ^ roundingPlace num den
        ≤ (num / den / 2 ^ roundingPlace num den + 1 / 2) * 2 ^ roundingPlace num den := by
          gcongr
          linarith
      _ = num / den + 2 ^ roundingPlace num den * 2 ^ 52 * (1 / 2 ^ 53) := by
          rw [add_mul, div_mul_cancel₀ _ hpow.ne']
          ring
      _ ≤ num / den * (1 + 1 / 2 ^ 53) := by
          rw [mul_add, mul_one]
          gcongr

end OfRatio

/-! ## Finite numbers -/

section Finite

variable {x y : Binary64} {negative : Bool}

/-- Half a place past a number that is at least `n` codes below the first one that is not finite. -/
theorem upper_le {n : Nat} (hcode : x.code + n ≤ infinityCode) (hpos : 0 < n) (hn : n ≤ hiddenBit) :
    (x.mantissa + 1 / 2 : ℚ) * 2 ^ x.exponent ≤ (2 ^ 54 + 1 - 2 * n) * 2 ^ (970 : ℤ) := by
  have hdiv : hiddenBit * (x.code / hiddenBit) + x.code % hiddenBit = x.code :=
    Nat.div_add_mod x.code hiddenBit
  have hmod : x.code % hiddenBit < hiddenBit := Nat.mod_lt _ hiddenBit_pos
  have hbit : (hiddenBit : ℚ) = 2 ^ 52 := by exact_mod_cast hiddenBit_eq
  have hn' : (n : ℚ) ≤ hiddenBit := by exact_mod_cast hn
  have hmantissa : x.mantissa < 2 * hiddenBit := by
    unfold mantissa
    split <;> omega
  have hmantissa' : (x.mantissa : ℚ) + 1 ≤ 2 * hiddenBit := by exact_mod_cast hmantissa
  have hfield : x.code / hiddenBit ≤ 2046 := by
    have : x.code < 2047 * hiddenBit := by
      rw [← infinityCode]
      omega
    exact Nat.le_of_lt_succ (Nat.div_lt_of_lt_mul (by rwa [Nat.mul_comm]))
  -- Below the largest exponent there is a factor of two to spare; at it the code decides.
  rcases hfield.lt_or_eq with hfield | hfield
  · have hexponent : x.exponent ≤ 970 := by
      unfold exponent minExponent
      split <;> omega
    calc (x.mantissa + 1 / 2 : ℚ) * 2 ^ x.exponent
        ≤ (x.mantissa + 1 / 2 : ℚ) * 2 ^ (970 : ℤ) := by
          gcongr
          exact one_le_two
      _ ≤ (2 ^ 54 + 1 - 2 * n) * 2 ^ (970 : ℤ) := by
          gcongr
          linarith
  · have hlarge : ¬ x.code < hiddenBit := by
      rw [← hdiv, hfield]
      omega
    have hexponent : x.exponent = 970 + 1 := by
      rw [exponent, if_neg hlarge, hfield]
      rfl
    have hmantissa : x.mantissa + n ≤ 2 * hiddenBit := by
      rw [mantissa, if_neg hlarge]
      rw [infinityCode] at hcode
      rw [hfield] at hdiv
      omega
    have hmantissa' : (x.mantissa : ℚ) + n ≤ 2 * hiddenBit := by exact_mod_cast hmantissa
    rw [hexponent, zpow_add_one₀ two_ne_zero, mul_comm _ (2 : ℚ), ← mul_assoc]
    gcongr
    linarith

/-- A finite number is below the limit. -/
theorem Finite.magnitude_lt (h : x.Finite) : x.magnitude < limit := by
  have hupper := upper_le (n := 1) h Nat.one_pos hiddenBit_pos
  have hpow : (0 : ℚ) < 2 ^ x.exponent := by positivity
  rw [limit, magnitude]
  generalize (2 : ℚ) ^ (970 : ℤ) = power at *
  push_cast at hupper
  linarith

/-- Zero is finite. -/
theorem finite_zero : (zero negative).Finite := by
  cases negative <;> decide

/-- A quotient below the limit is rounded to a finite number. -/
theorem finite_ofRatio {num den : Nat} (hden : 0 < den) (hlt : (num / den : ℚ) < limit) :
    (ofRatio negative num den).Finite := by
  rcases Nat.eq_zero_or_pos num with rfl | hnum
  · rw [ofRatio, if_pos rfl]
    exact finite_zero
  · exact (ofRatio_spec hnum hden hlt).1

/-- The powers of ten that are used are in range. -/
theorem powerOfTen_spec {n : Nat} (h : n ≤ 308) :
    1 ≤ (powerOfTen n).magnitude ∧ (powerOfTen n).magnitude ≤ 10 ^ n * (1 + 1 / 2 ^ 53) := by
  have hone : (1 : ℚ) ≤ 10 ^ n := one_le_pow₀ (by norm_num)
  have hlt : (10 : ℚ) ^ n < limit := by
    have hcast (a b : Nat) (hab : 10 ^ a + 2 ^ b < 2 ^ 54 * 2 ^ b) :
        (10 : ℚ) ^ a < (2 ^ 54 - 1) * 2 ^ (b : ℤ) := by
      have hab' : (10 : ℚ) ^ a + 2 ^ b < 2 ^ 54 * 2 ^ b := by exact_mod_cast hab
      rw [zpow_natCast]
      linarith
    exact (pow_le_pow_right₀ (by norm_num) h).trans_lt (hcast 308 970 (by decide +kernel))
  have hcast : ((Nat.pow 10 n : Nat) / (1 : Nat) : ℚ) = 10 ^ n := by
    rw [Nat.cast_one, div_one, Nat.pow_eq]
    push_cast
    rfl
  have := magnitude_ofRatio_le false Nat.one_pos (hcast ▸ hone) (hcast ▸ hlt)
  rwa [hcast] at this

/-- A finite number divided by a number from one on is finite. -/
theorem Finite.div (hx : x.Finite) (hy : 1 ≤ y.magnitude) : (x.div y).Finite := by
  have hquotient : ((x.ratio.1 * y.ratio.2 : Nat) / (x.ratio.2 * y.ratio.1 : Nat) : ℚ)
      = x.magnitude / y.magnitude := by
    rw [← ratio_eq, ← ratio_eq, div_div_div_eq]
    push_cast
    rfl
  have hden : 0 < x.ratio.2 * y.ratio.1 := by
    refine Nat.mul_pos ratio_pos (Nat.pos_of_ne_zero fun h => ?_)
    rw [← ratio_eq, h, Nat.cast_zero, zero_div] at hy
    exact absurd hy (by norm_num)
  refine finite_ofRatio hden ?_
  rw [hquotient]
  refine lt_of_le_of_lt (div_le_self ?_ hy) hx.magnitude_lt
  unfold magnitude
  positivity

/-- A finite number stays finite when it is divided by powers of ten. -/
theorem Finite.divPowerOfTen (hx : x.Finite) (n : Nat) : (x.divPowerOfTen n).Finite := by
  induction x, n using divPowerOfTen.induct with
  | case1 x n hn =>
    rw [Binary64.divPowerOfTen, if_pos hn]
    exact hx.div (powerOfTen_spec hn).1
  | case2 x n hn hcode =>
    rw [Binary64.divPowerOfTen, if_neg hn, if_pos hcode]
    exact hx
  | case3 x n hn hcode ih =>
    rw [Binary64.divPowerOfTen, if_neg hn, if_neg hcode]
    exact ih (hx.div (powerOfTen_spec le_rfl).1)

/-- **A decimal that is in range is read as a finite number.** -/
theorem finite_of_ofScientific {significand : Nat} {exponent : Int}
    (hlt : (significand : ℚ) < limit) (h : ofScientific negative significand exponent = some x) :
    x.Finite := by
  have hstart : (ofRatio negative significand 1).Finite :=
    finite_ofRatio Nat.one_pos (by rwa [Nat.cast_one, div_one])
  unfold ofScientific at h
  dsimp only at h
  split at h
  · cases h
    exact hstart.divPowerOfTen _
  split at h
  · split at h
    · next hfinite =>
      cases h
      exact hfinite
    · cases h
  split at h
  · cases h
    exact hstart
  · cases h

/-- **A decimal is in range if it stays below the limit when it grows by two roundings.** -/
theorem isSome_ofScientific {significand : Nat} {exponent : Int} (hpos : 0 < significand)
    (hexponent : exponent ≤ 308)
    (hlt : (significand : ℚ) * 10 ^ exponent * (1 + 1 / 2 ^ 53) ^ 2 < limit) :
    (ofScientific negative significand exponent).isSome := by
  rcases lt_or_ge exponent 0 with hneg | hnonneg
  · simp [ofScientific, hneg]
  obtain ⟨n, rfl⟩ := Int.eq_ofNat_of_zero_le hnonneg
  have hn : n ≤ 308 := by exact_mod_cast hexponent
  rw [zpow_natCast] at hlt
  have hten : (1 : ℚ) ≤ 10 ^ n := one_le_pow₀ (by norm_num)
  have hsignificand : (1 : ℚ) ≤ significand := by exact_mod_cast hpos
  have hgrowth : (1 : ℚ) ≤ 1 + 1 / 2 ^ 53 := by norm_num
  obtain ⟨-, hpower⟩ := powerOfTen_spec hn
  -- The significand alone is below the limit, so it grows by one rounding at most.
  have hstart : (ofRatio negative significand 1).magnitude ≤ significand * (1 + 1 / 2 ^ 53) := by
    have hbelow : (significand : ℚ) < limit := by
      refine lt_of_le_of_lt ?_ hlt
      rw [mul_assoc]
      exact le_mul_of_one_le_right (by linarith) (one_le_mul_of_one_le_of_one_le hten
        (one_le_pow₀ hgrowth))
    have := magnitude_ofRatio_le negative Nat.one_pos
      (show (1 : ℚ) ≤ significand / (1 : Nat) by rwa [Nat.cast_one, div_one])
      (by rwa [Nat.cast_one, div_one])
    rw [Nat.cast_one, div_one] at this
    exact this.2
  have hfinite : ((ofRatio negative significand 1).mul (powerOfTen n)).Finite := by
    refine finite_ofRatio (Nat.mul_pos ratio_pos ratio_pos) (lt_of_le_of_lt ?_ hlt)
    push_cast
    rw [mul_div_mul_comm, ratio_eq, ratio_eq]
    calc (ofRatio negative significand 1).magnitude * (powerOfTen n).magnitude
        ≤ significand * (1 + 1 / 2 ^ 53) * (10 ^ n * (1 + 1 / 2 ^ 53)) := by
          refine mul_le_mul hstart hpower ?_ (by positivity)
          unfold magnitude
          positivity
      _ = significand * 10 ^ n * (1 + 1 / 2 ^ 53) ^ 2 := by ring
  simp [ofScientific, hn, hfinite, Int.not_lt.mpr (Int.natCast_nonneg n)]

end Finite

end Hypermark.Binary64
