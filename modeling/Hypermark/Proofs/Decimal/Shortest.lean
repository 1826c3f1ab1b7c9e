import Hypermark.Decimal.Shortest
import Hypermark.Proofs.Decimal.Rounding

/-!
# What the shortest decimal is at most

The decimal that is written for a number has at most nineteen digits and is at most half a place
larger than the number (`Within`), whichever grid it is found on.  So it is in range when it is read
again (`isSome_ofScientific_shortest`): for the three largest numbers by computation, and for all
others because two roundings do not reach the limit.
-/

namespace Hypermark.Binary64

/-! ## The leading digit -/

section LeadingDigit

variable {num den : Nat}

/-- The denominator stays positive when a quotient is scaled. -/
theorem scaleByTen_pos (hden : 0 < den) (power : Int) : 0 < (scaleByTen num den power).2 := by
  unfold scaleByTen
  split
  · exact hden
  · exact Nat.mul_pos hden (Nat.pow_pos (by decide))

/-- Scaling multiplies by the power of ten. -/
theorem scaleByTen_eq (power : Int) :
    ((scaleByTen num den power).1 / (scaleByTen num den power).2 : ℚ)
      = num / den * 10 ^ power := by
  unfold scaleByTen
  split
  · next h =>
    lift power to ℕ using h
    simp [mul_div_right_comm]
  · next h =>
    obtain ⟨n, rfl⟩ : ∃ n : ℕ, power = -n := ⟨(-power).toNat, by omega⟩
    simp [div_eq_mul_inv, mul_assoc, mul_comm]

/-- The test for the leading digit, as `10 ^ power ≤ num / den`. -/
theorem scaleByTen_le_iff (hden : 0 < den) (power : Int) :
    (scaleByTen num den (-power)).2 ≤ (scaleByTen num den (-power)).1 ↔
      (10 : ℚ) ^ power ≤ num / den := by
  have hpos : (0 : ℚ) < (scaleByTen num den (-power)).2 := by
    exact_mod_cast scaleByTen_pos hden (-power)
  have hten : (0 : ℚ) < 10 ^ power := by positivity
  calc (scaleByTen num den (-power)).2 ≤ (scaleByTen num den (-power)).1
      ↔ (1 : ℚ) ≤ (scaleByTen num den (-power)).1 / (scaleByTen num den (-power)).2 := by
        rw [one_le_div hpos]
        exact_mod_cast Iff.rfl
    _ ↔ (10 : ℚ) ^ power ≤ num / den := by
        rw [scaleByTen_eq, zpow_neg, ← div_eq_mul_inv, one_le_div hten]

/-- Powers of two and of ten, raised to the same power, compare like these. -/
theorem two_zpow_le_ten_zpow_of_pow {a b : Int} {n : Nat} (hn : n ≠ 0)
    (h : ((2 : ℚ) ^ n) ^ a ≤ 10 ^ (b * n)) : (2 : ℚ) ^ a ≤ 10 ^ b := by
  refine (pow_le_pow_iff_left₀ (by positivity) (by positivity) hn).mp ?_
  rwa [← zpow_natCast, ← zpow_mul, mul_comm, zpow_mul, zpow_natCast, ← zpow_natCast (10 ^ b : ℚ),
    ← zpow_mul]

/-- The power of ten that is tried last is above the power of two. -/
theorem two_zpow_le_ten_zpow {place : Int} (hlow : -1074 ≤ place) (hhigh : place ≤ 1023) :
    (2 : ℚ) ^ (place + 1) ≤ 10 ^ (place * 1233 / 4096 + 3) := by
  rcases le_or_gt 0 (place + 1) with hplace | hplace
  · have hpow : (2 : ℚ) ^ 93 ≤ 10 ^ (28 : ℤ) := by norm_num
    refine two_zpow_le_ten_zpow_of_pow (n := 93) (by decide) ?_
    refine (zpow_le_zpow_left₀ hplace (by positivity) hpow).trans ?_
    rw [← zpow_mul]
    exact zpow_le_zpow_right₀ (by norm_num) (by omega)
  · have hpow : (10 : ℚ) ^ (59 : ℤ) ≤ 2 ^ 196 := by norm_num
    refine two_zpow_le_ten_zpow_of_pow (n := 196) (by decide) ?_
    obtain ⟨m, hm⟩ : ∃ m : ℕ, place + 1 = -m := ⟨(-(place + 1)).toNat, by omega⟩
    calc ((2 : ℚ) ^ 196) ^ (place + 1) = (((2 : ℚ) ^ 196) ^ m)⁻¹ := by
          rw [hm, zpow_neg, zpow_natCast]
      _ ≤ (((10 : ℚ) ^ (59 : ℤ)) ^ m)⁻¹ :=
          inv_anti₀ (by positivity) (pow_le_pow_left₀ (by positivity) hpow m)
      _ = 10 ^ (59 * (place + 1)) := by
          rw [hm, ← zpow_natCast, ← zpow_neg, ← zpow_mul]
      _ ≤ 10 ^ ((place * 1233 / 4096 + 3) * (196 : ℕ)) :=
          zpow_le_zpow_right₀ (by norm_num) (by omega)

/-- The leading digit is at most two places too low, and the guess at it is close to the leading
bit.
-/
theorem leadingDigit_spec (hden : 0 < den) (hlow : -1074 ≤ leadingPlace num den)
    (hhigh : leadingPlace num den ≤ 1023)
    (hlt : (num / den : ℚ) < 2 ^ (leadingPlace num den + 1)) :
    -400 ≤ leadingDigit num den ∧ (num / den : ℚ) < 10 ^ (leadingDigit num den + 2) := by
  unfold leadingDigit
  dsimp only
  simp only [decide_eq_true_eq, scaleByTen_le_iff hden]
  split
  · refine ⟨by omega, ?_⟩
    rw [add_assoc]
    exact hlt.trans_le (two_zpow_le_ten_zpow hlow hhigh)
  next hnext =>
  split
  · refine ⟨by omega, (not_le.mp hnext).trans_le ?_⟩
    exact zpow_le_zpow_right₀ (by norm_num) (by omega)
  · next hreached =>
    refine ⟨by omega, (not_le.mp hreached).trans_le ?_⟩
    exact zpow_le_zpow_right₀ (by norm_num) (by omega)

end LeadingDigit

/-! ## The decimals of a grid -/

/-- The decimal lies at most half a place above the magnitude of the number, and it is not too long.
-/
structure Within (x : Binary64) (d : Decimal) : Prop where
  digits_pos : 0 < d.digits
  digits_le : d.digits ≤ 2 * 10 ^ 18
  exponent_ge : -416 ≤ d.exponent
  value_le : (d.digits * 10 ^ d.exponent : ℚ) ≤ (x.mantissa + 1 / 2) * 2 ^ x.exponent

section Grid

variable {x : Binary64}

/-- A number other than zero has a mantissa other than zero. -/
theorem mantissa_pos (h : x.code ≠ 0) : 0 < x.mantissa := by
  have := hiddenBit_pos
  unfold mantissa
  split <;> omega

/-- A quarter of the last place of the mantissa. -/
def quarter (x : Binary64) : Nat × Nat :=
  if 2 ≤ x.exponent then (1 <<< (x.exponent - 2).toNat, 1)
  else (1, 1 <<< (2 - x.exponent).toNat)

/-- A quarter of a place is a quotient of positive numbers. -/
theorem quarter_pos (x : Binary64) : 0 < x.quarter.1 ∧ 0 < x.quarter.2 := by
  unfold quarter
  split <;> simp [Nat.shiftLeft_eq]

/-- A quarter of a place as a rational number. -/
theorem quarter_eq (x : Binary64) : (x.quarter.1 / x.quarter.2 : ℚ) = 2 ^ x.exponent / 4 := by
  have hfour : (4 : ℚ) = 2 ^ (2 : ℤ) := by norm_num
  rw [hfour, ← zpow_sub₀ two_ne_zero]
  unfold quarter
  split
  · next h =>
    obtain ⟨n, hn⟩ := Int.eq_ofNat_of_zero_le (sub_nonneg.mpr h)
    rw [hn, cast_shiftLeft]
    simp
  · next h =>
    obtain ⟨n, hn⟩ : ∃ n : ℕ, 2 - x.exponent = n := ⟨(2 - x.exponent).toNat, by omega⟩
    rw [← neg_sub 2 x.exponent, hn, Int.toNat_natCast, cast_shiftLeft]
    simp

/-- A quarter of the last place, in units of a grid. -/
def gridUnit (x : Binary64) (power : Int) : Nat × Nat :=
  scaleByTen x.quarter.1 x.quarter.2 (-power)

/-- In the units of a grid it is a quotient of positive numbers still. -/
theorem gridUnit_pos (x : Binary64) (power : Int) :
    0 < (gridUnit x power).1 ∧ 0 < (gridUnit x power).2 := by
  refine ⟨?_, scaleByTen_pos x.quarter_pos.2 (-power)⟩
  unfold gridUnit scaleByTen
  split
  · exact Nat.mul_pos x.quarter_pos.1 (Nat.pow_pos (by decide))
  · exact x.quarter_pos.1

/-- A quarter of a place in the units of a grid, as a rational number. -/
theorem gridUnit_eq (x : Binary64) (power : Int) :
    ((gridUnit x power).1 / (gridUnit x power).2 : ℚ) = 2 ^ x.exponent / 4 / 10 ^ power := by
  rw [gridUnit, scaleByTen_eq, quarter_eq, zpow_neg, ← div_eq_mul_inv]

/-- The decimal of a grid reads back as the number. -/
def inside (x : Binary64) (unit : Nat × Nat) (digits : Nat) : Bool :=
  let m := 4 * x.mantissa
  let below := if x.mantissa = hiddenBit ∧ minExponent < x.exponent then 1 else 2
  if x.mantissa % 2 = 0 then
    (m - below) * unit.1 ≤ digits * unit.2 && digits * unit.2 ≤ (m + 2) * unit.1
  else (m - below) * unit.1 < digits * unit.2 && digits * unit.2 < (m + 2) * unit.1

/-- Digits that read back as a number are not zero, and are at most half a place above it. -/
theorem inside_spec (hcode : x.code ≠ 0) {unit : Nat × Nat} (hunit : 0 < unit.1) {digits : Nat}
    (h : inside x unit digits) :
    0 < digits * unit.2 ∧ digits * unit.2 ≤ (4 * x.mantissa + 2) * unit.1 := by
  have hmantissa := mantissa_pos hcode
  have hbelow : (if x.mantissa = hiddenBit ∧ minExponent < x.exponent then 1 else 2)
      < 4 * x.mantissa := by
    split <;> omega
  have hlow := Nat.mul_pos (Nat.sub_pos_of_lt hbelow) hunit
  unfold inside at h
  dsimp only at h
  split at h <;> simp only [Bool.and_eq_true, decide_eq_true_eq] at h
  · exact ⟨hlow.trans_le h.1, h.2⟩
  · exact ⟨hlow.trans h.1, h.2.le⟩

/-- A decimal that is found on a grid is not zero and at most half a place above the number. -/
theorem onGrid?_spec (hcode : x.code ≠ 0) {power : Int} {digits : Nat}
    (h : onGrid? x power = some digits) :
    0 < digits * (gridUnit x power).2 ∧
      digits * (gridUnit x power).2 ≤ (4 * x.mantissa + 2) * (gridUnit x power).1 := by
  obtain ⟨num_pos, den_pos⟩ := gridUnit_pos x power
  unfold onGrid? at h
  dsimp only at h
  generalize hunit : scaleByTen _ _ (-power) = unit at h
  rw [show gridUnit x power = unit from hunit] at num_pos den_pos ⊢
  obtain ⟨num, den⟩ := unit
  dsimp only at h num_pos den_pos ⊢
  have hinside (digits : Nat) (hdigits : inside x (num, den) digits) :
      0 < digits * den ∧ digits * den ≤ (4 * x.mantissa + 2) * num :=
    inside_spec hcode num_pos hdigits
  split at h
  · next hexact =>
    cases h
    rw [Nat.div_mul_cancel (Nat.dvd_of_mod_eq_zero hexact)]
    exact ⟨Nat.mul_pos (Nat.mul_pos (by decide) (mantissa_pos hcode)) num_pos,
      Nat.mul_le_mul_right _ (by omega)⟩
  -- Otherwise it is a neighbour that reads back.
  split at h
  · cases h
  · next hlow _ =>
    cases h
    exact hinside _ hlow
  · next _ hnext =>
    cases h
    exact hinside _ hnext
  · next hlow hnext =>
    cases h
    have hround : roundQuotient (4 * x.mantissa * num) den
          = 4 * x.mantissa * num / den ∨
        roundQuotient (4 * x.mantissa * num) den
          = 4 * x.mantissa * num / den + 1 := by
      unfold roundQuotient
      dsimp only
      split_ifs <;> omega
    rcases hround with hround | hround <;> rw [hround]
    · exact hinside _ hlow
    · exact hinside _ hnext

end Grid

/-! ## The search -/

section Search

variable {x : Binary64} {d : Decimal}

/-- The exponents are those from the smallest on. -/
theorem minExponent_le_exponent (x : Binary64) : minExponent ≤ x.exponent := by
  have := hiddenBit_pos
  unfold exponent minExponent
  split
  · exact le_rfl
  · next h =>
    have : 1 ≤ x.code / hiddenBit := (Nat.one_le_div_iff this).mpr (not_lt.mp h)
    omega

/-- The leading digit of a finite number bounds it. -/
theorem leadingDigit_ratio (hfinite : x.Finite) (hcode : x.code ≠ 0) :
    -400 ≤ leadingDigit x.ratio.1 x.ratio.2 ∧
      x.magnitude < 10 ^ (leadingDigit x.ratio.1 x.ratio.2 + 2) := by
  have hmantissa : (1 : ℚ) ≤ x.mantissa := by exact_mod_cast mantissa_pos hcode
  have hsmallest : (2 : ℚ) ^ (-1074 : ℤ) ≤ x.magnitude := by
    refine (zpow_le_zpow_right₀ one_le_two x.minExponent_le_exponent).trans ?_
    exact le_mul_of_one_le_left (by positivity) hmantissa
  have hpos : 0 < x.ratio.1 := by
    refine Nat.pos_of_ne_zero fun h => ?_
    rw [← ratio_eq, h, Nat.cast_zero, zero_div] at hsmallest
    exact absurd hsmallest (not_le.mpr (by positivity))
  obtain ⟨hlow, hhigh⟩ := leadingPlace_spec hpos x.ratio_pos
  have hle : -1074 ≤ leadingPlace x.ratio.1 x.ratio.2 := by
    rw [ratio_eq] at hhigh
    have := (zpow_lt_zpow_iff_right₀ one_lt_two).mp (hsmallest.trans_lt hhigh)
    omega
  have hge : leadingPlace x.ratio.1 x.ratio.2 < 1024 := by
    rw [ratio_eq] at hlow
    exact (zpow_lt_zpow_iff_right₀ one_lt_two).mp
      ((hlow.trans_lt hfinite.magnitude_lt).trans limit_lt)
  have := leadingDigit_spec x.ratio_pos hle (Int.le_of_lt_add_one hge) hhigh
  rwa [ratio_eq] at this

/-- The decimal that is found on a grid is within half a place, where the grid is no finer than the
seventeenth digit. -/
theorem within_of_onGrid? (hfinite : x.Finite) (hcode : x.code ≠ 0) {power : Int} {digits : Nat}
    (hpower : leadingDigit x.ratio.1 x.ratio.2 - 16 ≤ power)
    (h : onGrid? x power = some digits) : Within x ⟨digits, power⟩ := by
  obtain ⟨hpos, hle⟩ := onGrid?_spec hcode h
  obtain ⟨hleast, hlt⟩ := leadingDigit_ratio hfinite hcode
  have hten : (0 : ℚ) < 10 ^ power := by positivity
  have hvalue : (digits * 10 ^ power : ℚ) ≤ (x.mantissa + 1 / 2) * 2 ^ x.exponent := by
    have hden : (0 : ℚ) < (gridUnit x power).2 := by exact_mod_cast (gridUnit_pos x power).2
    have hle : (digits : ℚ) * (gridUnit x power).2
        ≤ (4 * x.mantissa + 2) * (gridUnit x power).1 := by exact_mod_cast hle
    rw [← le_div_iff₀ hden, mul_div_assoc, gridUnit_eq] at hle
    calc (digits * 10 ^ power : ℚ)
        ≤ (4 * x.mantissa + 2) * (2 ^ x.exponent / 4 / 10 ^ power) * 10 ^ power := by gcongr
      _ = (x.mantissa + 1 / 2) * 2 ^ x.exponent := by
        field_simp
        ring
  have hleast : -416 ≤ power := by omega
  refine ⟨Nat.pos_of_mul_pos_right hpos, ?_, hleast, hvalue⟩
  -- The number has at most two places more than the grid has digits.
  have hmantissa : (1 : ℚ) ≤ x.mantissa := by exact_mod_cast mantissa_pos hcode
  have hdigits : (digits * 10 ^ power : ℚ) ≤ 2 * 10 ^ (18 : ℤ) * 10 ^ power := by
    calc (digits * 10 ^ power : ℚ) ≤ (x.mantissa + 1 / 2) * 2 ^ x.exponent := hvalue
      _ ≤ 2 * x.magnitude := by
        rw [magnitude, ← mul_assoc]
        gcongr
        linarith
      _ ≤ 2 * 10 ^ (leadingDigit x.ratio.1 x.ratio.2 + 2) := by gcongr
      _ ≤ 2 * 10 ^ (18 + power) :=
        mul_le_mul_of_nonneg_left (zpow_le_zpow_right₀ (by norm_num) (by omega)) two_pos.le
      _ = 2 * 10 ^ (18 : ℤ) * 10 ^ power := by
        rw [zpow_add₀ (by norm_num), mul_assoc]
  exact_mod_cast le_of_mul_le_mul_right hdigits hten

/-- Zeros at the end do not count. -/
theorem Within.dropZeros (fuel : Nat) (h : Within x d) : Within x (dropZeros fuel d) := by
  induction fuel generalizing d with
  | zero => exact h
  | succ fuel ih =>
    rw [Binary64.dropZeros]
    split
    · next hzero =>
      obtain ⟨hne, hmod⟩ := hzero
      have hdiv : 10 * (d.digits / 10) = d.digits :=
        Nat.mul_div_cancel' (Nat.dvd_of_mod_eq_zero hmod)
      refine ih ⟨?_, ?_, ?_, ?_⟩
      · dsimp only
        omega
      · exact (Nat.div_le_self _ _).trans h.digits_le
      · have := h.exponent_ge
        show -416 ≤ d.exponent + 1
        omega
      · refine le_trans (le_of_eq ?_) h.value_le
        have hcast : (d.digits : ℚ) = 10 * (d.digits / 10 : Nat) := by exact_mod_cast hdiv.symm
        rw [hcast, zpow_add_one₀ (by norm_num)]
        ring
    · exact h

/-- **The shortest decimal is at most half a place above the number**, if there is one. -/
theorem shortest_spec (hfinite : x.Finite) (hcode : x.code ≠ 0) :
    shortest x = ⟨0, 0⟩ ∨ Within x (shortest x) := by
  have hsearch (left : Nat) (hleft : left ≤ 17) :
      shortest.search x (leadingDigit x.ratio.1 x.ratio.2) left = ⟨0, 0⟩ ∨
        Within x (shortest.search x (leadingDigit x.ratio.1 x.ratio.2) left) := by
    induction left with
    | zero => exact .inl rfl
    | succ left ih =>
      rw [shortest.search]
      split
      · next digits hdigits =>
        exact .inr ((within_of_onGrid? hfinite hcode (by omega) hdigits).dropZeros 20)
      · exact ih (by omega)
  exact hsearch 17 le_rfl

/-- The decimal is below the first power of ten past the limit. -/
theorem Within.exponent_lt (hfinite : x.Finite) (h : Within x d) : d.exponent < 309 := by
  have hdigits : (1 : ℚ) ≤ d.digits := by exact_mod_cast h.digits_pos
  have hupper : (x.mantissa + 1 / 2 : ℚ) * 2 ^ x.exponent ≤ limit := by
    refine (upper_le (n := 1) hfinite Nat.one_pos hiddenBit_pos).trans_eq ?_
    rw [limit, Nat.cast_one, mul_one, add_sub_assoc, show (1 - 2 : ℚ) = -1 by norm_num,
      ← sub_eq_add_neg]
  have hlast : (2 : ℚ) ^ (1024 : ℤ) ≤ 10 ^ (309 : ℤ) := by
    have hpow : (2 : ℚ) ^ 93 ≤ 10 ^ (28 : ℤ) := by norm_num
    refine two_zpow_le_ten_zpow_of_pow (n := 93) (by decide) ?_
    refine (zpow_le_zpow_left₀ (by decide) (by positivity) hpow).trans ?_
    rw [← zpow_mul]
    exact zpow_le_zpow_right₀ (by norm_num) (by decide)
  refine (zpow_lt_zpow_iff_right₀ (show (1 : ℚ) < 10 by norm_num)).mp ?_
  calc (10 : ℚ) ^ d.exponent ≤ d.digits * 10 ^ d.exponent :=
        le_mul_of_one_le_left (by positivity) hdigits
    _ ≤ limit := h.value_le.trans hupper
    _ < 10 ^ (309 : ℤ) := limit_lt.trans_le hlast

/-- **The shortest decimal of a number is in range.** -/
theorem isSome_ofScientific_shortest (hfinite : x.Finite) (h : Within x (shortest x)) :
    (ofScientific x.negative (shortest x).digits (shortest x).exponent).isSome := by
  rcases Nat.lt_or_ge infinityCode (x.code + 4) with hlarge | hsmall
  · -- Two roundings may reach the limit from the three largest numbers; they do not.
    have hall : ∀ negative : Bool, ∀ n < 3,
        let largest : Binary64 := ⟨negative, infinityCode - 1 - n⟩
        (ofScientific negative (shortest largest).digits (shortest largest).exponent).isSome := by
      decide +kernel
    have hcode : x.code < infinityCode := hfinite
    have := hall x.negative (infinityCode - 1 - x.code) (by omega)
    have heq : infinityCode - 1 - (infinityCode - 1 - x.code) = x.code := by omega
    rwa [heq] at this
  · refine isSome_ofScientific h.digits_pos (Int.le_of_lt_add_one (h.exponent_lt hfinite)) ?_
    have hupper := h.value_le.trans (upper_le hsmall (by decide) (by decide))
    have hpower : (0 : ℚ) < 2 ^ (970 : ℤ) := by positivity
    rw [limit]
    generalize (2 : ℚ) ^ (970 : ℤ) = power at *
    calc ((shortest x).digits : ℚ) * 10 ^ (shortest x).exponent * (1 + 1 / 2 ^ 53) ^ 2
        ≤ (2 ^ 54 + 1 - 2 * (4 : ℕ)) * power * (1 + 1 / 2 ^ 53) ^ 2 := by gcongr
      _ = (2 ^ 54 + 1 - 2 * (4 : ℕ)) * (1 + 1 / 2 ^ 53) ^ 2 * power := by ring
      _ < (2 ^ 54 - 1) * power := by
        gcongr
        norm_num

end Search

end Hypermark.Binary64
