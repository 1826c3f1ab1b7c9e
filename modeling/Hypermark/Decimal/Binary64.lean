/-!
# Binary floating point numbers of 64 bits

A finite number is a sign and a *code*: the 63 bits of its magnitude, read as a natural number.  The
code orders the magnitudes, so rounding may carry into the exponent by plain addition.

* `Binary64.mantissa` and `Binary64.exponent` give the magnitude as `mantissa * 2 ^ exponent`.
* `Binary64.ofRatio` rounds a quotient of natural numbers to the nearest number, a tie to the even
  mantissa.
-/

namespace Hypermark

/-- A number of 64 bits: its sign, and the bits of its magnitude.  It is finite when the code is below
`Binary64.infinityCode`. -/
structure Binary64 where
  negative : Bool
  code : Nat
deriving DecidableEq, Repr

namespace Binary64

/-- The leading bit of the mantissa of a normal number, which the code leaves out: `2 ^ 52`. -/
def hiddenBit : Nat := 1 <<< 52

/-- The code of the first magnitude that is not finite. -/
def infinityCode : Nat := 2047 * hiddenBit

/-- The exponent of the smallest numbers. -/
def minExponent : Int := -1074

/-- The number is finite. -/
def Finite (x : Binary64) : Prop := x.code < infinityCode

instance (x : Binary64) : Decidable x.Finite := inferInstanceAs (Decidable (_ < _))

/-- Zero, with the sign given. -/
def zero (negative : Bool) : Binary64 := ⟨negative, 0⟩

/-- The integer mantissa: below `2 ^ 53`, and at least `2 ^ 52` for a normal number. -/
def mantissa (x : Binary64) : Nat :=
  if x.code < hiddenBit then x.code else x.code % hiddenBit + hiddenBit

/-- The exponent of the last bit of the mantissa. -/
def exponent (x : Binary64) : Int :=
  if x.code < hiddenBit then minExponent else (x.code / hiddenBit : Nat) - 1075

/-- The quotient rounded to an integer, a tie to the even one. -/
def roundQuotient (num den : Nat) : Nat :=
  let low := num / den
  let twice := 2 * (num % den)
  if twice < den then low
  else if den < twice then low + 1
  else low + low % 2

/-- The place of the leading bit of a quotient: the `e` with `2 ^ e ≤ num / den < 2 ^ (e + 1)`. -/
def leadingPlace (num den : Nat) : Int :=
  let guess : Int := (num.log2 : Int) - (den.log2 : Int)
  let reached :=
    if 0 ≤ guess then den <<< guess.toNat ≤ num else den ≤ num <<< (-guess).toNat
  if reached then guess else guess - 1

/-- The number nearest to `num / den`, a tie going to the even mantissa.  The result may be the first
magnitude past the finite ones. -/
def ofRatio (negative : Bool) (num den : Nat) : Binary64 :=
  if num = 0 then zero negative
  else
    let place := max (leadingPlace num den - 52) minExponent
    let rounded :=
      if 0 ≤ place then roundQuotient num (den <<< place.toNat)
      else roundQuotient (num <<< (-place).toNat) den
    ⟨negative, min ((place - minExponent).toNat * hiddenBit + rounded) infinityCode⟩

/-- The magnitude as a quotient of natural numbers. -/
def ratio (x : Binary64) : Nat × Nat :=
  if 0 ≤ x.exponent then (x.mantissa <<< x.exponent.toNat, 1)
  else (x.mantissa, 1 <<< (-x.exponent).toNat)

/-- The product, rounded; the sign is that of the first factor, for factors such as powers of ten. -/
def mul (x y : Binary64) : Binary64 :=
  ofRatio x.negative (x.ratio.1 * y.ratio.1) (x.ratio.2 * y.ratio.2)

/-- The quotient by a number other than zero, rounded; the sign is that of the dividend. -/
def div (x y : Binary64) : Binary64 :=
  ofRatio x.negative (x.ratio.1 * y.ratio.2) (x.ratio.2 * y.ratio.1)

/-- The number nearest to a power of ten. -/
def powerOfTen (n : Nat) : Binary64 := ofRatio false (Nat.pow 10 n) 1

/-- Divides by `10 ^ n`, by at most `10 ^ 308` at a time. -/
def divPowerOfTen (x : Binary64) (n : Nat) : Binary64 :=
  if n ≤ 308 then x.div (powerOfTen n)
  else if x.code = 0 then x
  else (x.div (powerOfTen 308)).divPowerOfTen (n - 308)
termination_by n
decreasing_by omega

/-- The number `significand * 10 ^ exponent` as digits are read: the significand is rounded first and
then scaled by one rounded power of ten, after dividing by `10 ^ 308` as long as the exponent is lower
than that.  `none` stands for a number out of range. -/
def ofScientific (negative : Bool) (significand : Nat) (exponent : Int) : Option Binary64 :=
  let start := ofRatio negative significand 1
  if exponent < 0 then some (start.divPowerOfTen (-exponent).toNat)
  else if exponent ≤ 308 then
    let scaled := start.mul (powerOfTen exponent.toNat)
    if scaled.Finite then some scaled else none
  else if significand = 0 then some start
  else none

end Binary64

end Hypermark
