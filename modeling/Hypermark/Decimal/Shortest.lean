import Hypermark.Decimal.Binary64

/-!
# The shortest decimal that reads back

Every magnitude has an interval of real numbers that round to it.  `Binary64.shortest` gives the
decimal with the fewest digits in that interval, and of several the one nearest to the number.

On the grid of decimals with `n` digits the only candidates are the two neighbours of the number, so
the grids are tried from one digit to seventeen; on the last one a neighbour always reads back.
-/

namespace Hypermark

/-- The decimal `digits * 10 ^ exponent`. -/
structure Decimal where
  digits : Nat
  exponent : Int
deriving DecidableEq, Repr

namespace Binary64

/-- A quotient of natural numbers scaled by a power of ten. -/
def scaleByTen (num den : Nat) (power : Int) : Nat × Nat :=
  if 0 ≤ power then (num * Nat.pow 10 power.toNat, den)
  else (num, den * Nat.pow 10 (-power).toNat)

/-- The place of the leading decimal digit: the `p` with `10 ^ p ≤ num / den < 10 ^ (p + 1)`. -/
def leadingDigit (num den : Nat) : Int :=
  let guess : Int := (leadingPlace num den * 1233) / 4096
  let reached (p : Int) : Bool :=
    let (n, d) := scaleByTen num den (-p)
    d ≤ n
  if reached (guess + 1) then guess + 1
  else if reached guess then guess
  else guess - 1

/-- The decimal of the grid `10 ^ power` that reads back as the number, if one of the two neighbours
does: the nearer one, and of two equally near ones the even one. -/
def onGrid? (x : Binary64) (power : Int) : Option Nat :=
  let m := 4 * x.mantissa
  let below := if x.mantissa = hiddenBit ∧ minExponent < x.exponent then 1 else 2
  let unit : Nat × Nat :=
    if 2 ≤ x.exponent then (1 <<< (x.exponent - 2).toNat, 1)
    else (1, 1 <<< (2 - x.exponent).toNat)
  let (num, den) := scaleByTen unit.1 unit.2 (-power)
  let inside (c : Nat) : Bool :=
    if x.mantissa % 2 = 0 then (m - below) * num ≤ c * den && c * den ≤ (m + 2) * num
    else (m - below) * num < c * den && c * den < (m + 2) * num
  let low := m * num / den
  let rest := m * num % den
  if rest = 0 then some low
  else
    match inside low, inside (low + 1) with
    | false, false => none
    | true, false => some low
    | false, true => some (low + 1)
    | true, true => some (roundQuotient (m * num) den)

/-- Takes the zeros off the end of the digits. -/
def dropZeros : Nat → Decimal → Decimal
  | 0, d => d
  | fuel + 1, d =>
    if d.digits ≠ 0 ∧ d.digits % 10 = 0 then dropZeros fuel ⟨d.digits / 10, d.exponent + 1⟩ else d

/-- The shortest decimal that rounds to the magnitude of a number other than zero. -/
def shortest (x : Binary64) : Decimal :=
  let top := leadingDigit x.ratio.1 x.ratio.2
  let rec search : Nat → Decimal
    | 0 => ⟨0, 0⟩
    | left + 1 =>
      let power := top - (16 - left)
      match onGrid? x power with
      | some digits => dropZeros 20 ⟨digits, power⟩
      | none => search left
  search 17

end Binary64

end Hypermark
