import Hypermark.Members
import Hypermark.Decimal.Binary64

/-!
# JSON values

A JSON value with its objects in one order, see `Members`.  Numbers keep the distinction that their
text makes: an integer of at most 64 bits stays an integer, every other number is a binary one.

* `Json.weight` counts the values in a value.
* `Json.nesting`: how many arrays and objects lie inside one another.
-/

namespace Hypermark

/-- A number of a JSON text. -/
inductive JsonNumber where
  | int (value : Int)
  | real (value : Binary64)
deriving DecidableEq, Repr

namespace JsonNumber

/-- The integers that stay integers: those of 64 bits, with or without a sign, from `-2 ^ 63` up to
`2 ^ 64 - 1`. -/
def isWord (value : Int) : Bool :=
  -9223372036854775808 ≤ value && value ≤ 18446744073709551615

end JsonNumber

/-- A JSON value. -/
inductive Json where
  | null
  | bool (value : Bool)
  | num (value : JsonNumber)
  | str (value : String)
  | arr (items : List Json)
  | obj (members : List (String × Json))
deriving Inhabited, Repr, BEq

namespace Json

mutual

/-- Equality of values is decidable. -/
protected def decEq : (a b : Json) → Decidable (a = b)
  | null, null => isTrue rfl
  | bool a, bool b => if h : a = b then isTrue (h ▸ rfl) else isFalse (by simp [h])
  | num a, num b => if h : a = b then isTrue (h ▸ rfl) else isFalse (by simp [h])
  | str a, str b => if h : a = b then isTrue (h ▸ rfl) else isFalse (by simp [h])
  | arr a, arr b =>
    match Json.decEqItems a b with
    | isTrue h => isTrue (h ▸ rfl)
    | isFalse h => isFalse (by simp [h])
  | obj a, obj b =>
    match Json.decEqMembers a b with
    | isTrue h => isTrue (h ▸ rfl)
    | isFalse h => isFalse (by simp [h])
  | null, bool _ | null, num _ | null, str _ | null, arr _ | null, obj _
  | bool _, null | bool _, num _ | bool _, str _ | bool _, arr _ | bool _, obj _
  | num _, null | num _, bool _ | num _, str _ | num _, arr _ | num _, obj _
  | str _, null | str _, bool _ | str _, num _ | str _, arr _ | str _, obj _
  | arr _, null | arr _, bool _ | arr _, num _ | arr _, str _ | arr _, obj _
  | obj _, null | obj _, bool _ | obj _, num _ | obj _, str _ | obj _, arr _ =>
    isFalse (by simp)

/-- Equality of lists of values is decidable. -/
protected def decEqItems : (a b : List Json) → Decidable (a = b)
  | [], [] => isTrue rfl
  | [], _ :: _ | _ :: _, [] => isFalse (by simp)
  | x :: xs, y :: ys =>
    match Json.decEq x y, Json.decEqItems xs ys with
    | isTrue h, isTrue hs => isTrue (h ▸ hs ▸ rfl)
    | isFalse h, _ => isFalse (by simp [h])
    | _, isFalse hs => isFalse (by simp [hs])

/-- Equality of lists of members is decidable. -/
protected def decEqMembers : (a b : List (String × Json)) → Decidable (a = b)
  | [], [] => isTrue rfl
  | [], _ :: _ | _ :: _, [] => isFalse (by simp)
  | (n, x) :: xs, (m, y) :: ys =>
    if hn : n = m then
      match Json.decEq x y, Json.decEqMembers xs ys with
      | isTrue h, isTrue hs => isTrue (hn ▸ h ▸ hs ▸ rfl)
      | isFalse h, _ => isFalse (by simp [h])
      | _, isFalse hs => isFalse (by simp [hs])
    else isFalse (by simp [hn])

end

instance : DecidableEq Json := Json.decEq

/-! ## Measures -/

mutual

/-- The number of values in a value, itself included. -/
def weight : Json → Nat
  | arr items => 1 + weightItems items
  | obj members => 1 + weightMembers members
  | _ => 1

/-- The number of values in a list of values. -/
def weightItems : List Json → Nat
  | [] => 0
  | item :: items => item.weight + weightItems items

/-- The number of values in a list of members. -/
def weightMembers : List (String × Json) → Nat
  | [] => 0
  | (_, value) :: members => value.weight + weightMembers members

end

mutual

/-- How many arrays and objects lie inside one another. -/
def nesting : Json → Nat
  | arr items => 1 + nestingItems items
  | obj members => 1 + nestingMembers members
  | _ => 0

/-- The deepest nesting of a list of values. -/
def nestingItems : List Json → Nat
  | [] => 0
  | item :: items => max item.nesting (nestingItems items)

/-- The deepest nesting of a list of members. -/
def nestingMembers : List (String × Json) → Nat
  | [] => 0
  | (_, value) :: members => max value.nesting (nestingMembers members)

end

/-! ## Access -/

/-- The member `name` of an object. -/
def get? (name : String) : Json → Option Json
  | obj members => Members.get? members name
  | _ => none

/-- The text of a string. -/
def asString? : Json → Option String
  | str value => some value
  | _ => none

/-- The items of an array. -/
def asArray? : Json → Option (List Json)
  | arr items => some items
  | _ => none

/-- A natural number as a value. -/
def nat (n : Nat) : Json := num (.int n)

end Json

end Hypermark
