import Hypermark.Hast.Basic
import Hypermark.Json.Reader
import Hypermark.Json.Shape

/-!
# Reading a tree from JSON

An object whose `type` is one of the five kinds is read as a node of that kind; any other value is kept
as it is, without a look inside.  The members of a node are visited in their order and the first one
of the wrong shape is the error; a member that is missing is noticed only afterwards.
-/

namespace Hypermark

/-! ## Positions -/

/-- The largest line, column or offset, `2 ^ 64 - 1`. -/
def maxSize : Int := 18446744073709551615

/-- A number that counts something. -/
def Json.toSize : Json → Except Mismatch Nat
  | .num (.int value) =>
    if 0 ≤ value ∧ value ≤ maxSize then .ok value.toNat
    else .error (.invalidValue (.number (.int value)) .size)
  | value => .error (.ofValue value .size)

/-- A number that counts something, or nothing. -/
def Json.toOptionalSize : Json → Except Mismatch (Option Nat)
  | .null => .ok none
  | value => value.toSize.map some

namespace Point

/-- The members read so far. -/
structure Draft where
  line : Option Nat := none
  column : Option Nat := none
  offset : Option Nat := none

/-- Reads the members of a point; unknown ones are ignored. -/
def readMembers (read : Draft) : List (String × Json) → Except Mismatch Draft
  | [] => .ok read
  | (name, value) :: rest => do
    if name = "line" then
      let line ← value.toSize
      readMembers { read with line := some line } rest
    else if name = "column" then
      let column ← value.toSize
      readMembers { read with column := some column } rest
    else if name = "offset" then
      let offset ← value.toOptionalSize
      readMembers { read with offset := offset } rest
    else readMembers read rest

/-- A point from an object, or from an array of its line, column and perhaps offset. -/
def ofJson : Json → Except Mismatch Point
  | .obj members => do
    let read ← readMembers {} members
    match read.line, read.column with
    | some line, some column => .ok ⟨line, column, read.offset⟩
    | none, _ => .error (.missingField "line")
    | _, none => .error (.missingField "column")
  | .arr [] => .error (.tooShort 0 "Point" 3)
  | .arr [line] => do
    let _ ← line.toSize
    .error (.tooShort 1 "Point" 3)
  | .arr [line, column] => do
    let line ← line.toSize
    let column ← column.toSize
    .ok ⟨line, column, none⟩
  | .arr (line :: column :: offset :: rest) => do
    let line ← line.toSize
    let column ← column.toSize
    let offset ← offset.toOptionalSize
    if rest.isEmpty then .ok ⟨line, column, offset⟩ else .error (.tooLong (rest.length + 3))
  | value => .error (.ofValue value (.record "Point"))

end Point

namespace Position

/-- The members read so far. -/
structure Draft where
  start : Option Point := none
  stop : Option Point := none

/-- Reads the members of a position; unknown ones are ignored. -/
def readMembers (read : Draft) : List (String × Json) → Except Mismatch Draft
  | [] => .ok read
  | (name, value) :: rest => do
    if name = "start" then
      let start ← Point.ofJson value
      readMembers { read with start := some start } rest
    else if name = "end" then
      let stop ← Point.ofJson value
      readMembers { read with stop := some stop } rest
    else readMembers read rest

/-- A position from an object, or from an array of its two points. -/
def ofJson : Json → Except Mismatch Position
  | .obj members => do
    let read ← readMembers {} members
    match read.start, read.stop with
    | some start, some stop => .ok ⟨start, stop⟩
    | none, _ => .error (.missingField "start")
    | _, none => .error (.missingField "end")
  | .arr [] => .error (.tooShort 0 "Position" 2)
  | .arr [start] => do
    let _ ← Point.ofJson start
    .error (.tooShort 1 "Position" 2)
  | .arr (start :: stop :: rest) => do
    let start ← Point.ofJson start
    let stop ← Point.ofJson stop
    if rest.isEmpty then .ok ⟨start, stop⟩ else .error (.tooLong (rest.length + 2))
  | value => .error (.ofValue value (.record "Position"))

/-- A position that may be absent, which `null` says too. -/
def ofOptionalJson : Json → Except Mismatch (Option Position)
  | .null => .ok none
  | value => (ofJson value).map some

end Position

namespace Hast

/-! ## Properties -/

/-- The texts of a list of values, if all of them are strings. -/
def strings? : List Json → Option (List String)
  | [] => some []
  | .str value :: rest => (strings? rest).map (value :: ·)
  | _ :: _ => none

namespace PropertyValue

/-- A value as the value of a property. -/
def ofJson : Json → PropertyValue
  | .null => null
  | .bool value => bool value
  | .num value => number value
  | .str value => string value
  | .arr items =>
    match strings? items with
    | some values => list values
    | none => other (.arr items)
  | .obj members => other (.obj members)

/-- The names of the six kinds of values. -/
def kindName : PropertyValue → String
  | null => "Null"
  | bool _ => "Bool"
  | number _ => "Number"
  | string _ => "String"
  | list _ => "List"
  | other _ => "Other"

end PropertyValue

/-! ## Nodes -/

/-- The kinds of nodes that are read member by member. -/
inductive Kind where
  | root
  | element
  | text
  | comment
  | raw
deriving DecidableEq, Repr

namespace Kind

/-- The kind with a name. -/
def ofName? (name : String) : Option Kind :=
  if name = "root" then some root
  else if name = "element" then some element
  else if name = "text" then some text
  else if name = "comment" then some comment
  else if name = "raw" then some raw
  else none

/-- The kind that the members of an object name. -/
def ofMembers? (members : List (String × Json)) : Option Kind :=
  ((Members.get? members "type").bind Json.asString?).bind ofName?

/-- Nodes of this kind have children. -/
def hasChildren : Kind → Bool
  | root | element => true
  | _ => false

/-- Nodes of this kind have a tag name and properties. -/
def hasTag : Kind → Bool
  | element => true
  | _ => false

/-- Nodes of this kind have a value. -/
def hasValue : Kind → Bool
  | root | element => false
  | _ => true

end Kind

namespace Node

/-- The members of a node read so far; `extra` is in reverse. -/
structure Draft where
  tagName : Option String := none
  properties : Properties := []
  children : List Node := []
  position : Option Position := none
  value : Option String := none
  extra : List (String × Json) := []

/-- A text. -/
def readString : Json → Except Mismatch String
  | .str value => .ok value
  | value => .error (.ofValue value .string)

/-- The properties of an element. -/
def readProperties : Json → Except Mismatch Properties
  | .obj members => .ok (members.map fun entry => (entry.1, PropertyValue.ofJson entry.2))
  | value => .error (.ofValue value .map)

/-- Reads a member that holds no nodes. -/
def readMember (kind : Kind) (read : Draft) (name : String) (value : Json) :
    Except Mismatch Draft := do
  if name = "position" then
    let position ← Position.ofOptionalJson value
    return { read with position := position }
  else if name = "tagName" ∧ kind.hasTag then
    let tagName ← readString value
    return { read with tagName := some tagName }
  else if name = "properties" ∧ kind.hasTag then
    let properties ← readProperties value
    return { read with properties := properties }
  else if name = "value" ∧ kind.hasValue then
    let value ← readString value
    return { read with value := some value }
  else return { read with extra := (name, value) :: read.extra }

/-- The node whose members have been read. -/
def ofDraft (kind : Kind) (read : Draft) : Except Mismatch Node :=
  match kind, read.tagName, read.value with
  | .root, _, _ => .ok (.root read.children read.position read.extra.reverse)
  | .element, some tagName, _ =>
    .ok (.element tagName read.properties read.children read.position read.extra.reverse)
  | .element, none, _ => .error (.missingField "tagName")
  | .text, _, some value => .ok (.text value read.position read.extra.reverse)
  | .comment, _, some value => .ok (.comment value read.position read.extra.reverse)
  | .raw, _, some value => .ok (.raw value read.position read.extra.reverse)
  | _, _, none => .error (.missingField "value")

mutual

/-- A node from a JSON value. -/
def ofJson : Json → Except Mismatch Node
  | .obj members =>
    match Kind.ofMembers? members with
    | none => .ok (.other (.obj members))
    | some kind => do
      let read ← readMembers kind {} members
      ofDraft kind read
  | value => .ok (.other value)

/-- Reads the members of a node; its type has been read already. -/
def readMembers (kind : Kind) (read : Draft) : List (String × Json) → Except Mismatch Draft
  | [] => .ok read
  | (name, value) :: rest => do
    if name = "type" then readMembers kind read rest
    else if name = "children" ∧ kind.hasChildren then
      match value with
      | .arr items =>
        let children ← ofJsonAll items
        readMembers kind { read with children := children } rest
      | value => .error (.ofValue value .sequence)
    else
      let read ← readMember kind read name value
      readMembers kind read rest

/-- Nodes from a list of JSON values. -/
def ofJsonAll : List Json → Except Mismatch (List Node)
  | [] => .ok []
  | value :: values => do
    let node ← ofJson value
    let nodes ← ofJsonAll values
    .ok (node :: nodes)

end

/-- Why a text holds no tree: it is not JSON, or its value has the wrong shape. -/
inductive ReadError where
  | text (fault : JsonFault) (source : List Char)
  | shape (mismatch : Mismatch)
deriving DecidableEq, Repr

namespace ReadError

/-- The wording of an error. -/
def message : ReadError → String
  | text fault source => fault.message source
  | shape mismatch => mismatch.message

end ReadError

/-- The tree that a text holds.  A value of the wrong shape is noticed before characters behind it. -/
def read (source : String) : Except ReadError Node := do
  let chars := source.toList
  let (value, rest) ← (Json.readValue chars).mapError (.text · chars)
  let node ← (ofJson value).mapError .shape
  (Json.readEnd rest).mapError (.text · chars)
  return node

end Node

end Hast

end Hypermark
