import Hypermark.Json.Shape
import Hypermark.Json.Skip

/-!
# Reading a record

A record with a fixed list of fields is read straight from a text: from an object, where each field may
go by several names and unknown members are skipped, or from an array of the fields in order.  Fields
that are missing are left open.  A field that is given twice is an error.

Unlike the value of a whole text, a field of the wrong shape is noticed where it stands, so the error
has a place.
-/

namespace Hypermark

/-- What a field holds. -/
inductive FieldKind where
  | flag
  | text
deriving DecidableEq, Repr

/-- A field of a record: its name, its other names, and what it holds. -/
structure Field where
  name : String
  aliases : List String
  kind : FieldKind
deriving Repr

/-- The value of a field. -/
inductive FieldValue where
  | flag (value : Bool)
  | text (value : String)
deriving DecidableEq, Repr

/-- Why a text holds no record. -/
inductive RecordFault where
  | text (fault : JsonFault)
  | shape (mismatch : Mismatch) (stop : Stop)
deriving DecidableEq, Repr

namespace RecordFault

/-- The message for a fault in a text. -/
def message (source : List Char) : RecordFault → String
  | text fault => fault.message source
  | shape mismatch stop => mismatch.message ++ (stop.place source).suffix

end RecordFault

namespace Json

/-- A step of reading the text, as a step of reading a record. -/
def liftFault {α : Type} (step : Except JsonFault α) : Except RecordFault α :=
  step.mapError .text

/-- The fault for a value that is not of the kind expected.  A scalar is read first, of an array or an
object nothing is. -/
def unexpected {α : Type} (expected : Expected) (text : List Char) : Except RecordFault α := do
  let found (found : Found) (rest : List Char) : Except RecordFault α :=
    .error (.shape (.invalidType found expected) (.here rest))
  match text with
  | 'n' :: cs => do
    let ((), rest) ← liftFault (readWord () ['u', 'l', 'l'] cs)
    found .null rest
  | 't' :: cs => do
    let ((), rest) ← liftFault (readWord () ['r', 'u', 'e'] cs)
    found (.bool true) rest
  | 'f' :: cs => do
    let ((), rest) ← liftFault (readWord () ['a', 'l', 's', 'e'] cs)
    found (.bool false) rest
  | '-' :: cs => do
    let (value, rest) ← liftFault (readNumber true cs)
    found (.number value) rest
  | '"' :: cs => do
    let (value, rest) ← liftFault (readString cs)
    found (.text value) rest
  | '[' :: _ => found .sequence text
  | '\x7b' :: _ => found .map text
  | c :: cs =>
    if (digit? c).isSome then do
      let (value, rest) ← liftFault (readNumber false (c :: cs))
      found (.number value) rest
    else liftFault (failAt .expectedValue text)
  | [] => liftFault (failAt .expectedValue [])

/-- The value of a field. -/
def readField (kind : FieldKind) (text : List Char) : Except RecordFault (FieldValue × List Char) :=
  match kind, skipBlanks text with
  | _, [] => liftFault (failAt .eofValue [])
  | .flag, 't' :: cs => liftFault (readWord (.flag true) ['r', 'u', 'e'] cs)
  | .flag, 'f' :: cs => liftFault (readWord (.flag false) ['a', 'l', 's', 'e'] cs)
  | .flag, rest => unexpected .boolean rest
  | .text, '"' :: cs => do
    let (value, rest) ← liftFault (readString cs)
    .ok (.text value, rest)
  | .text, rest => unexpected .string rest

/-- The number of the field with a name. -/
def fieldIndex? (fields : List Field) (name : String) : Option Nat :=
  fields.findIdx? fun field => field.name == name || field.aliases.contains name

/-- The place of a field that is given twice: behind its name, blanks and a closing brace. -/
def duplicateStop (rest : List Char) : Stop :=
  match skipBlanks rest with
  | '\x7d' :: rest => .here rest
  | rest => .here rest

/-- The members of an object, beside those in `read`. -/
def readFields (fields : List Field) : (fuel : Nat) → (first : Bool) →
    (read : List (Option FieldValue)) → List Char →
    Except RecordFault (List (Option FieldValue) × List Char)
  | 0, _, _, rest => liftFault (failHere .eofObject rest)
  | fuel + 1, first, read, text => do
    match ← liftFault (readNameStart first text) with
    | none => .ok (read, (skipBlanks text).drop 1)
    | some text =>
      let (name, rest) ← liftFault (readString text)
      match fieldIndex? fields name with
      | none =>
        let rest ← liftFault (readColon rest)
        let rest ← liftFault (skipValue rest)
        readFields fields fuel false read rest
      | some i =>
        match fields[i]?, read[i]? with
        | some field, some (some _) =>
          .error (.shape (.duplicateField field.name) (duplicateStop rest))
        | some field, _ =>
          let rest ← liftFault (readColon rest)
          let (value, rest) ← readField field.kind rest
          readFields fields fuel false (read.set i (some value)) rest
        | none, _ => readFields fields fuel false read rest

/-- The end of an array whose items have all been read. -/
def readArrayEnd (text : List Char) : Except JsonFault (List Char) :=
  match skipBlanks text with
  | [] => failAt .eofList []
  | ']' :: rest => .ok rest
  | ',' :: rest =>
    match skipBlanks rest with
    | ']' :: rest => failAt .trailingComma (']' :: rest)
    | rest => failAt .trailingCharacters rest
  | rest => failAt .trailingCharacters rest

/-- The items of an array, one for each field as far as there are any. -/
def readItems (first : Bool) : (fields : List Field) → List Char →
    Except RecordFault (List (Option FieldValue) × List Char)
  | [], text => do
    let rest ← liftFault (readArrayEnd text)
    .ok ([], rest)
  | field :: fields, text => do
    match ← liftFault (readItemStart first text) with
    | none => .ok (none :: fields.map fun _ => none, (skipBlanks text).drop 1)
    | some text =>
      let (value, rest) ← readField field.kind text
      let (values, rest) ← readItems false fields rest
      .ok (some value :: values, rest)

/-- The values of a record's fields, where they are given, from a whole text. -/
def readRecord (name : String) (fields : List Field) (text : List Char) :
    Except RecordFault (List (Option FieldValue)) := do
  let (values, rest) ←
    match skipBlanks text with
    | [] => liftFault (failAt .eofValue [])
    | '[' :: cs => readItems true fields cs
    | '\x7b' :: cs =>
      readFields fields (cs.length + 1) true (fields.map fun _ => none) cs
    | rest => unexpected (.record name) rest
  liftFault (readEnd rest)
  .ok values

end Json

end Hypermark
