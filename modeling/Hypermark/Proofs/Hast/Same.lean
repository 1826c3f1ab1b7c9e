import Hypermark.Proofs.Hast.Canonical

/-!
# Equality up to the sign of zero

Numbers are compared by what they are worth, so zero is zero whatever its sign.  Two values, and two
trees, are the same (`Json.Same`, `Node.Same`) if nothing else tells them apart: without the signs of
their zeros they are equal (`unsigned`).

Reading a value as a node asks for strings, arrays, objects and integers, and none of these has a zero
with a sign.  So without the signs the same is read, or nothing as before (`along_ofJson`).
-/

namespace Hypermark

/-! ## Steps that go along -/

section Along

variable {ε α β γ δ : Type}

/-- Both steps succeed, the second with what `f` makes of the result of the first, or both fail. -/
def Along (f : α → β) : Except ε α → Except ε β → Prop
  | .ok a, .ok b => b = f a
  | .error _, .error _ => True
  | _, _ => False

variable {f : α → β} {x : Except ε α} {y : Except ε β}

/-- Two steps that succeed go along if the results do. -/
theorem Along.ok {a : α} {b : β} (h : b = f a) :
    Along f (.ok a : Except ε α) (.ok b : Except ε β) := h

/-- If the first step succeeds, so does the second, with what `f` makes of the result. -/
theorem Along.eq_ok (h : Along f x y) {a : α} (hx : x = .ok a) : y = .ok (f a) := by
  subst hx
  cases y with
  | error => cases h
  | ok b => exact congrArg Except.ok h

/-- If the first step fails, so does the second; how it fails may differ. -/
theorem Along.exists_eq_error (h : Along f x y) {e : ε} (hx : x = .error e) :
    ∃ e', y = .error e' := by
  subst hx
  cases y with
  | error e' => exact ⟨e', rfl⟩
  | ok => cases h

/-- Steps that go along are followed by steps that go along. -/
theorem Along.bind (h : Along f x y) {g : γ → δ} {k : α → Except ε γ} {k' : β → Except ε δ}
    (hk : ∀ a, Along g (k a) (k' (f a))) : Along g (x >>= k) (y >>= k') := by
  cases x with
  | error e =>
    obtain ⟨e', rfl⟩ := h.exists_eq_error rfl
    exact trivial
  | ok a =>
    rw [h.eq_ok rfl]
    exact hk a

/-- Steps that go along still do when their results are changed accordingly. -/
theorem Along.map (h : Along f x y) {g : γ → δ} {k : α → γ} {l : β → δ}
    (hk : ∀ a, l (f a) = g (k a)) : Along g (x.map k) (y.map l) := by
  cases x with
  | error e =>
    obtain ⟨e', rfl⟩ := h.exists_eq_error rfl
    exact trivial
  | ok a =>
    rw [h.eq_ok rfl]
    exact hk a

end Along

/-! ## Values -/

/-- Zero without its sign; every other number is kept. -/
def JsonNumber.unsigned : JsonNumber → JsonNumber
  | int value => int value
  | real value => real (if value.code = 0 then .zero false else value)

namespace Json

mutual

/-- The value with no sign at any zero. -/
def unsigned : Json → Json
  | num value => num value.unsigned
  | arr items => arr (unsignedItems items)
  | obj members => obj (unsignedMembers members)
  | value => value

/-- The values with no sign at any zero. -/
def unsignedItems : List Json → List Json
  | [] => []
  | item :: items => item.unsigned :: unsignedItems items

/-- The members with no sign at any zero. -/
def unsignedMembers : List (String × Json) → List (String × Json)
  | [] => []
  | (name, value) :: members => (name, value.unsigned) :: unsignedMembers members

end

/-- The values differ in the signs of zeros at most. -/
def Same (a b : Json) : Prop := a.unsigned = b.unsigned

instance (a b : Json) : Decidable (Same a b) := inferInstanceAs (Decidable (_ = _))

/-- Every value is the same as itself. -/
theorem Same.refl (value : Json) : Same value value := rfl

/-- Zero is the same with and without its sign, and one is not zero. -/
example : Same (.num (.real (.zero true))) (.num (.real (.zero false))) ∧
    ¬ Same (.num (.int 1)) (.num (.int 0)) := by
  decide

/-- The signs are taken from each item on its own. -/
@[simp] theorem unsignedItems_eq_map (items : List Json) :
    unsignedItems items = items.map unsigned := by
  induction items with
  | nil => rfl
  | cons item items ih => rw [unsignedItems, ih, List.map_cons]

/-- The signs are taken from the value of each member, and names are kept. -/
@[simp] theorem unsignedMembers_eq_map (members : List (String × Json)) :
    unsignedMembers members = members.map fun entry => (entry.1, entry.2.unsigned) := by
  induction members with
  | nil => rfl
  | cons entry members ih => rw [unsignedMembers, ih, List.map_cons]

/-- Without its signs an array is the array of its items without theirs. -/
theorem unsigned_arr (items : List Json) : (arr items).unsigned = arr (items.map unsigned) := by
  rw [unsigned, unsignedItems_eq_map]

/-- Without its signs an object has the same names, with values without theirs. -/
theorem unsigned_obj (members : List (String × Json)) :
    (obj members).unsigned = obj (members.map fun entry => (entry.1, entry.2.unsigned)) := by
  rw [unsigned, unsignedMembers_eq_map]

/-- The signs may be taken before or after a member is looked up. -/
theorem get?_unsigned (value : Json) (name : String) :
    value.unsigned.get? name = (value.get? name).map unsigned := by
  cases value with
  | obj members =>
    rw [unsigned_obj]
    exact Members.get?_map unsigned
  | null | bool _ | num _ | str _ | arr _ => rfl

/-- There is no sign in a string. -/
@[simp] theorem asString?_unsigned (value : Json) : value.unsigned.asString? = value.asString? := by
  cases value <;> rfl

/-! ## Reading positions -/

/-- A size is read with or without the signs: a zero with a sign is no size. -/
theorem along_toSize (value : Json) : Along id value.toSize value.unsigned.toSize := by
  cases value with
  | num value =>
    cases value with
    | int value =>
      have hkept : (num (.int value)).unsigned = num (.int value) := rfl
      rw [hkept]
      cases (num (.int value)).toSize <;> trivial
    | real value => trivial
  | null | bool _ | str _ | arr _ | obj _ => trivial

/-- So is a size that may be missing. -/
theorem along_toOptionalSize (value : Json) :
    Along id value.toOptionalSize value.unsigned.toOptionalSize := by
  have hsize := (along_toSize value).map (g := id) (k := some) (l := some) fun _ => rfl
  cases value with
  | null => rfl
  | bool _ | num _ | str _ | arr _ | obj _ => exact hsize

end Json

/-- The members with no sign at any zero. -/
abbrev Members.unsigned (members : Members Json) : Members Json :=
  members.map fun entry => (entry.1, entry.2.unsigned)

namespace Point

/-- The fields of a point are read with or without the signs. -/
theorem along_readMembers (members : List (String × Json)) (read : Draft) :
    Along id (readMembers read members) (readMembers read (Members.unsigned members)) := by
  induction members generalizing read with
  | nil => rfl
  | cons entry rest ih =>
    obtain ⟨name, value⟩ := entry
    rw [Members.unsigned, List.map_cons, readMembers, readMembers]
    split
    · exact value.along_toSize.bind fun _ => ih _
    split
    · exact value.along_toSize.bind fun _ => ih _
    split
    · exact value.along_toOptionalSize.bind fun _ => ih _
    · exact ih _

/-- So is a point, from an object or from an array. -/
theorem along_ofJson (value : Json) : Along id (ofJson value) (ofJson value.unsigned) := by
  cases value with
  | null | bool _ | num _ | str _ => trivial
  | obj members =>
    rw [Json.unsigned_obj, ofJson, ofJson]
    refine (along_readMembers members {}).bind fun read => ?_
    obtain ⟨line, column, offset⟩ := read
    cases line <;> cases column <;> trivial
  | arr items =>
    rw [Json.unsigned_arr]
    rcases items with _ | ⟨line, _ | ⟨column, _ | ⟨offset, rest⟩⟩⟩
    · trivial
    · refine line.along_toSize.bind (g := id) fun _ => ?_
      trivial
    · refine line.along_toSize.bind (g := id) fun _ => column.along_toSize.bind fun _ => ?_
      trivial
    · refine line.along_toSize.bind (g := id) fun _ => column.along_toSize.bind fun _ =>
        offset.along_toOptionalSize.bind fun _ => ?_
      cases rest <;> trivial

end Point

namespace Position

/-- The fields of a position are read with or without the signs. -/
theorem along_readMembers (members : List (String × Json)) (read : Draft) :
    Along id (readMembers read members) (readMembers read (Members.unsigned members)) := by
  induction members generalizing read with
  | nil => rfl
  | cons entry rest ih =>
    obtain ⟨name, value⟩ := entry
    rw [Members.unsigned, List.map_cons, readMembers, readMembers]
    split
    · exact (Point.along_ofJson value).bind fun _ => ih _
    split
    · exact (Point.along_ofJson value).bind fun _ => ih _
    · exact ih _

/-- So is a position, from an object or from an array. -/
theorem along_ofJson (value : Json) : Along id (ofJson value) (ofJson value.unsigned) := by
  cases value with
  | null | bool _ | num _ | str _ => trivial
  | obj members =>
    rw [Json.unsigned_obj, ofJson, ofJson]
    refine (along_readMembers members {}).bind fun read => ?_
    obtain ⟨start, stop⟩ := read
    cases start <;> cases stop <;> trivial
  | arr items =>
    rw [Json.unsigned_arr]
    rcases items with _ | ⟨start, _ | ⟨stop, rest⟩⟩
    · trivial
    · refine (Point.along_ofJson start).bind (g := id) fun _ => ?_
      trivial
    · refine (Point.along_ofJson start).bind (g := id) fun _ =>
        (Point.along_ofJson stop).bind fun _ => ?_
      cases rest <;> trivial

/-- So is a position that may be missing. -/
theorem along_ofOptionalJson (value : Json) :
    Along id (ofOptionalJson value) (ofOptionalJson value.unsigned) := by
  have hread := (along_ofJson value).map (g := id) (k := some) (l := some) fun _ => rfl
  cases value with
  | null => rfl
  | bool _ | num _ | str _ | arr _ | obj _ => exact hread

end Position

namespace Hast

/-! ## Properties -/

/-- The value of a property with no sign at any zero. -/
def PropertyValue.unsigned : PropertyValue → PropertyValue
  | number value => number value.unsigned
  | other value => other value.unsigned
  | value => value

/-- The properties with no sign at any zero. -/
def Properties.unsigned (properties : Properties) : Properties :=
  properties.map fun entry => (entry.1, entry.2.unsigned)

/-- A list of strings is one with or without the signs. -/
theorem strings?_map_unsigned (items : List Json) :
    strings? (items.map Json.unsigned) = strings? items := by
  induction items with
  | nil => rfl
  | cons item items ih =>
    cases item with
    | str value =>
      have hkept : (Json.str value).unsigned = .str value := rfl
      rw [List.map_cons, hkept, strings?, strings?, ih]
    | null | bool _ | num _ | arr _ | obj _ => rfl

/-- The value of a property is read in the same variant without the signs, and has none itself. -/
theorem PropertyValue.ofJson_unsigned (value : Json) :
    ofJson value.unsigned = (ofJson value).unsigned := by
  cases value with
  | arr items =>
    rw [Json.unsigned_arr, ofJson, ofJson, strings?_map_unsigned]
    cases strings? items with
    | some values => rfl
    | none =>
      dsimp only
      rw [unsigned, Json.unsigned_arr]
  | null | bool _ | num _ | str _ | obj _ => rfl

/-- The classes are no numbers. -/
theorem classNames_unsigned (properties : Properties) :
    classNames properties.unsigned = classNames properties := by
  rw [classNames, classNames, Properties.unsigned, Members.get?_map]
  cases Members.get? properties classProperty with
  | none => rfl
  | some value => cases value <;> rfl

/-! ## Nodes -/

namespace Node

mutual

/-- The tree with no sign at any zero. -/
def unsigned : Node → Node
  | root children position extra => root (unsignedAll children) position (Members.unsigned extra)
  | element tagName properties children position extra =>
    element tagName properties.unsigned (unsignedAll children) position (Members.unsigned extra)
  | text value position extra => text value position (Members.unsigned extra)
  | comment value position extra => comment value position (Members.unsigned extra)
  | raw value position extra => raw value position (Members.unsigned extra)
  | other value => other value.unsigned

/-- The trees with no sign at any zero. -/
def unsignedAll : List Node → List Node
  | [] => []
  | node :: nodes => node.unsigned :: unsignedAll nodes

end

/-- The trees differ in the signs of zeros at most. -/
def Same (a b : Node) : Prop := a.unsigned = b.unsigned

instance (a b : Node) : Decidable (Same a b) := inferInstanceAs (Decidable (_ = _))

/-- Every tree is the same as itself. -/
theorem Same.refl (node : Node) : Same node node := rfl

/-- The signs are taken from each tree on its own. -/
@[simp] theorem unsignedAll_eq_map (nodes : List Node) : unsignedAll nodes = nodes.map unsigned := by
  induction nodes with
  | nil => rfl
  | cons node nodes ih => rw [unsignedAll, ih, List.map_cons]

/-- The children of a tree without its signs are its children without theirs. -/
theorem childList_unsigned (node : Node) :
    node.unsigned.childList = node.childList.map unsigned := by
  cases node with
  | root | element => rw [unsigned, unsignedAll_eq_map]; rfl
  | text | comment | raw | other => rfl

/-- The kind of a node is not a matter of signs. -/
theorem kind?_unsigned (node : Node) : node.unsigned.kind? = node.kind? := by
  cases node <;> rfl

mutual

/-- Nor is the text of a tree. -/
theorem textContent_unsigned : (node : Node) → node.unsigned.textContent = node.textContent
  | element _ _ children _ _ => textContentAll_unsignedAll children
  | root .. | text .. | comment .. | raw .. | other _ => rfl

/-- Texts are no numbers. -/
theorem textContentAll_unsignedAll : (nodes : List Node) →
    textContentAll (unsignedAll nodes) = textContentAll nodes
  | [] => rfl
  | node :: nodes => by
    rw [unsignedAll, textContentAll, textContentAll, textContent_unsigned node,
      textContentAll_unsignedAll nodes]

end

/-! ## Reading nodes -/

/-- What has been read of a node, with no sign at any zero. -/
def Draft.unsigned (read : Draft) : Draft :=
  { read with
    properties := read.properties.unsigned
    children := unsignedAll read.children
    extra := Members.unsigned read.extra }

/-- A string is read with or without the signs. -/
theorem along_readString (value : Json) :
    Along id (readString value) (readString value.unsigned) := by
  cases value <;> trivial

/-- Properties are read without the signs as they were, with none in their values. -/
theorem along_readProperties (value : Json) :
    Along Properties.unsigned (readProperties value) (readProperties value.unsigned) := by
  cases value with
  | obj members =>
    rw [Json.unsigned_obj, readProperties, readProperties]
    refine .ok ?_
    rw [Properties.unsigned, List.map_map, List.map_map]
    refine List.map_congr_left fun entry _ => ?_
    exact congrArg (entry.1, ·) (PropertyValue.ofJson_unsigned entry.2)
  | null | bool _ | num _ | str _ | arr _ => trivial

/-- A member is read without the signs into what has been read, with none in that either. -/
theorem along_readMember (kind : Kind) (read : Draft) (name : String) (value : Json) :
    Along Draft.unsigned (readMember kind read name value)
      (readMember kind read.unsigned name value.unsigned) := by
  rw [readMember, readMember]
  split
  · exact (Position.along_ofOptionalJson value).bind fun _ => rfl
  split
  · exact (along_readString value).bind fun _ => rfl
  split
  · exact (along_readProperties value).bind fun _ => rfl
  split
  · exact (along_readString value).bind fun _ => rfl
  · rfl

/-- What has been read makes a node without the signs if it made one with them. -/
theorem along_ofDraft (kind : Kind) (read : Draft) :
    Along unsigned (ofDraft kind read) (ofDraft kind read.unsigned) := by
  have hextra : (Members.unsigned read.extra).reverse = Members.unsigned read.extra.reverse :=
    List.map_reverse.symm
  obtain ⟨tagName, properties, children, position, value, extra⟩ := read
  cases kind <;> cases tagName <;> cases value <;>
    simp only [ofDraft, Draft.unsigned, Along, unsigned, hextra]

/-- The tag of an object is a string, so it names the same kind. -/
theorem ofMembers?_unsigned (members : Members Json) :
    Kind.ofMembers? (Members.unsigned members) = Kind.ofMembers? members := by
  rw [Kind.ofMembers?, Kind.ofMembers?, Members.get?_map]
  cases Members.get? members "type" with
  | none => rfl
  | some value => rw [Option.map_some, Option.bind_some, Option.bind_some, Json.asString?_unsigned]

mutual

/-- **Without the signs of zeros the same is read, or nothing as before.** -/
theorem along_ofJson : (value : Json) → Along unsigned (ofJson value) (ofJson value.unsigned)
  | .obj members => by
    rw [Json.unsigned_obj, ofJson, ofJson, ofMembers?_unsigned]
    cases Kind.ofMembers? members with
    | none => exact .ok (congrArg other (Json.unsigned_obj members).symm)
    | some kind => exact (along_readMembers kind members {}).bind fun read => along_ofDraft kind read
  | .null | .bool _ | .num _ | .str _ => rfl
  | .arr items => by
    have hread (items : List Json) : ofJson (.arr items) = .ok (other (.arr items)) := by
      rw [ofJson]
      simp
    rw [Json.unsigned_arr, hread, hread]
    exact .ok (congrArg other (Json.unsigned_arr items).symm)

/-- The members of a node are read without the signs as they were. -/
theorem along_readMembers (kind : Kind) : (members : List (String × Json)) → (read : Draft) →
    Along Draft.unsigned (readMembers kind read members)
      (readMembers kind read.unsigned (Members.unsigned members))
  | [], _ => rfl
  | (name, value) :: rest, read => by
    rw [Members.unsigned, List.map_cons, readMembers.eq_def, readMembers.eq_def]
    dsimp only
    split
    · exact along_readMembers kind rest read
    split
    · cases value with
      | arr items =>
        rw [Json.unsigned_arr]
        exact (along_ofJsonAll items).bind fun _ => along_readMembers kind rest _
      | null | bool _ | num _ | str _ | obj _ => trivial
    · exact (along_readMember kind read name value).bind fun _ => along_readMembers kind rest _

/-- So are the items of a child list. -/
theorem along_ofJsonAll : (values : List Json) →
    Along unsignedAll (ofJsonAll values) (ofJsonAll (values.map Json.unsigned))
  | [] => rfl
  | value :: values => by
    rw [List.map_cons, ofJsonAll, ofJsonAll]
    exact (along_ofJson value).bind fun _ => (along_ofJsonAll values).bind fun _ => rfl

end

end Node

end Hast

end Hypermark
