import Hypermark.Json.Record
import Hypermark.Proofs.Json.ValueText

/-!
# How records are read

A record is read from any object that gives its fields under one of their names, in any order, each at
most once, with any members of other names in between (`readRecord_objectText`), and from any array that
gives its first fields in order (`readRecord_arrayText`).  An object that gives a field twice is never
read (`pairwise_of_readRecord`).

One member of an object is one step of the reader, whatever is written in it: either it fails, or it goes
on behind the member with the member's field set (`exists_of_readFields_member`).
-/

namespace Hypermark

/-- What a value is of. -/
def FieldValue.kind : FieldValue → FieldKind
  | flag _ => .flag
  | text _ => .text

namespace Json

/-! ## Values of fields -/

/-- The ways to write the value of a field. -/
inductive FieldText : FieldValue → List Char → Prop
  | yes : FieldText (.flag true) ['t', 'r', 'u', 'e']
  | no : FieldText (.flag false) ['f', 'a', 'l', 's', 'e']
  | text {s : String} {text : List Char} (h : StringText s text) :
    FieldText (.text s) ('"' :: (text ++ ['"']))

/-- What is written for a field is the text of a value. -/
theorem FieldText.valueText {value : FieldValue} {text : List Char} (h : FieldText value text) :
    ValueText text := by
  cases h with
  | yes => exact .true
  | no => exact .false
  | text h => exact .string h.literalText

/-- A flag is printed in one of the ways. -/
theorem fieldText_print_bool (b : Bool) : FieldText (.flag b) (Json.bool b).print.toList := by
  cases b with
  | true => exact .yes
  | false => exact .no

/-- So is a text. -/
theorem fieldText_print_str (s : String) : FieldText (.text s) (Json.str s).print.toList := by
  rw [print, toList_quote]
  exact .text (stringText_escape s)

/-- A field is read however its value is written. -/
theorem readField_of_fieldText {value : FieldValue} {text : List Char} (h : FieldText value text)
    {gap : List Char} (hgap : Blank gap) (rest : List Char) :
    readField value.kind (gap ++ (text ++ rest)) = .ok (value, rest) := by
  cases h with
  | yes | no =>
    rw [List.cons_append, readField.eq_def, skipBlanks_append_cons hgap (by decide)]
    rfl
  | text h =>
    have hread := readString_of_stringText h rest
    rw [List.cons_append, List.append_assoc, readField.eq_def,
      skipBlanks_append_cons hgap (by decide)]
    simp only [FieldValue.kind, List.singleton_append, hread]
    rfl

/-- The results of a step stay the same when its faults become those of a record. -/
theorem liftFault_eq_ok_iff {α : Type} {step : Except JsonFault α} {a : α} :
    liftFault step = .ok a ↔ step = .ok a := mapError_eq_ok_iff

/-- A value that is not expected is not read. -/
theorem unexpected_ne_ok {α : Type} (expected : Expected) (text : List Char) (a : α) :
    unexpected expected text ≠ .ok a := by
  intro h
  rw [unexpected.eq_def] at h
  dsimp only at h
  split at h
  case h_6 | h_7 | h_9 => cases h
  case h_8 =>
    split at h
    · obtain ⟨_, -, h⟩ := bind_eq_ok_iff.mp h
      cases h
    · cases h
  all_goals
    obtain ⟨_, -, h⟩ := bind_eq_ok_iff.mp h
    cases h

/-- The first characters of the values that are expected of fields. -/
theorem readField_eq_unexpected {text cs : List Char} {c : Char} (h : skipBlanks text = c :: cs)
    (ht : c ≠ 't') (hf : c ≠ 'f') (hquote : c ≠ '"') (kind : FieldKind) :
    ∃ expected, readField kind text = unexpected expected (c :: cs) := by
  rw [readField.eq_def, h]
  cases kind with
  | flag =>
    refine ⟨.boolean, ?_⟩
    split <;> simp_all
  | text =>
    refine ⟨.string, ?_⟩
    split <;> simp_all

/-- A field that is read is read up to the end of its value, whatever the value is. -/
theorem rest_of_readField {text : List Char} (h : ValueText text) {gap rest : List Char}
    (hgap : Blank gap) {kind : FieldKind} {value : FieldValue} {behind : List Char}
    (hread : readField kind (gap ++ (text ++ rest)) = .ok (value, behind)) : behind = rest := by
  -- No field is read from a value that begins in another way than a flag or a string.
  have hother {c : Char} {cs : List Char} (htext : text ++ rest = c :: cs) (hblank : isBlank c = false)
      (ht : c ≠ 't') (hf : c ≠ 'f') (hquote : c ≠ '"') : behind = rest := by
    have hskip : skipBlanks (gap ++ (text ++ rest)) = c :: cs := by
      rw [htext, skipBlanks_append_cons hgap hblank]
    obtain ⟨expected, hunexpected⟩ := readField_eq_unexpected hskip ht hf hquote kind
    exact absurd (hunexpected.symm.trans hread) (unexpected_ne_ok _ _ _)
  cases h with
  | null | array | object =>
    exact hother rfl (by decide) (by decide) (by decide) (by decide)
  | number h =>
    obtain ⟨c, cs, rfl, hc | rfl⟩ := h.head
    · have hne {d : Char} (hd : d.isDigit = false) : c ≠ d := by
        rintro rfl
        rw [hc] at hd
        cases hd
      exact hother rfl (isBlank_of_isDigit hc) (hne (by decide)) (hne (by decide)) (hne (by decide))
    · exact hother rfl (by decide) (by decide) (by decide) (by decide)
  | true | false =>
    rw [List.cons_append, readField.eq_def, skipBlanks_append_cons hgap (by decide)] at hread
    cases kind with
    | flag =>
      cases hread
      rfl
    | text => exact absurd hread (unexpected_ne_ok _ _ _)
  | string h =>
    rw [List.cons_append, readField.eq_def, skipBlanks_append_cons hgap (by decide)] at hread
    cases kind with
    | flag => exact absurd hread (unexpected_ne_ok _ _ _)
    | text =>
      obtain ⟨⟨s, between⟩, hstring, hread⟩ := bind_eq_ok_iff.mp hread
      rw [List.append_assoc, List.singleton_append] at hstring
      cases hread
      exact rest_of_readString h (liftFault_eq_ok_iff.mp hstring)

/-! ## Members -/

/-- What follows the first part of a bracket: the other parts, and its end. -/
def partsEnd (bracket : Bracket) (texts : List (List Char)) (rest : List Char) : List Char :=
  commaSeparated false texts ++ bracket.close :: rest

/-- A value may end in front of the other parts and of the end. -/
theorem ends_partsEnd (bracket : Bracket) (texts : List (List Char)) (rest : List Char) :
    Ends (partsEnd bracket texts rest) := ends_commaSeparated texts rest

section

variable {fields : List Field} {first : Bool} {read : List (Option FieldValue)}
  {gap rest : List Char} {member : MemberParts} {texts : List (List Char)} {fuel : Nat}

/-- The reader gets to the name of the next member. -/
theorem readNameStart_member (hgap : Blank gap) (hbefore : Blank member.before) (first : Bool)
    (texts : List (List Char)) (rest : List Char) :
    readNameStart first (gap ++ (commaSeparated first (member.text :: texts) ++ '\x7d' :: rest))
      = .ok (some (member.name ++ '"' ::
          (member.between ++ ':' :: (member.item.text ++ partsEnd .object texts rest)))) := by
  have htext : member.text ++ partsEnd .object texts rest
      = member.before ++ '"' :: (member.name ++ '"' ::
        (member.between ++ ':' :: (member.item.text ++ partsEnd .object texts rest))) := by
    simp [MemberParts.text]
  cases first with
  | true =>
    have hsplit : gap ++ (commaSeparated true (member.text :: texts) ++ '\x7d' :: rest)
        = (gap ++ member.before) ++ '"' :: (member.name ++ '"' ::
          (member.between ++ ':' :: (member.item.text ++ partsEnd .object texts rest))) := by
      rw [List.append_assoc, ← htext]
      simp [commaSeparated, partsEnd, Bracket.close]
    have hblank : Blank (gap ++ member.before) := List.forall_mem_append.mpr ⟨hgap, hbefore⟩
    rw [readNameStart, hsplit, skipBlanks_append_cons hblank (by decide)]
    rfl
  | false =>
    have hsplit : gap ++ (commaSeparated false (member.text :: texts) ++ '\x7d' :: rest)
        = gap ++ ',' :: (member.text ++ partsEnd .object texts rest) := by
      simp [commaSeparated, partsEnd, Bracket.close]
    have hquote (cs : List Char) : skipBlanks (member.before ++ '"' :: cs) = '"' :: cs :=
      skipBlanks_append_cons hbefore (by decide) cs
    rw [readNameStart, hsplit, skipBlanks_append_cons hgap (by decide), htext]
    simp [hquote]

/-- There is no other name in front of the end of the object. -/
theorem readNameStart_end (hgap : Blank gap) (first : Bool) (rest : List Char) :
    readNameStart first (gap ++ '\x7d' :: rest) = .ok none := by
  rw [readNameStart, skipBlanks_append_cons hgap (by decide)]
  rfl

/-- A member of another name is skipped. -/
theorem readFields_other (hgap : Blank gap) (hspaced : member.Spaced) {key : String}
    (hname : StringText key member.name) (hindex : fieldIndex? fields key = none)
    (hvalue : ValueText member.item.value) :
    readFields fields (fuel + 1) first read
        (gap ++ (commaSeparated first (member.text :: texts) ++ '\x7d' :: rest))
      = readFields fields fuel false read (member.item.after ++ partsEnd .object texts rest) := by
  obtain ⟨hbefore, hbetween, hitem⟩ := hspaced
  have hends := ends_append hitem.2 (ends_partsEnd .object texts rest)
  have hskip := skipValue_of_valueText hvalue hitem.1 hends
  rw [readFields, readNameStart_member hgap hbefore]
  simp only [liftFault, Except.mapError, bind, Except.bind, readString_of_stringText hname, hindex,
    readColon_append hbetween]
  rw [ItemParts.text, List.append_assoc, List.append_assoc, hskip]

/-- A member with the name of a field that is still open sets the field. -/
theorem readFields_field (hgap : Blank gap) (hspaced : member.Spaced) {key : String}
    (hname : StringText key member.name) {i : Nat} (hindex : fieldIndex? fields key = some i)
    {field : Field} (hfield : fields[i]? = some field) (hopen : read[i]? = some none)
    {value : FieldValue} (hkind : field.kind = value.kind)
    (hvalue : FieldText value member.item.value) :
    readFields fields (fuel + 1) first read
        (gap ++ (commaSeparated first (member.text :: texts) ++ '\x7d' :: rest))
      = readFields fields fuel false (read.set i (some value))
          (member.item.after ++ partsEnd .object texts rest) := by
  obtain ⟨hbefore, hbetween, hitem⟩ := hspaced
  have hread := readField_of_fieldText hvalue hitem.1
    (member.item.after ++ partsEnd .object texts rest)
  rw [readFields, readNameStart_member hgap hbefore]
  simp only [liftFault, Except.mapError, bind, Except.bind, readString_of_stringText hname, hindex,
    hfield, hopen, readColon_append hbetween]
  rw [ItemParts.text, List.append_assoc, List.append_assoc, hkind, hread]

/-- The member has the name of a field. -/
def Names (fields : List Field) (member : MemberParts) (i : Nat) : Prop :=
  ∃ key, StringText key member.name ∧ fieldIndex? fields key = some i

/-- The field has been read. -/
def IsSet (read : List (Option FieldValue)) (i : Nat) : Prop := ∃ value, read[i]? = some (some value)

/-- A field that is set has been read. -/
theorem isSet_set_self {i : Nat} (h : i < read.length) (value : FieldValue) :
    IsSet (read.set i (some value)) i := ⟨value, List.getElem?_set_self h⟩

/-- What has been read stays read. -/
theorem IsSet.set {i j : Nat} (h : IsSet read j) (value : FieldValue) :
    IsSet (read.set i (some value)) j := by
  by_cases hij : i = j
  · subst hij
    obtain ⟨_, hread⟩ := h
    exact isSet_set_self (List.getElem?_eq_some_iff.mp hread).1 value
  · rwa [IsSet, List.getElem?_set_ne hij]

/-- The name of a member is what the reader takes it for. -/
theorem Names.fieldIndex?_eq {i : Nat} (h : Names fields member i) {key : String}
    {behind : List Char} (hread : readString (member.name ++ '"' :: rest) = .ok (key, behind)) :
    fieldIndex? fields key = some i := by
  obtain ⟨key', hkey', hindex⟩ := h
  rw [readString_of_stringText hkey'] at hread
  cases hread
  exact hindex

/-- What is found is one of the fields. -/
theorem fieldIndex?_lt {key : String} {i : Nat} (h : fieldIndex? fields key = some i) :
    i < fields.length :=
  (List.findIdx?_eq_some_iff_findIdx_eq.mp h).1

/-- Whatever a member is, if the object is read then its field was open before it and is not any more,
and the reader goes on behind it. -/
theorem exists_of_readFields_member (hgap : Blank gap) (hspaced : member.Spaced)
    (hname : LiteralText member.name) (hvalue : ValueText member.item.value)
    (hlength : read.length = fields.length) {result : List (Option FieldValue) × List Char}
    (h : readFields fields (fuel + 1) first read
        (gap ++ (commaSeparated first (member.text :: texts) ++ '\x7d' :: rest)) = .ok result) :
    ∃ next : List (Option FieldValue), next.length = fields.length ∧
      (∀ i, IsSet read i → IsSet next i) ∧
      (∀ i, Names fields member i → ¬ IsSet read i ∧ IsSet next i) ∧
      readFields fields fuel false next (member.item.after ++ partsEnd .object texts rest)
        = .ok result := by
  obtain ⟨hbefore, hbetween, hitem⟩ := hspaced
  have hends := ends_append hitem.2 (ends_partsEnd .object texts rest)
  rw [readFields, readNameStart_member hgap hbefore] at h
  obtain ⟨_, hstart, h⟩ := bind_eq_ok_iff.mp h
  cases hstart
  obtain ⟨⟨key, behind⟩, hstring, h⟩ := bind_eq_ok_iff.mp h
  have hstring := liftFault_eq_ok_iff.mp hstring
  obtain rfl := rest_of_readString hname hstring
  dsimp only at h
  split at h
  · next hindex =>
    -- A member of another name is skipped, and sets nothing.
    rw [readColon_append hbetween, ItemParts.text, List.append_assoc, List.append_assoc] at h
    have hskip := skipValue_of_valueText hvalue hitem.1 hends
    simp only [liftFault, Except.mapError, bind, Except.bind, hskip] at h
    refine ⟨read, hlength, fun _ => id, fun i hnames => ?_, h⟩
    rw [hnames.fieldIndex?_eq hstring] at hindex
    cases hindex
  · next i hindex =>
    -- A field that has been read already would be refused here.
    have hi := fieldIndex?_lt hindex
    have hfield : fields[i]? = some fields[i] := List.getElem?_eq_getElem hi
    rw [hfield] at h
    split at h
    · cases h
    · next hopen =>
      obtain ⟨colon, hcolon, h⟩ := bind_eq_ok_iff.mp h
      obtain ⟨⟨value, behind⟩, hread, h⟩ := bind_eq_ok_iff.mp h
      rw [readColon_append hbetween] at hcolon
      cases hcolon
      rw [ItemParts.text, List.append_assoc, List.append_assoc] at hread
      obtain rfl := rest_of_readField hvalue hitem.1 hread
      refine ⟨read.set i (some value), by rw [List.length_set, hlength], fun j hj => hj.set value,
        fun j hnames => ?_, h⟩
      obtain rfl := Option.some.inj (hindex.symm.trans (hnames.fieldIndex?_eq hstring))
      refine ⟨?_, isSet_set_self (hlength ▸ hi) value⟩
      rintro ⟨value, hvalue⟩
      exact hopen value hvalue
    · contradiction

/-- At the end of the object the fields are those that have been read. -/
theorem readFields_end (hgap : Blank gap) :
    readFields fields (fuel + 1) first read (gap ++ '\x7d' :: rest) = .ok (read, rest) := by
  rw [readFields, readNameStart_end hgap]
  simp only [liftFault, Except.mapError, bind, Except.bind]
  rw [skipBlanks_append_cons hgap (by decide), List.drop_one, List.tail_cons]

/-- **What is read gives no field twice**, and no field that was given before. -/
theorem pairwise_of_readFields {members : List MemberParts} (hgap : Blank gap)
    (hspaced : ∀ member ∈ members, member.Spaced)
    (hnames : ∀ member ∈ members, LiteralText member.name)
    (hvalues : ∀ member ∈ members, ValueText member.item.value)
    (hlength : read.length = fields.length) {result : List (Option FieldValue) × List Char}
    (h : readFields fields fuel first read
        (gap ++ (commaSeparated first (members.map MemberParts.text) ++ '\x7d' :: rest)) = .ok result) :
    (∀ member ∈ members, ∀ i, Names fields member i → ¬ IsSet read i) ∧
    members.Pairwise fun member later => ∀ i, Names fields member i → ¬ Names fields later i := by
  induction members generalizing fuel first read gap with
  | nil => exact ⟨List.forall_mem_nil _, .nil⟩
  | cons member members ih =>
    cases fuel with
    | zero => cases h
    | succ fuel =>
      obtain ⟨hspaced, hspaceds⟩ := List.forall_mem_cons.mp hspaced
      obtain ⟨hname, hnames⟩ := List.forall_mem_cons.mp hnames
      obtain ⟨hvalue, hvalues⟩ := List.forall_mem_cons.mp hvalues
      obtain ⟨next, hlength', hkeep, hset, hnext⟩ :=
        exists_of_readFields_member hgap hspaced hname hvalue hlength h
      obtain ⟨hopen, hpairwise⟩ := ih hspaced.2.2.2 hspaceds hnames hvalues hlength' hnext
      refine ⟨List.forall_mem_cons.mpr ⟨fun i hi => (hset i hi).1, fun later hlater i hi hread => ?_⟩,
        List.pairwise_cons.mpr ⟨fun later hlater i hi hi' => ?_, hpairwise⟩⟩
      · exact hopen later hlater i hi (hkeep i hread)
      · exact hopen later hlater i hi' (hset i hi).2

/-- The values of the fields that are given under one of the names. -/
def given (fields : List Field) (keys : List String) (values : List FieldValue) :
    List (Option FieldValue) :=
  values.mapIdx fun i value =>
    if ∃ key ∈ keys, fieldIndex? fields key = some i then some value else none

variable {values : List FieldValue} {seen : List String} {key : String}

/-- Without names nothing is given. -/
theorem given_nil (h : fields.length = values.length) :
    given fields [] values = fields.map fun _ => none := by
  refine List.ext_getElem (by simp [given, h]) fun i _ _ => ?_
  simp [given]

/-- A name that no field has gives nothing. -/
theorem given_append_of_none (h : fieldIndex? fields key = none) :
    given fields (seen ++ [key]) values = given fields seen values := by
  refine List.ext_getElem (by simp [given]) fun i _ _ => ?_
  simp [given, List.mem_append, or_and_right, exists_or, h]

/-- The name of a field gives its value. -/
theorem given_append_of_some {i : Nat} (h : fieldIndex? fields key = some i) {value : FieldValue}
    (hvalue : values[i]? = some value) :
    given fields (seen ++ [key]) values = (given fields seen values).set i (some value) := by
  refine List.ext_getElem (by simp [given]) fun j hj _ => ?_
  rw [List.getElem_set]
  split
  · next hij =>
    subst hij
    obtain ⟨hi, heq⟩ := List.getElem?_eq_some_iff.mp hvalue
    simp [given, h, heq]
  · next hij =>
    simp [given, List.mem_append, or_and_right, exists_or, h, hij]

/-- The two names are not of the same field. -/
def Apart (fields : List Field) (key later : String) : Prop :=
  ∀ i, fieldIndex? fields key = some i → fieldIndex? fields later ≠ some i

/-- The member gives a field its value, or has the name of no field. -/
structure Says (fields : List Field) (values : List FieldValue) (key : String)
    (member : MemberParts) : Prop where
  spaced : member.Spaced
  name : StringText key member.name
  field (i : Nat) (h : fieldIndex? fields key = some i) :
    ∃ value, values[i]? = some value ∧ FieldText value member.item.value
  other (h : fieldIndex? fields key = none) : ValueText member.item.value

/-- A value is of the kind of its field. -/
theorem exists_field_of_value (hkinds : fields.map Field.kind = values.map FieldValue.kind) {i : Nat}
    {value : FieldValue} (h : values[i]? = some value) :
    ∃ field, fields[i]? = some field ∧ field.kind = value.kind := by
  have hkind : (fields.map Field.kind)[i]? = some value.kind := by
    rw [hkinds, List.getElem?_map, h, Option.map_some]
  rw [List.getElem?_map, Option.map_eq_some_iff] at hkind
  exact hkind

/-- **The members of an object give the fields their values**, in whatever order they come. -/
theorem readFields_members (hkinds : fields.map Field.kind = values.map FieldValue.kind)
    {members : List (String × MemberParts)}
    (h : ∀ entry ∈ members, Says fields values entry.1 entry.2)
    (hapart : (seen ++ members.map Prod.fst).Pairwise (Apart fields)) (hgap : Blank gap)
    (hfuel : members.length < fuel) :
    readFields fields fuel first (given fields seen values)
        (gap ++ (commaSeparated first (members.map fun entry => entry.2.text) ++ '\x7d' :: rest))
      = .ok (given fields (seen ++ members.map Prod.fst) values, rest) := by
  induction members generalizing fuel first seen gap with
  | nil =>
    obtain ⟨fuel, rfl⟩ : ∃ n, fuel = n + 1 := ⟨fuel - 1, by omega⟩
    rw [List.map_nil, List.map_nil, List.append_nil]
    exact readFields_end hgap
  | cons entry members ih =>
    obtain ⟨key, member⟩ := entry
    obtain ⟨hmember, hothers⟩ := List.forall_mem_cons.mp h
    rw [List.length_cons] at hfuel
    obtain ⟨fuel, rfl⟩ : ∃ n, fuel = n + 1 := ⟨fuel - 1, by omega⟩
    have hseen : seen ++ ((key, member) :: members).map Prod.fst
        = (seen ++ [key]) ++ members.map Prod.fst := by simp
    rw [hseen] at hapart ⊢
    have hrest : readFields fields fuel false (given fields (seen ++ [key]) values)
        (member.item.after ++ partsEnd .object (members.map fun entry => entry.2.text) rest)
        = .ok (given fields ((seen ++ [key]) ++ members.map Prod.fst) values, rest) :=
      ih hothers hapart hmember.spaced.2.2.2 (by omega)
    rw [List.map_cons]
    cases hindex : fieldIndex? fields key with
    | none =>
      rw [given_append_of_none hindex] at hrest
      rw [readFields_other hgap hmember.spaced hmember.name hindex (hmember.other hindex), hrest]
    | some i =>
      obtain ⟨value, hvalue, htext⟩ := hmember.field i hindex
      obtain ⟨field, hfield, hkind⟩ := exists_field_of_value hkinds hvalue
      -- The field is still open, since no name before is one of its names.
      have hopen : (given fields seen values)[i]? = some none := by
        have hnone : ¬ ∃ key' ∈ seen, fieldIndex? fields key' = some i := by
          rintro ⟨key', hkey', hindex'⟩
          obtain ⟨hpairwise, -, -⟩ := List.pairwise_append.mp hapart
          obtain ⟨-, -, hcross⟩ := List.pairwise_append.mp hpairwise
          exact hcross key' hkey' key (List.mem_singleton_self key) i hindex' hindex
        simp [given, hvalue, hnone]
      rw [given_append_of_some hindex hvalue] at hrest
      rw [readFields_field hgap hmember.spaced hmember.name hindex hfield hopen hkind htext, hrest]

end

/-! ## Items -/

/-- The reader gets to the next item. -/
theorem readItemStart_item {gap : List Char} (hgap : Blank gap) {item : ItemParts}
    (hspaced : item.Spaced) (hvalue : ValueText item.value) (first : Bool) (texts : List (List Char))
    (rest : List Char) :
    readItemStart first (gap ++ (commaSeparated first (item.text :: texts) ++ ']' :: rest))
      = .ok (some (item.value ++ (item.after ++ partsEnd .array texts rest))) := by
  obtain ⟨c, cs, hopens, hblank, hc⟩ := hvalue.opens (item.after ++ partsEnd .array texts rest)
  have htext : item.text ++ partsEnd .array texts rest = item.before ++ c :: cs := by
    rw [ItemParts.text, List.append_assoc, List.append_assoc, hopens]
  rw [hopens]
  cases first with
  | true =>
    have hsplit : gap ++ (commaSeparated true (item.text :: texts) ++ ']' :: rest)
        = (gap ++ item.before) ++ c :: cs := by
      rw [List.append_assoc, ← htext]
      simp [commaSeparated, partsEnd, Bracket.close]
    have hgaps : Blank (gap ++ item.before) := List.forall_mem_append.mpr ⟨hgap, hspaced.1⟩
    rw [readItemStart, hsplit, skipBlanks_append_cons hgaps hblank]
    simp
  | false =>
    have hsplit : gap ++ (commaSeparated false (item.text :: texts) ++ ']' :: rest)
        = gap ++ ',' :: (item.text ++ partsEnd .array texts rest) := by
      simp [commaSeparated, partsEnd, Bracket.close]
    rw [readItemStart, hsplit, skipBlanks_append_cons hgap (by decide), htext]
    simp [skipBlanks_append_cons hspaced.1 hblank, hc]

/-- There is no other item in front of the end of the array. -/
theorem readItemStart_end {gap : List Char} (hgap : Blank gap) (first : Bool) (rest : List Char) :
    readItemStart first (gap ++ ']' :: rest) = .ok none := by
  rw [readItemStart, skipBlanks_append_cons hgap (by decide)]
  rfl

/-- **The items of an array give the first fields their values.** -/
theorem readItems_items {fields others : List Field} {values : List FieldValue}
    (hkinds : fields.map Field.kind = values.map FieldValue.kind) {items : List ItemParts}
    (h : List.Forall₂ (fun value item => item.Spaced ∧ FieldText value item.value) values items)
    {first : Bool} {gap : List Char} (hgap : Blank gap) (rest : List Char) :
    readItems first (fields ++ others)
        (gap ++ (commaSeparated first (items.map ItemParts.text) ++ ']' :: rest))
      = .ok (values.map some ++ others.map fun _ => none, rest) := by
  -- The fields get fewer with the items, so the induction is on the pairs of values and items.
  induction h generalizing fields first gap with
  | nil =>
    obtain rfl := List.map_eq_nil_iff.mp hkinds
    rw [List.map_nil, List.nil_append, List.map_nil, List.nil_append, commaSeparated,
      List.nil_append]
    cases others with
    | nil =>
      rw [readItems, readArrayEnd, skipBlanks_append_cons hgap (by decide)]
      rfl
    | cons other others =>
      rw [readItems, readItemStart_end hgap]
      simp only [liftFault, Except.mapError, bind, Except.bind]
      rw [skipBlanks_append_cons hgap (by decide), List.drop_one, List.tail_cons, List.map_cons]
  | @cons value item values items hitem _ ih =>
    obtain ⟨field, fields, rfl, hkind, hkinds⟩ := List.map_eq_cons_iff.mp hkinds
    obtain ⟨hspaced, htext⟩ := hitem
    have hread := readField_of_fieldText htext blank_nil
      (item.after ++ partsEnd .array (items.map ItemParts.text) rest)
    have hrest : readItems false (fields ++ others)
        (item.after ++ partsEnd .array (items.map ItemParts.text) rest)
        = .ok (values.map some ++ others.map fun _ => none, rest) := ih hkinds hspaced.2
    rw [List.cons_append, readItems, List.map_cons,
      readItemStart_item hgap hspaced htext.valueText]
    simp only [liftFault, Except.mapError, bind, Except.bind]
    rw [hkind, ← List.nil_append (item.value ++ _), hread]
    dsimp only
    rw [hrest]
    rfl

/-! ## Whole texts -/

/-- Only blanks may follow the text. -/
theorem readEnd_blank {after : List Char} (h : Blank after) : readEnd after = .ok () := by
  have hskip := skipBlanks_append h []
  rw [List.append_nil] at hskip
  rw [readEnd, hskip]
  rfl

/-- There are at least as many characters as texts, if no text is empty. -/
theorem length_le_length_commaSeparated {texts : List (List Char)} (h : ∀ text ∈ texts, text ≠ [])
    (first : Bool) : texts.length ≤ (commaSeparated first texts).length := by
  induction texts generalizing first with
  | nil => exact Nat.le_refl 0
  | cons text texts ih =>
    obtain ⟨hne, hothers⟩ := List.forall_mem_cons.mp h
    have hpos := List.length_pos_iff.mpr hne
    have hle := ih hothers false
    simp only [commaSeparated, List.length_cons, List.length_append]
    omega

/-- The text of a member is not empty. -/
theorem MemberParts.text_ne_nil (member : MemberParts) : member.text ≠ [] := by
  simp [MemberParts.text]

section

variable {name : String} {fields : List Field} {values : List FieldValue}
  {before gap after : List Char}

/-- The text of an object with what stands around it, bracket by bracket. -/
theorem objectText_append (members : List MemberParts) :
    before ++ (objectText gap members ++ after) = before ++ '\x7b' ::
      (gap ++ (commaSeparated true (members.map MemberParts.text) ++ '\x7d' :: after)) := by
  simp [objectText]

/-- **A record is read from any object that gives its fields**, each at most once. -/
theorem readRecord_objectText (hkinds : fields.map Field.kind = values.map FieldValue.kind)
    (hbefore : Blank before) (hgap : Blank gap) (hafter : Blank after)
    {members : List (String × MemberParts)}
    (h : ∀ entry ∈ members, Says fields values entry.1 entry.2)
    (hapart : (members.map Prod.fst).Pairwise (Apart fields)) :
    readRecord name fields (before ++ (objectText gap (members.map Prod.snd) ++ after))
      = .ok (given fields (members.map Prod.fst) values) := by
  have hfuel : members.length < (gap ++ (commaSeparated true
      (members.map fun entry => entry.2.text) ++ '\x7d' :: after)).length + 1 := by
    have hne : ∀ text ∈ members.map fun entry => entry.2.text, text ≠ [] := by
      intro text htext
      obtain ⟨entry, -, rfl⟩ := List.mem_map.mp htext
      exact entry.2.text_ne_nil
    have hle := length_le_length_commaSeparated hne true
    rw [List.length_map] at hle
    simp only [List.length_append]
    omega
  have hlength : fields.length = values.length := by
    simpa using congrArg List.length hkinds
  have hread := @readFields_members fields true gap after _ values [] hkinds members h hapart hgap hfuel
  rw [given_nil hlength] at hread
  rw [objectText_append, readRecord, skipBlanks_append_cons hbefore (by decide), List.map_map]
  simp only [Function.comp_def, bind, Except.bind, hread, readEnd_blank hafter]
  rfl

/-- **A record is read from any array that gives its first fields in order.** -/
theorem readRecord_arrayText {others : List Field}
    (hkinds : fields.map Field.kind = values.map FieldValue.kind)
    (hbefore : Blank before) (hgap : Blank gap) (hafter : Blank after) {items : List ItemParts}
    (h : List.Forall₂ (fun value item => item.Spaced ∧ FieldText value item.value) values items) :
    readRecord name (fields ++ others) (before ++ (arrayText gap items ++ after))
      = .ok (values.map some ++ others.map fun _ => none) := by
  have htext : before ++ (arrayText gap items ++ after)
      = before ++ '[' :: (gap ++ (commaSeparated true (items.map ItemParts.text) ++ ']' :: after)) := by
    simp [arrayText]
  have hread := @readItems_items fields others values hkinds items h true gap hgap after
  rw [htext, readRecord, skipBlanks_append_cons hbefore (by decide)]
  simp only [bind, Except.bind, hread, readEnd_blank hafter]
  rfl

/-- **An object that is read gives no field twice.** -/
theorem pairwise_of_readRecord {members : List MemberParts} (hbefore : Blank before)
    (hgap : Blank gap) (hspaced : ∀ member ∈ members, member.Spaced)
    (hnames : ∀ member ∈ members, LiteralText member.name)
    (hvalues : ∀ member ∈ members, ValueText member.item.value) {result : List (Option FieldValue)}
    (h : readRecord name fields (before ++ (objectText gap members ++ after)) = .ok result) :
    members.Pairwise fun member later => ∀ i, Names fields member i → ¬ Names fields later i := by
  rw [objectText_append, readRecord, skipBlanks_append_cons hbefore (by decide)] at h
  obtain ⟨result', hread, -⟩ := bind_eq_ok_iff.mp h
  exact (pairwise_of_readFields hgap hspaced hnames hvalues (List.length_map _) hread).2

end

end Json

end Hypermark
