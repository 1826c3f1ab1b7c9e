import Hypermark.Proofs.Html.Token
import Hypermark.Proofs.Members

/-!
# Names of attributes

The name of an attribute has no capital letters, and a name without capital letters is left as it is
(`attributeName_of_isSmall`), so an attribute keeps its name when it is taken for a property.

A property of the author's own begins with `data` and a capital letter.  Each capital letter behind
`data` becomes a hyphen and its small letter, which can be undone (`dataProperty?`).  A property
without hyphens gets a name that begins with `data-` in no other way (`Naming.dataProperty?_eq`), so
no two such properties share an attribute.
-/

namespace Hypermark.Hast

/-! ## Letters -/

/-- There is no capital ASCII letter in the name. -/
def IsSmall (name : String) : Prop := ∀ c ∈ name.toList, c.isUpper = false

instance (name : String) : Decidable (IsSmall name) :=
  List.decidableBAll (fun c : Char => c.isUpper = false) name.toList

/-- The capital letters of the conversion are those of the library. -/
theorem isCapital_eq_isUpper (c : Char) : isCapital c = c.isUpper := by
  show ('A' ≤ c && c ≤ 'Z') = decide ('A' ≤ c ∧ c ≤ 'Z')
  rw [Bool.decide_and]

/-- The capital letters are the 26 characters from `A` on. -/
theorem exists_of_isUpper {c : Char} (h : c.isUpper = true) :
    ∃ n < 26, c = Char.ofNat (65 + n) := by
  have hbounds : 65 ≤ c.toNat ∧ c.toNat ≤ 90 := of_decide_eq_true h
  refine ⟨c.toNat - 65, by omega, ?_⟩
  rw [Nat.add_sub_cancel' hbounds.1, Char.ofNat_toNat]

/-- The small letter of a capital one is no capital and no hyphen, and leads back to it. -/
theorem lowerChar_of_isUpper {c : Char} (h : c.isUpper = true) :
    (lowerChar c).isUpper = false ∧ lowerChar c ≠ '-' ∧ (lowerChar c).toUpper = c := by
  have hletters : ∀ n < 26, (lowerChar (Char.ofNat (65 + n))).isUpper = false ∧
      lowerChar (Char.ofNat (65 + n)) ≠ '-' ∧
      (lowerChar (Char.ofNat (65 + n))).toUpper = Char.ofNat (65 + n) := by
    decide
  obtain ⟨n, hn, rfl⟩ := exists_of_isUpper h
  exact hletters n hn

/-- Every other character stays as it is. -/
theorem lowerChar_of_not_isUpper {c : Char} (h : c.isUpper = false) : lowerChar c = c := by
  rw [lowerChar, isCapital_eq_isUpper, if_neg (by simp [h])]

/-- A character that is made small is no capital letter. -/
theorem isUpper_lowerChar (c : Char) : (lowerChar c).isUpper = false := by
  cases hupper : c.isUpper with
  | true => exact (lowerChar_of_isUpper hupper).1
  | false => rw [lowerChar_of_not_isUpper hupper, hupper]

/-- A hyphen is only made of a hyphen. -/
theorem eq_hyphen_of_lowerChar {c : Char} (h : lowerChar c = '-') : c = '-' := by
  cases hupper : c.isUpper with
  | true => exact absurd h (lowerChar_of_isUpper hupper).2.1
  | false => rwa [lowerChar_of_not_isUpper hupper] at h

/-- What follows a word in a name begins with a capital letter. -/
theorem afterWord?_eq_some_iff {start name rest : List Char} :
    afterWord? start name = some rest ↔
      name = start ++ rest ∧ rest.head?.any Char.isUpper = true := by
  fun_induction afterWord? start name with
  | case1 c cs hcapital =>
    rw [isCapital_eq_isUpper] at hcapital
    simp only [Option.some.injEq, List.nil_append]
    constructor
    · rintro rfl
      exact ⟨rfl, hcapital⟩
    · rintro ⟨rfl, -⟩
      rfl
  | case2 c cs hcapital =>
    rw [isCapital_eq_isUpper] at hcapital
    simp only [List.nil_append, reduceCtorEq, false_iff, not_and]
    rintro rfl
    exact hcapital
  | case3 => simp +contextual
  | case4 s ss => simp
  | case5 s ss cs ih => simp [ih]
  | case6 s ss c cs hne => simp [Ne.symm hne]

/-! ## The ways to a name -/

/-- How a property gets the name of its attribute: `data` and `aria` are words in front of a capital
letter, and all that is neither there nor special is made small. -/
inductive Naming (property name : String) : Prop
  | special (hentry : (property, name) ∈ specialNames)
  | data (rest : List Char) (hcapital : rest.head?.any Char.isUpper = true)
    (hproperty : property.toList = "data".toList ++ rest)
    (hname : name.toList = "data".toList ++ rest.flatMap hyphenate)
  | aria (rest : List Char) (hcapital : rest.head?.any Char.isUpper = true)
    (hproperty : property.toList = "aria".toList ++ rest)
    (hname : name.toList = "aria-".toList ++ rest.map lowerChar)
  | small (hdata : afterWord? "data".toList property.toList = none)
    (hname : name.toList = property.toList.map lowerChar)

/-- Every property gets its name in one of these ways. -/
theorem naming_attributeName (property : String) : Naming property (attributeName property) := by
  unfold attributeName
  split
  · next name hname => exact .special (Members.mem_of_get? hname)
  split
  · next rest hrest =>
    obtain ⟨hproperty, hcapital⟩ := afterWord?_eq_some_iff.mp hrest
    exact .data rest hcapital hproperty (by simp)
  · next hdata =>
    split
    · next rest hrest =>
      obtain ⟨hproperty, hcapital⟩ := afterWord?_eq_some_iff.mp hrest
      exact .aria rest hcapital hproperty (by simp)
    · exact .small hdata String.toList_ofList

/-- What is special about a property is a capital letter, and its attribute has none. -/
theorem isSmall_of_mem_specialNames : ∀ entry ∈ specialNames,
    ¬ IsSmall entry.1 ∧ IsSmall entry.2 := by
  decide

/-! ## Names without capital letters -/

/-- There is no capital letter in what a letter is written as. -/
theorem isUpper_of_mem_hyphenate {c d : Char} (h : d ∈ hyphenate c) : d.isUpper = false := by
  unfold hyphenate at h
  split at h
  · rcases List.mem_pair.mp h with rfl | rfl
    · rfl
    · exact isUpper_lowerChar c
  · next hcapital =>
    rw [List.mem_singleton.mp h, ← isCapital_eq_isUpper]
    exact Bool.eq_false_iff.mpr hcapital

/-- Characters that begin with a capital letter are in no name that is small. -/
theorem not_isSmall_of_capital {name : String} {word rest : List Char}
    (hcapital : rest.head?.any Char.isUpper = true) (hname : name.toList = word ++ rest) :
    ¬ IsSmall name := by
  intro hsmall
  cases rest with
  | nil => cases hcapital
  | cons c cs =>
    have hc := hsmall c (by rw [hname]; exact List.mem_append_right _ List.mem_cons_self)
    exact absurd hcapital (by simp [hc])

/-- A name that is given in one of these ways is small. -/
theorem Naming.isSmall {property name : String} (h : Naming property name) :
    IsSmall name := by
  have hlowered (cs : List Char) : ∀ c ∈ cs.map lowerChar, c.isUpper = false :=
    List.forall_mem_map.mpr fun c _ => isUpper_lowerChar c
  cases h with
  | special hentry => exact (isSmall_of_mem_specialNames _ hentry).2
  | data rest _ _ hname =>
    rw [IsSmall, hname, List.forall_mem_append]
    have hword : IsSmall "data" := by decide
    refine ⟨hword, fun c hc => ?_⟩
    obtain ⟨d, -, hd⟩ := List.mem_flatMap.mp hc
    exact isUpper_of_mem_hyphenate hd
  | aria rest _ _ hname =>
    rw [IsSmall, hname, List.forall_mem_append]
    have hword : IsSmall "aria-" := by decide
    exact ⟨hword, hlowered rest⟩
  | small _ hname =>
    rw [IsSmall, hname]
    exact hlowered _

/-- A small property keeps its name. -/
theorem Naming.eq_of_isSmall {property name : String} (h : Naming property name)
    (hsmall : IsSmall property) : name = property := by
  cases h with
  | special hentry => exact absurd hsmall (isSmall_of_mem_specialNames _ hentry).1
  | data rest hcapital hproperty => exact absurd hsmall (not_isSmall_of_capital hcapital hproperty)
  | aria rest hcapital hproperty => exact absurd hsmall (not_isSmall_of_capital hcapital hproperty)
  | small _ hname =>
    have hsame : property.toList.map lowerChar = property.toList :=
      (List.map_congr_left fun c hc => lowerChar_of_not_isUpper (hsmall c hc)).trans
        (List.map_id' _)
    rwa [hsame, String.toList_inj] at hname

/-- The names of attributes are small. -/
theorem isSmall_attributeName (property : String) : IsSmall (attributeName property) :=
  (naming_attributeName property).isSmall

/-- A name without capital letters is the name of its attribute. -/
theorem attributeName_of_isSmall {name : String} (h : IsSmall name) : attributeName name = name :=
  (naming_attributeName name).eq_of_isSmall h

/-! ## Names of data -/

/-- Letters and digits only. -/
def isPlainName (property : String) : Bool := property.toList.all Char.isAlphanum

/-- The word `data` and a capital letter, then letters and digits only. -/
def isDataName (property : String) : Bool :=
  match property.toList with
  | 'd' :: 'a' :: 't' :: 'a' :: c :: cs => c.isUpper && cs.all Char.isAlphanum
  | _ => false

/-- Replaces every hyphen, and the character behind it, by the capital letter of that character. -/
def capitalize : List Char → List Char
  | '-' :: c :: cs => c.toUpper :: capitalize cs
  | c :: cs => c :: capitalize cs
  | [] => []

/-- The property that an attribute is for, if the attribute begins with `data-`. -/
def dataProperty? (name : String) : Option String :=
  match name.toList with
  | 'd' :: 'a' :: 't' :: 'a' :: '-' :: cs =>
    some ("data" ++ String.ofList (capitalize ('-' :: cs)))
  | _ => none

/-- The data names are the word, a capital letter, and letters and digits. -/
theorem isDataName_iff {property : String} :
    isDataName property = true ↔ ∃ c cs, property.toList = "data".toList ++ c :: cs ∧
      c.isUpper = true ∧ ∀ d ∈ cs, d.isAlphanum = true := by
  unfold isDataName
  split
  · next c cs hproperty => simp [hproperty]
  · next hother =>
    simp only [Bool.false_eq_true, false_iff]
    rintro ⟨c, cs, hproperty, -⟩
    exact hother c cs hproperty

/-- An attribute that begins with `data-` is for the property with its hyphens replaced. -/
theorem dataProperty?_of_append {name : String} {cs : List Char}
    (h : name.toList = "data".toList ++ '-' :: cs) :
    dataProperty? name = some ("data" ++ String.ofList (capitalize ('-' :: cs))) := by
  unfold dataProperty?
  rw [h]
  rfl

/-- There is a hyphen in the name of an attribute that is read. -/
theorem dataProperty?_eq_none {name : String} (h : '-' ∉ name.toList) :
    dataProperty? name = none := by
  unfold dataProperty?
  split
  · next cs hname => simp [hname] at h
  · rfl

/-- A character is read back in front of anything. -/
theorem capitalize_hyphenate {c : Char} (h : c ≠ '-') (rest : List Char) :
    capitalize (hyphenate c ++ rest) = c :: capitalize rest := by
  unfold hyphenate
  split
  · next hcapital =>
    rw [isCapital_eq_isUpper] at hcapital
    rw [List.cons_append, List.singleton_append, capitalize, (lowerChar_of_isUpper hcapital).2.2]
  · rw [List.singleton_append, capitalize]
    rintro d ds rfl
    contradiction

/-- What has no hyphens is read back. -/
theorem capitalize_flatMap_hyphenate {cs : List Char} (h : '-' ∉ cs) :
    capitalize (cs.flatMap hyphenate) = cs := by
  induction cs with
  | nil => rfl
  | cons c cs ih =>
    rw [List.mem_cons, not_or] at h
    rw [List.flatMap_cons, capitalize_hyphenate (Ne.symm h.1), ih h.2]

/-- What begins with a capital letter is written with a hyphen in front. -/
theorem exists_flatMap_hyphenate_eq {rest : List Char}
    (h : rest.head?.any Char.isUpper = true) : ∃ cs, rest.flatMap hyphenate = '-' :: cs := by
  cases rest with
  | nil => cases h
  | cons c cs =>
    have hcapital : isCapital c = true := (isCapital_eq_isUpper c).trans h
    exact ⟨_, by rw [List.flatMap_cons, hyphenate, if_pos hcapital, List.cons_append]⟩

/-- A data name is plain. -/
theorem isPlainName_of_isDataName {property : String} (h : isDataName property = true) :
    isPlainName property = true := by
  obtain ⟨c, cs, hproperty, hcapital, hcs⟩ := isDataName_iff.mp h
  have hc : c.isAlphanum = true := by
    show ((c.isUpper || c.isLower) || c.isDigit) = true
    rw [hcapital, Bool.true_or, Bool.true_or]
  simpa [isPlainName, hproperty, hc] using hcs

/-- There is no hyphen in a plain name. -/
theorem hyphen_not_mem_of_isPlainName {property : String} (h : isPlainName property = true) :
    '-' ∉ property.toList := by
  intro hmem
  exact absurd (List.all_eq_true.mp h '-' hmem) (by decide)

/-- A name of data goes on behind `data`. -/
theorem afterWord?_of_isDataName {property : String} (h : isDataName property = true) :
    afterWord? "data".toList property.toList ≠ none := by
  obtain ⟨c, cs, hproperty, hcapital, -⟩ := isDataName_iff.mp h
  have hrest : afterWord? "data".toList property.toList = some (c :: cs) :=
    afterWord?_eq_some_iff.mpr ⟨hproperty, hcapital⟩
  rw [hrest]
  exact Option.some_ne_none _

/-- The special names are neither of data properties nor of attributes for them. -/
theorem no_data_of_mem_specialNames : ∀ entry ∈ specialNames,
    afterWord? "data".toList entry.1.toList = none ∧ dataProperty? entry.2 = none := by
  decide

/-- Of all properties without a hyphen, those that go on behind `data` are read back from the name
of their attribute, and no other has an attribute that is read at all. -/
theorem Naming.dataProperty?_eq {property name : String} (h : Naming property name)
    (hhyphen : '-' ∉ property.toList) :
    dataProperty? name
      = if afterWord? "data".toList property.toList = none then none else some property := by
  cases h with
  | special hentry =>
    obtain ⟨hdata, hname⟩ := no_data_of_mem_specialNames _ hentry
    rw [if_pos hdata, hname]
  | data rest hcapital hproperty hname =>
    have hdata := afterWord?_eq_some_iff.mpr ⟨hproperty, hcapital⟩
    have hsolid : '-' ∉ rest := fun h => hhyphen (hproperty ▸ List.mem_append_right _ h)
    -- The capital letter behind `data` gives the hyphen that is looked for.
    obtain ⟨cs, hcs⟩ := exists_flatMap_hyphenate_eq hcapital
    have hback : "data" ++ String.ofList rest = property :=
      String.toList_inj.mp (by simp [hproperty])
    rw [hdata, if_neg (Option.some_ne_none _), dataProperty?_of_append (hcs ▸ hname), ← hcs,
      capitalize_flatMap_hyphenate hsolid, hback]
  | aria rest hcapital hproperty hname =>
    have hdata : afterWord? "data".toList property.toList = none := by rw [hproperty]; rfl
    rw [if_pos hdata, dataProperty?, hname]
    rfl
  | small hdata hname =>
    -- Making letters small gives no hyphen, and the property has none.
    rw [if_pos hdata]
    refine dataProperty?_eq_none fun hmem => hhyphen ?_
    rw [hname, List.mem_map] at hmem
    obtain ⟨c, hc, hlower⟩ := hmem
    exact eq_hyphen_of_lowerChar hlower ▸ hc

/-- A data property is found again from its attribute. -/
theorem dataProperty?_of_isDataName {property : String} (h : isDataName property = true) :
    dataProperty? (attributeName property) = some property := by
  have hhyphen := hyphen_not_mem_of_isPlainName (isPlainName_of_isDataName h)
  rw [(naming_attributeName property).dataProperty?_eq hhyphen,
    if_neg (afterWord?_of_isDataName h)]

/-- The attribute for a name of data is that of no other property without a hyphen. -/
theorem eq_of_attributeName_eq {property other : String} (h : isDataName property = true)
    (hhyphen : '-' ∉ other.toList) (heq : attributeName other = attributeName property) :
    other = property := by
  have hread := (naming_attributeName other).dataProperty?_eq hhyphen
  rw [heq, dataProperty?_of_isDataName h] at hread
  split at hread
  · cases hread
  · exact (Option.some.inj hread).symm

/-! ## Attributes of an element -/

/-- All that is written for a property has the one name. -/
theorem filter_propertyAttributes (property : String) (value : PropertyValue) (name : String) :
    (propertyAttributes property value).filter (fun found => found.name = name)
      = if attributeName property = name then propertyAttributes property value else [] := by
  unfold propertyAttributes
  split <;> simp [List.filter_singleton]

/-- The attributes of a name are those for the properties to which the name is given. -/
theorem filter_attributes (properties : Properties) (name : String) :
    (attributes properties).filter (fun found => found.name = name)
      = attributes (properties.filter fun entry => attributeName entry.1 = name) := by
  induction properties with
  | nil => rfl
  | cons entry properties ih =>
    rw [attributes, List.flatMap_cons, List.filter_append, ← attributes, ih,
      filter_propertyAttributes]
    by_cases hname : attributeName entry.1 = name
    · rw [if_pos hname, List.filter_cons_of_pos (by simpa using hname), attributes, attributes,
        List.flatMap_cons]
    · rw [if_neg hname, List.filter_cons_of_neg (by simpa using hname), List.nil_append]

/-- A name of data is the only plain name among the properties that has its attribute. -/
theorem filter_plain_eq {properties : Properties} {property : String} {value : PropertyValue}
    (h : isDataName property = true) (hnames : properties.names.Nodup)
    (hmem : (property, value) ∈ properties) :
    (properties.filter fun entry => isPlainName entry.1).filter
      (fun entry => attributeName entry.1 = attributeName property) = [(property, value)] := by
  rw [List.filter_filter, ← Members.filter_eq_singleton hnames hmem]
  refine List.filter_congr fun entry _ => Bool.eq_iff_iff.mpr ?_
  rw [Bool.and_eq_true, decide_eq_true_iff, decide_eq_true_iff]
  constructor
  · rintro ⟨heq, hplain⟩
    exact eq_of_attributeName_eq h (hyphen_not_mem_of_isPlainName hplain) heq
  · intro heq
    exact ⟨by rw [heq], by rw [heq]; exact isPlainName_of_isDataName h⟩

/-- **Attributes keep properties apart.**  The name of an attribute has no capital letters, and is
the name of its own attribute.  A name of data is read back from its attribute, and no other property
of letters and digits, for data or not, has that attribute.  So, whatever the properties of an
element are: among what is written for those of letters and digits, the attribute by that name is the
one for the name of data, or there is none if its value has none. -/
theorem attributeName_faithful (property : String) :
    IsSmall (attributeName property) ∧
    attributeName (attributeName property) = attributeName property ∧
    (isDataName property = true →
      dataProperty? (attributeName property) = some property ∧
      (∀ other, isPlainName other = true → other ≠ property →
        attributeName other ≠ attributeName property) ∧
      ∀ (properties : Properties) (value : PropertyValue), properties.names.Nodup →
        (property, value) ∈ properties →
        (attributes (properties.filter fun entry => isPlainName entry.1)).filter
            (fun found => found.name = attributeName property)
          = propertyAttributes property value) := by
  have hsmall := isSmall_attributeName property
  refine ⟨hsmall, attributeName_of_isSmall hsmall, fun h => ⟨dataProperty?_of_isDataName h, ?_, ?_⟩⟩
  · intro other hother hne heq
    exact hne (eq_of_attributeName_eq h (hyphen_not_mem_of_isPlainName hother) heq)
  · intro properties value hnames hmem
    rw [filter_attributes, filter_plain_eq h hnames hmem, attributes, List.flatMap_singleton]

/-- Capitals in a row and a digit are read back.  The same letters with fewer capitals have another
attribute; a property that has hyphens already takes this one too, but is not plain. -/
theorem attributeName_faithful_capitals :
    let properties : Properties := [("data", .string "a"), ("data-x-m-l2", .string "b"),
      ("dataXML2", .string "c"), ("dataXml2", .string "d")]
    isDataName "dataXML2" = true ∧ attributeName "dataXML2" = "data-x-m-l2" ∧
      dataProperty? "data-x-m-l2" = some "dataXML2" ∧
      attributeName "dataXml2" ≠ "data-x-m-l2" ∧ attributeName "data" ≠ "data-x-m-l2" ∧
      attributeName "data-x-m-l2" = "data-x-m-l2" ∧
      (attributes (properties.filter fun entry => isPlainName entry.1)).filter
        (fun found => found.name = "data-x-m-l2") = [⟨"data-x-m-l2", some "c"⟩] := by
  intro properties
  have hdata : isDataName "dataXML2" = true := by decide
  have hname : attributeName "dataXML2" = "data-x-m-l2" := by decide
  have hnames : properties.names.Nodup := by decide
  have hsmall : IsSmall "data-x-m-l2" := by decide
  obtain ⟨-, -, hfaithful⟩ := attributeName_faithful "dataXML2"
  rw [hname] at hfaithful
  obtain ⟨hread, hother, hattributes⟩ := hfaithful hdata
  exact ⟨hdata, hname, hread, hother "dataXml2" (by decide) (by decide),
    hother "data" (by decide) (by decide), attributeName_of_isSmall hsmall,
    hattributes properties (.string "c") hnames (by simp [properties])⟩

end Hypermark.Hast
