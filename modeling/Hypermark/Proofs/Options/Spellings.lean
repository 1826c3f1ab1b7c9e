import Hypermark.Options.Reader
import Hypermark.Proofs.Json.ReadRecord

/-!
# The ways to write options

Options may be written as an object, in any order, with either name of a field, without the fields that
have their default, and with members of other names in between (`ObjectText`); or as an array of the
fields in the order of their declaration, without some at the end that have their default
(`ArrayText`).  All of these are read as the options, and an object that gives a field twice is not read
at all (`read_spellings`).

What is read of the fields one by one makes up the options as long as what is missing has its default
(`ofValues_eq`); this is the only place where the defaults of the reader meet those of the options.
-/

namespace Hypermark.Options

open Json

/-- The names of the fields, in the order of their declaration. -/
def fieldNames : List (List String) :=
  [["gfm"], ["frontmatter"], ["allow_raw_html", "allowRawHtml"], ["math"], ["mermaid"],
    ["mermaid_language", "mermaidLanguage"]]

/-- The values of the fields, in the order of their declaration. -/
def values (options : Options) : List FieldValue :=
  [.flag options.gfm, .flag options.frontmatter, .flag options.allowRawHtml, .flag options.math,
    .flag options.mermaid, .text options.mermaidLanguage]

/-- The names and the values of the fields. -/
def entries (options : Options) : List (List String × FieldValue) := fieldNames.zip options.values

/-- The members of an object, each with its name, say what the options are. -/
structure ObjectSays (options : Options) (members : List (String × MemberParts)) : Prop where
  spaced : ∀ member ∈ members, member.2.Spaced
  names : ∀ member ∈ members, StringText member.1 member.2.name
  /-- A field has its value. -/
  fields : ∀ member ∈ members, ∀ entry ∈ options.entries, member.1 ∈ entry.1 →
    FieldText entry.2 member.2.item.value
  /-- What is no field may have any value. -/
  others : ∀ member ∈ members, (∀ names ∈ fieldNames, member.1 ∉ names) →
    ValueText member.2.item.value
  /-- No field is given twice, under the same name or different ones. -/
  once : (members.map Prod.fst).Pairwise fun name later => ∀ names ∈ fieldNames,
    name ∈ names → later ∉ names
  /-- What is not given has its default. -/
  defaults : ∀ entry ∈ options.entries, (∀ member ∈ members, member.1 ∉ entry.1) →
    entry ∈ ({} : Options).entries

/-- The texts of objects that say what the options are. -/
inductive ObjectText (options : Options) : List Char → Prop
  | intro {before gap after : List Char} {members : List (String × MemberParts)}
    (hbefore : Blank before) (hgap : Blank gap) (hafter : Blank after)
    (h : options.ObjectSays members) :
    ObjectText options (before ++ (objectText gap (members.map Prod.snd) ++ after))

/-- The texts of arrays of the first fields, where the others have their defaults. -/
inductive ArrayText (options : Options) : List Char → Prop
  | intro {before gap after : List Char} {items : List ItemParts}
    (hbefore : Blank before) (hgap : Blank gap) (hafter : Blank after)
    (h : List.Forall₂ (fun value item => item.Spaced ∧ FieldText value item.value)
      (options.values.take items.length) items)
    (hdefaults : options.entries.drop items.length = ({} : Options).entries.drop items.length) :
    ArrayText options (before ++ (arrayText gap items ++ after))

/-- The texts of objects in which two members are of one field, whatever else is in them. -/
inductive RepeatingText : List Char → Prop
  | intro {before gap after : List Char} {members : List MemberParts} {first second : MemberParts}
    {names : List String} {name later : String}
    (hbefore : Blank before) (hgap : Blank gap) (hafter : Blank after)
    (hspaced : ∀ member ∈ members, member.Spaced)
    (hnames : ∀ member ∈ members, LiteralText member.name)
    (hvalues : ∀ member ∈ members, ValueText member.item.value)
    (hfield : names ∈ fieldNames) (hmembers : [first, second].Sublist members)
    (hfirst : name ∈ names) (htext : StringText name first.name)
    (hsecond : later ∈ names) (htext' : StringText later second.name) :
    RepeatingText (before ++ (objectText gap members ++ after))

/-! ## Names -/

/-- The names of a field are its own name and its aliases. -/
theorem fieldNames_eq_map :
    fieldNames = Options.fields.map fun field => field.name :: field.aliases := rfl

/-- No name is of two fields. -/
theorem pairwise_fieldNames :
    fieldNames.Pairwise fun names later => ∀ name ∈ names, name ∉ later := by
  decide

/-- At the place of each field are its names. -/
theorem getElem?_fieldNames {i : Nat} (h : i < Options.fields.length) :
    fieldNames[i]? = some (Options.fields[i].name :: Options.fields[i].aliases) := by
  rw [fieldNames_eq_map, List.getElem?_map, List.getElem?_eq_getElem h, Option.map_some]

/-- The reader knows a field by its names. -/
theorem isNamed_iff {field : Field} {name : String} :
    (field.name == name || field.aliases.contains name) = true ↔ name ∈ field.name :: field.aliases := by
  rw [Bool.or_eq_true, beq_iff_eq, List.contains_iff_mem, List.mem_cons]
  exact or_congr_left eq_comm

/-- A name is found as that of a field if it is among the names of the field. -/
theorem fieldIndex?_eq_some_iff {name : String} {i : Nat} :
    fieldIndex? Options.fields name = some i ↔ ∃ names, fieldNames[i]? = some names ∧ name ∈ names := by
  rw [fieldIndex?, List.findIdx?_eq_some_iff_getElem]
  constructor
  · rintro ⟨hi, hname, -⟩
    exact ⟨_, getElem?_fieldNames hi, isNamed_iff.mp hname⟩
  · rintro ⟨names, hnames, hname⟩
    have hi : i < Options.fields.length := (List.getElem?_eq_some_iff.mp hnames).1
    obtain rfl := Option.some.inj ((getElem?_fieldNames hi).symm.trans hnames)
    refine ⟨hi, isNamed_iff.mpr hname, fun j hj hearlier => ?_⟩
    -- No field in front has the name too.
    obtain ⟨hj', hjnames⟩ := List.getElem?_eq_some_iff.mp (getElem?_fieldNames (hj.trans hi))
    obtain ⟨hi', hinames⟩ := List.getElem?_eq_some_iff.mp (getElem?_fieldNames hi)
    have hapart := List.pairwise_iff_getElem.mp pairwise_fieldNames j i hj' hi' hj name
    rw [hjnames, hinames] at hapart
    exact hapart (isNamed_iff.mp hearlier) hname

/-- A name is not found if it is of no field. -/
theorem fieldIndex?_eq_none_iff {name : String} :
    fieldIndex? Options.fields name = none ↔ ∀ names ∈ fieldNames, name ∉ names := by
  rw [fieldIndex?, List.findIdx?_eq_none_iff, fieldNames_eq_map, List.forall_mem_map]
  refine forall₂_congr fun field _ => ?_
  rw [← isNamed_iff, Bool.not_eq_true]

/-! ## Values -/

/-- **The fields that are read make up the options**, as long as what is missing has its default. -/
theorem ofValues_eq {options : Options} {read : List (Option FieldValue)}
    (h : ∀ (i : Nat) entry, options.entries[i]? = some entry → read[i]? = some (some entry.2) ∨
      read[i]? = some none ∧ entry ∈ ({} : Options).entries) :
    ofValues read = options := by
  have hflag {i : Nat} {names : List String} {value default : Bool}
      (hentry : options.entries[i]? = some (names, .flag value))
      (hdefault : (names, .flag value) ∈ ({} : Options).entries → value = default) :
      flagOr default read[i]? = value := by
    rcases h i _ hentry with hread | ⟨hread, hmem⟩
    · rw [hread]
      rfl
    · rw [hread, hdefault hmem]
      rfl
  have htext {i : Nat} {names : List String} {value default : String}
      (hentry : options.entries[i]? = some (names, .text value))
      (hdefault : (names, .text value) ∈ ({} : Options).entries → value = default) :
      textOr default read[i]? = value := by
    rcases h i _ hentry with hread | ⟨hread, hmem⟩
    · rw [hread]
      rfl
    · rw [hread, hdefault hmem]
      rfl
  rw [ofValues, @hflag 0 ["gfm"] options.gfm _ rfl, @hflag 1 ["frontmatter"] options.frontmatter _ rfl,
    @hflag 2 ["allow_raw_html", "allowRawHtml"] options.allowRawHtml _ rfl,
    @hflag 3 ["math"] options.math _ rfl, @hflag 4 ["mermaid"] options.mermaid _ rfl,
    @htext 5 ["mermaid_language", "mermaidLanguage"] options.mermaidLanguage _ rfl]
  all_goals simp [entries, fieldNames, values]

/-- An entry has the names and the value of its field. -/
theorem getElem?_entries {options : Options} {i : Nat} {entry : List String × FieldValue} :
    options.entries[i]? = some entry
      ↔ fieldNames[i]? = some entry.1 ∧ options.values[i]? = some entry.2 :=
  List.getElem?_zip_eq_some

/-- Every field has a value. -/
theorem exists_value (options : Options) {i : Nat} {names : List String}
    (h : fieldNames[i]? = some names) : ∃ value, options.values[i]? = some value := by
  have hi : i < options.values.length := (List.getElem?_eq_some_iff.mp h).1
  exact ⟨_, List.getElem?_eq_getElem hi⟩

/-- Each value is of the kind of its field. -/
theorem map_kind_values (options : Options) :
    Options.fields.map Field.kind = options.values.map FieldValue.kind := rfl

variable {options : Options}

/-! ## Objects -/

/-- Each of the members says what the reader expects it to. -/
theorem ObjectSays.says {members : List (String × MemberParts)} (h : options.ObjectSays members) :
    ∀ member ∈ members, Says Options.fields options.values member.1 member.2 := by
  intro member hmember
  refine ⟨h.spaced member hmember, h.names member hmember, fun i hindex => ?_, fun hnone => ?_⟩
  · obtain ⟨names, hnames, hname⟩ := fieldIndex?_eq_some_iff.mp hindex
    obtain ⟨value, hvalue⟩ := exists_value options hnames
    have hentry : (names, value) ∈ options.entries :=
      List.mem_of_getElem? (getElem?_entries.mpr ⟨hnames, hvalue⟩)
    exact ⟨value, hvalue, h.fields member hmember _ hentry hname⟩
  · exact h.others member hmember (fieldIndex?_eq_none_iff.mp hnone)

/-- No two of the members are of one field. -/
theorem ObjectSays.apart {members : List (String × MemberParts)} (h : options.ObjectSays members) :
    (members.map Prod.fst).Pairwise (Apart Options.fields) := by
  refine h.once.imp fun {name later} honce i hindex hindex' => ?_
  obtain ⟨names, hnames, hname⟩ := fieldIndex?_eq_some_iff.mp hindex
  obtain ⟨names', hnames', hlater⟩ := fieldIndex?_eq_some_iff.mp hindex'
  obtain rfl := Option.some.inj (hnames.symm.trans hnames')
  exact honce names (List.mem_of_getElem? hnames) hname hlater

/-- The fields that an object gives make up the options. -/
theorem ObjectSays.ofValues_given {members : List (String × MemberParts)}
    (h : options.ObjectSays members) :
    ofValues (given Options.fields (members.map Prod.fst) options.values) = options := by
  refine ofValues_eq fun i entry hentry => ?_
  obtain ⟨hnames, hvalue⟩ := getElem?_entries.mp hentry
  by_cases hgiven : ∃ name ∈ members.map Prod.fst, fieldIndex? Options.fields name = some i
  · left
    rw [given, List.getElem?_mapIdx, hvalue, Option.map_some, if_pos hgiven]
  · right
    refine ⟨?_, h.defaults entry (List.mem_of_getElem? hentry) fun member hmember hname => hgiven ?_⟩
    · rw [given, List.getElem?_mapIdx, hvalue, Option.map_some, if_neg hgiven]
    · exact ⟨member.1, List.mem_map_of_mem hmember, fieldIndex?_eq_some_iff.mpr ⟨_, hnames, hname⟩⟩

/-- The options are read from each of the objects. -/
theorem read_of_objectText {text : List Char} (h : options.ObjectText text) :
    Options.read text = .ok options := by
  obtain ⟨hbefore, hgap, hafter, h⟩ := h
  rw [Options.read, readRecord_objectText (map_kind_values options) hbefore hgap hafter h.says h.apart,
    Except.map, h.ofValues_given]

/-! ## Arrays -/

/-- The first fields, and nothing for the others, make up the options if the others have their
defaults. -/
theorem ofValues_take {n : Nat} (hn : n ≤ options.values.length)
    (hdefaults : options.entries.drop n = ({} : Options).entries.drop n) :
    ofValues ((options.values.take n).map some ++ (Options.fields.drop n).map fun _ => none)
      = options := by
  have hlength : ((options.values.take n).map some).length = n := by
    rw [List.length_map, List.length_take, Nat.min_eq_left hn]
  refine ofValues_eq fun i entry hentry => ?_
  obtain ⟨hnames, hvalue⟩ := getElem?_entries.mp hentry
  rcases Nat.lt_or_ge i n with hi | hi
  · left
    rw [List.getElem?_append_left (hlength.symm ▸ hi), List.getElem?_map,
      List.getElem?_take_of_lt hi, hvalue, Option.map_some]
  · right
    have hfield : i < Options.fields.length := (List.getElem?_eq_some_iff.mp hnames).1
    have hsum : n + (i - n) = i := by omega
    refine ⟨?_, ?_⟩
    · rw [List.getElem?_append_right (hlength.symm ▸ hi), hlength, List.getElem?_map,
        List.getElem?_drop, hsum, List.getElem?_eq_getElem hfield, Option.map_some]
    · have hsame := congrArg (·[i - n]?) hdefaults
      simp only [List.getElem?_drop, hsum, hentry] at hsame
      exact List.mem_of_getElem? hsame.symm

/-- The options are read from each of the arrays. -/
theorem read_of_arrayText {text : List Char} (h : options.ArrayText text) :
    Options.read text = .ok options := by
  cases h with
  | @intro before gap after items hbefore hgap hafter h hdefaults =>
    have hkinds : (Options.fields.take items.length).map Field.kind
        = (options.values.take items.length).map FieldValue.kind := by
      rw [List.map_take, List.map_take, map_kind_values]
    have hlength : items.length ≤ options.values.length := by
      have hlength := h.length_eq
      rw [List.length_take] at hlength
      omega
    have hread := @readRecord_arrayText "Options" _ _ _ _ _ (Options.fields.drop items.length) hkinds
      hbefore hgap hafter _ h
    rw [List.take_append_drop] at hread
    rw [Options.read, hread, Except.map, ofValues_take hlength hdefaults]

/-! ## Repeated fields -/

/-- Nothing is read from an object that repeats a field. -/
theorem read_ne_of_repeatingText {text : List Char} (h : RepeatingText text) (options : Options) :
    Options.read text ≠ .ok options := by
  intro hread
  obtain ⟨hbefore, hgap, -, hspaced, hnames, hvalues, hfield, hmembers, hfirst, htext, hsecond,
    htext'⟩ := h
  obtain ⟨result, hrecord, -⟩ := map_eq_ok_iff.mp hread
  have honce := pairwise_of_readRecord hbefore hgap hspaced hnames hvalues hrecord
  obtain ⟨i, hi⟩ := List.getElem?_of_mem hfield
  exact List.pairwise_iff_forall_sublist.mp honce hmembers i
    ⟨_, htext, fieldIndex?_eq_some_iff.mpr ⟨_, hi, hfirst⟩⟩
    ⟨_, htext', fieldIndex?_eq_some_iff.mpr ⟨_, hi, hsecond⟩⟩

/-! ## The encoding -/

/-- The members of the encoding. -/
def writtenMembers (options : Options) : List (String × Json) :=
  [("gfm", .bool options.gfm), ("frontmatter", .bool options.frontmatter),
    ("allow_raw_html", .bool options.allowRawHtml), ("math", .bool options.math),
    ("mermaid", .bool options.mermaid), ("mermaid_language", .str options.mermaidLanguage)]

/-- The encoding says what the options are. -/
theorem objectSays_written (options : Options) :
    options.ObjectSays (options.writtenMembers.map fun entry => (entry.1, compactMember entry)) where
  spaced := List.forall_mem_map.mpr fun entry _ => spaced_compactMember entry
  names := List.forall_mem_map.mpr fun entry _ => stringText_escape entry.1
  fields := by
    simp [writtenMembers, entries, fieldNames, values, compactMember, fieldText_print_bool,
      fieldText_print_str]
  others := by
    simp [writtenMembers, fieldNames]
  once := by
    simp [writtenMembers, fieldNames]
  defaults := by
    simp [writtenMembers, entries, fieldNames, values]

/-- The encoding is one of the objects. -/
theorem objectText_written (options : Options) :
    options.ObjectText options.written.print.toList := by
  have hprint : options.written.print.toList
      = [] ++ (objectText [] ((options.writtenMembers.map fun entry =>
          (entry.1, compactMember entry)).map Prod.snd) ++ []) := by
    rw [List.map_map, List.nil_append, List.append_nil]
    exact toList_print_obj options.writtenMembers
  rw [hprint]
  exact .intro blank_nil blank_nil blank_nil options.objectSays_written

/-! ## All spellings -/

/-- **All the ways to write options agree**: the encoding, every object and every array that says what
the options are; and no object that gives a field twice is read. -/
theorem read_spellings (options : Options) :
    Options.read options.written.print.toList = .ok options ∧
    (∀ text, options.ObjectText text → Options.read text = .ok options) ∧
    (∀ text, options.ArrayText text → Options.read text = .ok options) ∧
    ∀ text, RepeatingText text → Options.read text ≠ .ok options :=
  ⟨read_of_objectText options.objectText_written, fun _ => read_of_objectText,
    fun _ => read_of_arrayText, fun _ h => read_ne_of_repeatingText h options⟩

/-- A name whose first letter is written by its number. -/
def numberedName : MemberParts :=
  ⟨[], "\\u0061llowRawHtml".toList, [' '], ⟨[], "true".toList, ['\n']⟩⟩

/-- A member that is no field, with a number that is too large for most readers. -/
def strangeMember : MemberParts :=
  ⟨[' '], ['x'], [], ⟨[], "-1e999".toList, []⟩⟩

/-- The same field again, under its other name. -/
def repeatedName : MemberParts :=
  ⟨[], "allow_raw_html".toList, [], ⟨[], "true".toList, []⟩⟩

/-- The number is that of the letter, so it is the name of a field. -/
theorem stringText_numberedName : StringText "allowRawHtml" numberedName.name :=
  have hletter : HexText 'a'.toNat ['0', '0', '6', '1'] :=
    @HexText.intro _ _ _ _ 0 0 6 1 (by decide) (by decide) (by decide) (by decide)
  .cons (.code hletter) (stringText_escape "llowRawHtml")

/-- Its value is a number. -/
theorem numberText_strangeMember : NumberText strangeMember.item.value :=
  .intro (.inr rfl) (.digits (by decide) (by decide) (List.forall_mem_nil _)) .none
    (.some (.inl rfl) (.inl rfl) (List.all_eq_true.mp (by decide)))

/-- The text `{"\u0061llowRawHtml" :true⏎, "x":-1e999}` and the array `[true,true, true]` are read as the
same options, and the object is not read any more when the field is given again. -/
theorem read_spellings_numberedName :
    Options.read "\x7b\"\\u0061llowRawHtml\" :true\n, \"x\":-1e999\x7d".toList
      = .ok { allowRawHtml := true } ∧
    Options.read "[true,true, true]".toList = .ok { allowRawHtml := true } ∧
    Options.read ("\x7b\"\\u0061llowRawHtml\" :true\n, \"x\":-1e999,".toList ++
      "\"allow_raw_html\":true\x7d".toList) ≠ .ok { allowRawHtml := true } := by
  obtain ⟨-, hobject, harray, hrepeating⟩ := read_spellings { allowRawHtml := true }
  have hname := stringText_numberedName
  have hnumber := ValueText.number numberText_strangeMember
  have hspaced : ∀ member ∈ [numberedName, strangeMember, repeatedName], member.Spaced := by
    decide
  refine ⟨hobject _ ?_, harray _ ?_, hrepeating _ ?_⟩
  · refine @ObjectText.intro _ [] [] [] [("allowRawHtml", numberedName), ("x", strangeMember)]
      blank_nil blank_nil blank_nil ?_
    exact {
      spaced := by decide
      names := by
        simp only [List.forall_mem_cons]
        exact ⟨hname, stringText_escape "x", List.forall_mem_nil _⟩
      fields := by
        have hyes : FieldText (.flag true) numberedName.item.value := .yes
        simp [entries, fieldNames, values, hyes]
      others := by simpa [fieldNames] using hnumber
      once := by simp [fieldNames]
      defaults := by decide }
  · refine @ArrayText.intro _ [] [] []
      [⟨[], "true".toList, []⟩, ⟨[], "true".toList, []⟩, ⟨[' '], "true".toList, []⟩]
      blank_nil blank_nil blank_nil ?_ rfl
    exact .cons ⟨by decide, .yes⟩ (.cons ⟨by decide, .yes⟩ (.cons ⟨by decide, .yes⟩ .nil))
  · refine @RepeatingText.intro [] [] [] [numberedName, strangeMember, repeatedName] numberedName
      repeatedName ["allow_raw_html", "allowRawHtml"] "allowRawHtml" "allow_raw_html"
      blank_nil blank_nil blank_nil hspaced ?_ ?_ (by decide) ?_ (by decide) hname (by decide)
      (stringText_escape "allow_raw_html")
    · simp only [List.forall_mem_cons]
      exact ⟨hname.literalText, (stringText_escape "x").literalText,
        (stringText_escape "allow_raw_html").literalText, List.forall_mem_nil _⟩
    · simp only [List.forall_mem_cons]
      exact ⟨.true, hnumber, .true, List.forall_mem_nil _⟩
    · exact .cons_cons _ (.cons _ (.refl _))

end Hypermark.Options
