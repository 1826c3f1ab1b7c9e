import Hypermark.Diagram
import Hypermark.Proofs.Hast.Canonical
import Hypermark.Proofs.Html.ReadBack
import Hypermark.Proofs.Members

/-!
# Classes as they are shown

An element has its classes twice: `hasClass` reads them from a property, and HTML shows the words of
the attribute that is written for the same property.  Every class is shown, and where the classes are
given by texts, every word that is shown is a class, unless it comes from an item of a list that has a
blank in it: such an item is one class as a whole and is shown as several words (`shown_classes`).
The search for diagrams goes by the classes.

The blank that joins the items of a list ends a word wherever it stands, so the words of the
attribute are those of the items (`asciiWords_intercalate`).
-/

namespace Hypermark.Hast

/-! ## Words -/

section Split

variable {blank : Char → Bool}

/-- Characters that are no blanks are added to the word begun. -/
theorem splitBlank_of_solid {cs : List Char} (h : ∀ c ∈ cs, blank c = false) (word : List Char) :
    splitBlank blank word cs = splitBlank blank (cs.reverse ++ word) [] := by
  induction cs generalizing word with
  | nil => rfl
  | cons c cs ih =>
    obtain ⟨hc, hcs⟩ := List.forall_mem_cons.mp h
    have hstep : splitBlank blank word (c :: cs) = splitBlank blank (c :: word) cs := by
      simp [splitBlank, hc]
    rw [hstep, ih hcs, List.reverse_cons, List.append_assoc, List.singleton_append]

/-- What stands behind a blank is split on its own. -/
theorem splitBlank_append {c : Char} (hc : blank c = true) (word cs ds : List Char) :
    splitBlank blank word (cs ++ c :: ds)
      = splitBlank blank word cs ++ splitBlank blank [] ds := by
  induction cs generalizing word with
  | nil =>
    simp only [List.nil_append, splitBlank, hc, if_true]
    split <;> rfl
  | cons d cs ih =>
    simp only [List.cons_append, splitBlank]
    split
    · split
      · exact ih []
      · rw [ih [], List.cons_append]
    · exact ih (d :: word)

end Split

/-- There is a blank in the text. -/
def HasBlank (text : String) : Prop := text.toList.any isAsciiBlank = true

instance (text : String) : Decidable (HasBlank text) := inferInstanceAs (Decidable (_ = true))

/-- The text is a single word. -/
structure IsWord (text : String) : Prop where
  ne_empty : text ≠ ""
  solid : ¬ HasBlank text

/-- There is no word in the empty text. -/
theorem asciiWords_empty : asciiWords "" = [] := rfl

/-- A word is split into itself. -/
theorem asciiWords_of_isWord {text : String} (h : IsWord text) : asciiWords text = [text] := by
  have hsolid : ∀ c ∈ text.toList, isAsciiBlank c = false := by
    simpa [HasBlank] using h.solid
  have hne : text.toList ≠ [] := fun hempty => h.ne_empty (String.toList_eq_nil_iff.mp hempty)
  rw [asciiWords, splitBlank_of_solid hsolid, List.append_nil, splitBlank,
    if_neg (by simpa using hne), List.reverse_reverse, List.map_singleton, String.ofList_toList]

/-- A text without a blank is its only word, unless it is empty. -/
theorem mem_asciiWords_of_solid {word text : String} (h : ¬ HasBlank text)
    (hword : word ∈ asciiWords text) : word = text := by
  by_cases hempty : text = ""
  · rw [hempty, asciiWords_empty] at hword
    cases hword
  · rw [asciiWords_of_isWord ⟨hempty, h⟩] at hword
    exact List.mem_singleton.mp hword

/-- The words of texts with a blank between them are those of both. -/
theorem asciiWords_append_blank (first second : String) :
    asciiWords (first ++ " " ++ second) = asciiWords first ++ asciiWords second := by
  have hblank : (first ++ " " ++ second).toList = first.toList ++ ' ' :: second.toList := by
    simp
  rw [asciiWords, hblank, splitBlank_append (by decide), List.map_append]
  rfl

/-- The words of texts that are joined by blanks are the words of the texts. -/
theorem asciiWords_intercalate (texts : List String) :
    asciiWords (" ".intercalate texts) = texts.flatMap asciiWords := by
  induction texts with
  | nil => rw [String.intercalate_nil, asciiWords_empty, List.flatMap_nil]
  | cons text texts ih =>
    cases texts with
    | nil => rw [String.intercalate_singleton, List.flatMap_singleton]
    | cons next texts =>
      rw [String.intercalate_cons_cons, asciiWords_append_blank, ih, ← List.flatMap_cons]

/-! ## The attribute -/

/-- The attributes of two lists of properties are written one list behind the other. -/
theorem attributesHtml_append (first second : Properties) :
    attributesHtml (first ++ second) = attributesHtml first ++ attributesHtml second := by
  rw [attributesHtml, List.map_append, String.join_append]
  rfl

/-- The attribute of the first property is written in front of the others. -/
theorem attributesHtml_cons (name : String) (value : PropertyValue) (rest : Properties) :
    attributesHtml ((name, value) :: rest) = attributeHtml name value ++ attributesHtml rest := by
  rw [attributesHtml, List.map_cons, String.join_cons]
  rfl

/-- Among the attributes of the properties is the one that is written for the classes, and its value
is `shown`, once the references in it are replaced. -/
def ShowsClasses (properties : Properties) (shown : String) : Prop :=
  ∃ before value after escaped, properties = before ++ (classProperty, value) :: after ∧
    attributesHtml properties
      = attributesHtml before ++ (" class=\"" ++ escaped ++ "\"" ++ attributesHtml after) ∧
    '"' ∉ escaped.toList ∧ String.ofList (Html.decode escaped.toList) = shown

/-- Escaping a value leaves no quote in it. -/
theorem quote_not_mem_escapeValue (text : String) : '"' ∉ (escapeValue text).toList := by
  rw [escapeValue, String.toList_ofList, List.mem_flatMap]
  rintro ⟨c, -, hc⟩
  exact (Html.ne_of_mem_escapeValueChar hc).2.2 rfl

/-- Escaping a value is undone by replacing the references. -/
theorem decode_escapeValue (text : String) :
    String.ofList (Html.decode (escapeValue text).toList) = text := by
  rw [escapeValue, String.toList_ofList, Html.decode_flatMap Html.decode_escapeValueChar,
    String.ofList_toList]

/-- The attribute of the classes is written between quotes, with its value escaped. -/
theorem attributeHtml_of_rendering {value : PropertyValue} {text : String}
    (h : value.rendering = .value text) :
    attributeHtml classProperty value = " class=\"" ++ escapeValue text ++ "\"" := by
  have hname : " " ++ attributeName classProperty ++ "=\"" = " class=\"" := by decide
  rw [attributeHtml, h]
  dsimp only
  rw [hname]

/-- What is shown is what is written for the value. -/
theorem showsClasses_iff {properties : Properties} {value : PropertyValue} {text shown : String}
    (hnames : properties.names.Nodup)
    (hvalue : Members.get? properties classProperty = some value)
    (htext : value.rendering = .value text) : ShowsClasses properties shown ↔ shown = text := by
  constructor
  · rintro ⟨before, other, after, escaped, rfl, hhtml, -, hshown⟩
    have hmem : (classProperty, other) ∈ before ++ (classProperty, other) :: after := by simp
    have hother := Members.get?_of_mem hnames hmem
    rw [hvalue] at hother
    cases hother
    rw [attributesHtml_append, attributesHtml_cons, attributeHtml_of_rendering htext] at hhtml
    have hescaped : escapeValue text = escaped := by
      simpa [String.append_assoc, String.append_right_inj, String.append_left_inj] using hhtml
    rw [← hshown, ← hescaped, decode_escapeValue]
  · rintro rfl
    obtain ⟨before, after, rfl⟩ := List.append_of_mem (Members.mem_of_get? hvalue)
    refine ⟨before, value, after, escapeValue shown, rfl, ?_, quote_not_mem_escapeValue shown,
      decode_escapeValue shown⟩
    rw [attributesHtml_append, attributesHtml_cons, attributeHtml_of_rendering htext]

/-! ## The property -/

/-- A list of values is written item by item, whether all of them are texts or not. -/
theorem rendering_ofJson_arr (items : List Json) :
    (PropertyValue.ofJson (.arr items)).rendering
      = .value (" ".intercalate (items.map itemText)) := by
  rw [PropertyValue.ofJson]
  cases hitems : strings? items with
  | none => rfl
  | some texts =>
    rw [← PropertyValue.map_str_of_strings? hitems, List.map_map]
    simp [PropertyValue.rendering, Function.comp_def, itemText]

/-- The properties of an element are those of the value it is read from. -/
theorem get?_properties_of_ofJson {value : Json} (hvalue : value.Ordered) {tagName : String}
    {properties : Properties} {children : List Node} {position : Option Position}
    {extra : Members Json}
    (h : Node.ofJson value = .ok (.element tagName properties children position extra))
    (name : String) :
    Members.get? properties name
      = ((value.get? "properties").bind (·.get? name)).map PropertyValue.ofJson := by
  cases hkind : kindOf? value with
  | none =>
    rw [Node.ofJson_of_kindOf?_eq_none hkind] at h
    cases h
  | some kind =>
    obtain ⟨members, draft, rfl, hreads, hnode⟩ := Node.reads_of_ofJson hvalue h hkind
    have helement : Kind.element = kind := Option.some.inj (Node.kind?_of_ofDraft hnode)
    have hproperties : properties = draft.properties := by
      rw [← helement] at hnode
      exact Node.properties_of_ofDraft hnode
    have hread := hreads.properties
    rw [← helement, Node.FieldIs, Kind.hasTag, if_pos rfl, ← hproperties] at hread
    rw [Json.get?]
    split at hread
    · next found hfound =>
      rw [hfound, Option.bind_some]
      cases found with
      | obj entries =>
        cases hread
        exact Members.get?_map PropertyValue.ofJson
      | null | bool _ | num _ | str _ | arr _ => cases hread
    · next hfound =>
      rw [hfound, hread]
      rfl

/-! ## Classes and words -/

/-- A value that lists classes: a text, or an array of anything. -/
def ListsClasses : Json → Prop
  | .str _ | .arr _ => True
  | _ => False

/-- A text, or an array of texts. -/
def HasTextsOnly : Json → Prop
  | .str _ => True
  | .arr items => ∃ texts : List String, items = texts.map Json.str
  | _ => False

/-- The words of the items that have a blank in them. -/
def brokenWords : Json → List String
  | .arr items => items.flatMap fun
    | .str text => if HasBlank text then asciiWords text else []
    | _ => []
  | _ => []

/-- What is known as a class is a word that is shown; and if the classes are given by texts, every
word that is shown is known, the pieces of broken items aside. -/
structure Agrees (className : Json) (shown word : String) (known : Prop) : Prop where
  shown_of_known : known → word ∈ asciiWords shown
  shown_iff : HasTextsOnly className →
    (word ∈ asciiWords shown ↔ known ∨ word ∈ brokenWords className)

/-- Whether the words of a list of texts are among the texts. -/
theorem mem_flatMap_asciiWords_iff {word : String} (hword : IsWord word) (texts : List String) :
    word ∈ texts.flatMap asciiWords ↔
      word ∈ texts ∨ word ∈ brokenWords (.arr (texts.map Json.str)) := by
  simp only [brokenWords, List.flatMap_map, List.mem_flatMap]
  constructor
  · rintro ⟨text, htext, hmem⟩
    by_cases hblank : HasBlank text
    · exact .inr ⟨text, htext, by rwa [if_pos hblank]⟩
    · exact .inl (mem_asciiWords_of_solid hblank hmem ▸ htext)
  · rintro (hmem | ⟨text, htext, hmem⟩)
    · exact ⟨word, hmem, by rw [asciiWords_of_isWord hword]; exact List.mem_singleton_self word⟩
    · split at hmem
      · exact ⟨text, htext, hmem⟩
      · cases hmem

/-- The class names in an array are its items, if all of them are strings. -/
theorem classNames_of_arr {properties : Properties} {items : List Json}
    (h : Members.get? properties classProperty = some (.ofJson (.arr items))) :
    classNames properties = (strings? items).getD [] := by
  rw [classNames, h, PropertyValue.ofJson]
  cases strings? items <;> rfl

/-- The classes of an element agree with what is written for them. -/
theorem agrees_hasClass {className : Json} {properties : Properties} {shown word : String}
    (hvalue : Members.get? properties classProperty = some (.ofJson className))
    (hshown : (PropertyValue.ofJson className).rendering = .value shown)
    (hlists : ListsClasses className) (hword : IsWord word) :
    Agrees className shown word (hasClass properties word) := by
  rw [hasClass, List.contains_iff_mem]
  cases className with
  | str text =>
    cases hshown
    have hnames : classNames properties = asciiWords shown := by
      rw [classNames, hvalue, PropertyValue.ofJson]
    rw [hnames]
    exact ⟨id, fun _ => by simp [brokenWords]⟩
  | arr items =>
    rw [rendering_ofJson_arr] at hshown
    cases hshown
    rw [classNames_of_arr hvalue]
    cases hitems : strings? items with
    | none =>
      refine ⟨fun h => absurd h List.not_mem_nil, ?_⟩
      rintro ⟨texts, rfl⟩
      rw [PropertyValue.strings?_map_str] at hitems
      cases hitems
    | some texts =>
      have htexts : (texts.map Json.str).map itemText = texts := by
        simp [Function.comp_def, itemText]
      have hiff := mem_flatMap_asciiWords_iff hword texts
      rw [← asciiWords_intercalate] at hiff
      rw [← PropertyValue.map_str_of_strings? hitems, htexts]
      exact ⟨fun h => hiff.mpr (.inl h), fun _ => hiff⟩
  | null | bool _ | num _ | obj _ => cases hlists

/-- The class of code in a language is a word if the name of the language has no blank. -/
theorem isWord_languageClass {language : String} (h : ¬ HasBlank language) :
    IsWord (Diagram.languageClass language) where
  ne_empty hempty := by
    have hprefix : "language-" = "" := (String.append_eq_empty_iff.mp hempty).1
    exact absurd hprefix (by decide)
  solid := by
    have hprefix : "language-".toList.any isAsciiBlank = false := by decide
    rwa [Diagram.languageClass, HasBlank, String.toList_append, List.any_append, hprefix,
      Bool.false_or]

/-- **The classes of an element are what is shown for them, broken items aside.**  What is written for
the classes of an element that is read has a single value; each word that is a class is among the
words of that value; and if the classes were given as a text, or as a list of texts, all words of the
value are classes but those that come from a broken item.  So it is for the class that the search goes
by: a block of code is found by what is shown for it. -/
theorem shown_classes {value className : Json} {tagName : String} {properties : Properties}
    {children : List Node} {position : Option Position} {extra : Members Json}
    (hordered : value.Ordered)
    (hread : Node.ofJson value = .ok (.element tagName properties children position extra))
    (hclass : (value.get? "properties").bind (·.get? classProperty) = some className)
    (hlists : ListsClasses className) :
    ∃ shown, (∀ other, ShowsClasses properties other ↔ other = shown) ∧
      (∀ word, IsWord word → Agrees className shown word (hasClass properties word)) ∧
      ∀ language preProperties prePosition preExtra, ¬ HasBlank language → tagName = "code" →
        Agrees className shown (Diagram.languageClass language)
          (Diagram.IsBlock language (.element "pre" preProperties
            [.element tagName properties children position extra] prePosition preExtra)) := by
  have hvalue : Members.get? properties classProperty = some (.ofJson className) := by
    rw [get?_properties_of_ofJson hordered hread, hclass, Option.map_some]
  have hnames : properties.names.Nodup :=
    (Node.canonical_of_ofJson hordered hread).here.1.1.nodup
  obtain ⟨shown, hshown⟩ : ∃ shown, (PropertyValue.ofJson className).rendering = .value shown := by
    cases className with
    | str text => exact ⟨text, rfl⟩
    | arr items => exact ⟨_, rendering_ofJson_arr items⟩
    | null | bool _ | num _ | obj _ => cases hlists
  have hagrees (word : String) (hword : IsWord word) :=
    agrees_hasClass hvalue hshown hlists hword
  refine ⟨shown, fun other => showsClasses_iff hnames hvalue hshown, hagrees, ?_⟩
  rintro language preProperties prePosition preExtra hblank rfl
  have hfound : Diagram.IsBlock language (.element "pre" preProperties
      [.element "code" properties children position extra] prePosition preExtra)
      ↔ hasClass properties (Diagram.languageClass language) = true := by
    simp [Diagram.IsBlock, Diagram.blockText?]
  rw [hfound]
  exact hagrees _ (isWord_languageClass hblank)

/-- The value of a `code` element with the classes. -/
def codeJson (className : Json) : Json :=
  .obj [("children", .arr []), ("properties", .obj [(classProperty, className)]),
    ("tagName", .str "code"), ("type", .str "element")]

/-- The value of the element is in order if its classes are. -/
theorem ordered_codeJson {className : Json} (h : className.Ordered) :
    (codeJson className).Ordered := by
  have h₁ : "children" < "properties" := by decide
  have h₂ : "properties" < "tagName" := by decide
  have h₃ : "tagName" < "type" := by decide
  simp [codeJson, Json.ordered_obj, Json.ordered_arr, Members.sorted_cons, Members.sorted_nil, h,
    h₁, h₂, h₃, -String.lt_iff_ltb]

/-- An item with a blank is shown as two words; the class of the language stands on its own. -/
theorem shown_classes_of_list :
    let className : Json := .arr [.str "hl wide", .str "language-js"]
    let properties : Properties := [(classProperty, .list ["hl wide", "language-js"])]
    let code : Node := .element "code" properties [] none []
    (codeJson className).Ordered ∧ Node.ofJson (codeJson className) = .ok code ∧
      ShowsClasses properties "hl wide language-js" ∧
      Agrees className "hl wide language-js" "wide" (hasClass properties "wide") ∧
      Agrees className "hl wide language-js" "language-js"
        (Diagram.IsBlock "js" (.element "pre" [] [code] none [])) := by
  intro className properties code
  have hordered : (codeJson className).Ordered :=
    ordered_codeJson (by simp [className, Json.ordered_arr])
  have hread : Node.ofJson (codeJson className) = .ok code := rfl
  have hshows : ShowsClasses properties "hl wide language-js" :=
    ⟨[], _, [], "hl wide language-js", rfl, by decide, by decide, by decide⟩
  obtain ⟨shown, hshown, hwords, hblocks⟩ := shown_classes hordered hread rfl trivial
  cases (hshown _).mp hshows
  exact ⟨hordered, hread, hshows, hwords "wide" ⟨by decide, by decide⟩,
    hblocks "js" [] none [] (by decide) rfl⟩

/-- A word that is shown need not be a class: the item it comes from is one class, blank and all. -/
theorem not_forall_words_are_classes :
    ¬ ∀ (value className : Json) (tagName : String) (properties : Properties)
        (children : List Node) (position : Option Position) (extra : Members Json),
        value.Ordered →
        Node.ofJson value = .ok (.element tagName properties children position extra) →
        (value.get? "properties").bind (·.get? classProperty) = some className →
        ListsClasses className →
        ∀ shown, ShowsClasses properties shown → ∀ word, IsWord word →
          (hasClass properties word = true ↔ word ∈ asciiWords shown) := by
  intro hall
  have hordered : (codeJson (.arr [.str "language-mermaid hl"])).Ordered :=
    ordered_codeJson (by simp [Json.ordered_arr])
  have hshows : ShowsClasses [(classProperty, .list ["language-mermaid hl"])]
      "language-mermaid hl" :=
    ⟨[], _, [], "language-mermaid hl", rfl, by decide, by decide, by decide⟩
  have hiff := hall _ _ "code" _ [] none [] hordered rfl rfl trivial _ hshows "language-mermaid"
    ⟨by decide, by decide⟩
  exact absurd (hiff.mpr (by decide)) (by decide)

end Hypermark.Hast
