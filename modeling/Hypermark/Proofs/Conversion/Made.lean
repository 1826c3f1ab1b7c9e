import Hypermark.Conversion
import Hypermark.Proofs.Hast.Canonical

/-!
# What the conversion makes

The elements that the conversion puts around what it has converted (`Wrapper`), by their tag name and
their properties, and the nodes that it makes of leaves (`LeafNode`).  No wrapper is a `pre`.  In all of
them properties are set one by one (`Made`), so they look like some that were read.
-/

namespace Hypermark.Mdast

/-- The depth of a heading; other branches have none. -/
def Branch.headingDepths : Branch → List Nat
  | heading depth => [depth]
  | _ => []

namespace Node

mutual

/-- The depths of the headings in a tree. -/
def headingDepths : Node → List Nat
  | branch kind children _ => kind.headingDepths ++ headingDepthsAll children
  | leaf .. => []

/-- The depths of the headings in a list of trees. -/
def headingDepthsAll : List Node → List Nat
  | [] => []
  | node :: nodes => node.headingDepths ++ headingDepthsAll nodes

end

end Node

end Hypermark.Mdast

namespace Hypermark.Conversion

open Hast (Properties PropertiesFit PropertyValue)

/-! ## Properties -/

/-- The names of the properties that are set. -/
def propertyNames : List String :=
  ["href", "title", "src", "alt", "className", "start", "type", "checked", "disabled", "align"]

/-- The properties are set one by one, to values that would be read as they are. -/
inductive Made : Properties → Prop
  | nil : Made []
  | insert {properties : Properties} {value : PropertyValue} (h : Made properties) (name : String)
    (hname : name ∈ propertyNames) (hvalue : value.Canonical) :
    Made (Members.insert name value properties)

section Made

variable {properties : Properties} {name : String} {value : PropertyValue}

/-- A single property is made. -/
theorem Made.singleton (hname : name ∈ propertyNames) (hvalue : value.Canonical) :
    Made [(name, value)] :=
  .insert .nil name hname hvalue

/-- A property that is set only if there is a value for it keeps the properties made. -/
theorem Made.optional (h : Made properties) (name : String) (hname : name ∈ propertyNames)
    (value : Option String) : Made (optionalProperty name value properties) := by
  cases value with
  | none => exact h
  | some value => exact h.insert name hname (PropertyValue.canonical_string value)

/-- The properties of an element with classes and nothing else are made. -/
theorem made_onlyClasses (names : List String) : Made (Hast.onlyClasses names) :=
  .singleton (by decide) (PropertyValue.canonical_list names)

/-- So are those of a block of code. -/
theorem made_codeProperties (lang : Option String) : Made (codeProperties lang) := by
  unfold codeProperties
  split
  · exact made_onlyClasses _
  · exact .nil

/-- So are those of an image. -/
theorem made_image (url alt : String) (title : Option String) :
    Made (optionalProperty "title" title [("alt", .string alt), ("src", .string url)]) := by
  have hsource : Made [("src", .string url)] :=
    .singleton (by decide) (PropertyValue.canonical_string url)
  have halt : Made [("alt", .string alt), ("src", .string url)] :=
    hsource.insert "alt" (by decide) (PropertyValue.canonical_string alt)
  exact halt.optional "title" (by decide) title

/-- So are those of a checkbox. -/
theorem made_checkbox (checked : Bool) : Made
    [("checked", .bool checked), ("disabled", .bool true), ("type", .string "checkbox")] := by
  have htype : Made [("type", .string "checkbox")] :=
    .singleton (by decide) (PropertyValue.canonical_string _)
  have hdisabled : Made [("disabled", .bool true), ("type", .string "checkbox")] :=
    htype.insert "disabled" (by decide) (PropertyValue.canonical_bool true)
  exact hdisabled.insert "checked" (by decide) (PropertyValue.canonical_bool checked)

/-- So are those of a list, whether it is numbered or has tasks. -/
theorem made_listProperties (ordered : Bool) (start : Option Nat) (hasTask : Bool) :
    Made (listProperties ordered start hasTask) := by
  have htasks {properties : Properties} (h : Made properties) : Made (if hasTask then
      Members.insert Hast.classProperty (.list ["contains-task-list"]) properties
      else properties) := by
    split
    · exact h.insert Hast.classProperty (by decide) (PropertyValue.canonical_list _)
    · exact h
  unfold listProperties
  refine htasks ?_
  cases start with
  | none => exact .nil
  | some n =>
    dsimp only
    split
    · exact .singleton (by decide) (PropertyValue.canonical_number _)
    · exact .nil

/-- So are those of a cell. -/
theorem made_cellProperties (align : Option Mdast.Align) : Made (cellProperties align) := by
  rcases align with _ | _ | _ | _
  · exact .nil
  all_goals exact .singleton (by decide) (PropertyValue.canonical_string _)

/-- Properties that are made look like some that were read. -/
theorem Made.propertiesFit (h : Made properties) : PropertiesFit properties := by
  induction h with
  | nil => exact Hast.propertiesFit_nil
  | insert _ _ _ hvalue ih => exact Hast.propertiesFit_insert ih hvalue

/-- Properties that are made have no other names than those that are ever set. -/
theorem Made.mem_propertyNames (h : Made properties) :
    ∀ entry ∈ properties, entry.1 ∈ propertyNames := by
  induction h with
  | nil => exact List.forall_mem_nil _
  | insert _ name hname _ ih =>
    intro entry hentry
    rcases Members.mem_insert hentry with rfl | hentry
    · exact hname
    · exact ih entry hentry

end Made

/-! ## Wrappers -/

/-- The tags of the elements that may have no properties. -/
def bareTags : List String :=
  ["p", "em", "strong", "del", "blockquote", "li", "table", "thead", "tbody", "tr"]

/-- The elements that the conversion puts around nodes, given the depths of the headings. -/
inductive Wrapper (depths : List Nat) : String → Properties → Prop
  | bare {tagName : String} (h : tagName ∈ bareTags) : Wrapper depths tagName []
  | heading {depth : Nat} (h : depth ∈ depths) : Wrapper depths ("h" ++ toString depth) []
  | link (url : String) (title : Option String) :
    Wrapper depths "a" (optionalProperty "title" title [("href", .string url)])
  | list (ordered : Bool) (start : Option Nat) (hasTask : Bool) :
    Wrapper depths (if ordered then "ol" else "ul") (listProperties ordered start hasTask)
  | task : Wrapper depths "li" (Hast.onlyClasses ["task-list-item"])
  | cell (isHead : Bool) (align : Option Mdast.Align) :
    Wrapper depths (cellTag isHead) (cellProperties align)

/-- In the tag of a heading only digits follow the first letter. -/
theorem exists_toList_headingTag (depth : Nat) :
    ∃ digits, ("h" ++ toString depth).toList = 'h' :: digits ∧ ∀ c ∈ digits, c.isDigit = true := by
  refine ⟨Nat.toDigits 10 depth, ?_, fun c hc => ?_⟩
  · rw [String.toList_append, Nat.toString_eq_repr, Nat.toList_repr]
    rfl
  · exact Nat.isDigit_of_mem_toDigits (by decide) (by decide) hc

/-- The tag of a heading has a number behind its first letter, so it is not among names that have
none. -/
theorem headingTag_not_mem {names : List String}
    (h : ∀ name ∈ names, name.toList.tail.all Char.isDigit = false) (depth : Nat) :
    "h" ++ toString depth ∉ names := by
  intro hmem
  obtain ⟨digits, hchars, hdigits⟩ := exists_toList_headingTag depth
  have hnot := h _ hmem
  rw [hchars, List.tail_cons, List.all_eq_true.mpr hdigits] at hnot
  cases hnot

variable {depths : List Nat} {tagName : String} {properties : Properties}

/-- The tags of the wrappers that are no headings. -/
def wrapperTags : List String := bareTags ++ ["a", "ul", "ol", "th", "td"]

/-- The tag of a wrapper is one of a fixed list, or that of a heading of a depth that occurs. -/
theorem Wrapper.tag (h : Wrapper depths tagName properties) :
    tagName ∈ wrapperTags ∨ ∃ depth ∈ depths, tagName = "h" ++ toString depth := by
  cases h with
  | bare h => exact .inl (List.mem_append_left _ h)
  | heading h => exact .inr ⟨_, h, rfl⟩
  | link | task => exact .inl (by decide)
  | list ordered => cases ordered <;> exact .inl (by decide)
  | cell isHead => cases isHead <;> exact .inl (by decide)

/-- A wrapper has none of some names, if the fixed tags and the tags of headings are not among
them. -/
theorem Wrapper.not_mem (h : Wrapper depths tagName properties) {names : List String}
    (hfixed : ∀ name ∈ wrapperTags, name ∉ names)
    (hheading : ∀ name ∈ names, name.toList.tail.all Char.isDigit = false) : tagName ∉ names := by
  rcases h.tag with h | ⟨depth, _, rfl⟩
  · exact hfixed tagName h
  · exact headingTag_not_mem hheading depth

/-- No wrapper is a `pre`: those only come from leaves. -/
theorem Wrapper.ne_pre (h : Wrapper depths tagName properties) : tagName ≠ "pre" := by
  have hpre : tagName ∉ ["pre"] := h.not_mem (by decide) (by decide)
  exact fun heq => hpre (List.mem_singleton.mpr heq)

/-- The properties of a wrapper are made. -/
theorem Wrapper.made (h : Wrapper depths tagName properties) : Made properties := by
  cases h with
  | bare | heading => exact .nil
  | link url title =>
    have hurl : Made [("href", .string url)] :=
      .singleton (by decide) (PropertyValue.canonical_string url)
    exact hurl.optional "title" (by decide) title
  | list => exact made_listProperties _ _ _
  | task => exact made_onlyClasses _
  | cell => exact made_cellProperties _

/-! ## Leaves -/

/-- The tags of the elements that have no children. -/
def emptyTags : List String := ["br", "hr", "img", "input"]

/-- The nodes that leaves are converted to. -/
inductive LeafNode (options : ConversionOptions) : Hast.Node → Prop
  | text (value : String) (position : Option Position) : LeafNode options (.text value position [])
  | raw (value : String) (position : Option Position) (h : options.allowDangerousHtml = true) :
    LeafNode options (.raw value position [])
  | childless {tagName : String} {properties : Properties} (position : Option Position)
    (htag : tagName ∈ emptyTags) (h : Made properties) :
    LeafNode options (.tag tagName properties [] position)
  | code {properties : Properties} (content : String) (position : Option Position)
    (h : Made properties) :
    LeafNode options (.tag "code" properties [.plain content] position)
  | codeBlock {properties : Properties} (content : String) (position : Option Position)
    (h : Made properties) :
    LeafNode options (codeBlock properties content position)

/-- A leaf is converted to such nodes. -/
theorem leafNode_of_mem_leaf {options : ConversionOptions} {position : Option Position}
    {kind : Mdast.Leaf} : ∀ node ∈ (leaf options position kind).value, LeafNode options node := by
  have hself {node : Hast.Node} (h : LeafNode options node) : ∀ other ∈ [node],
      LeafNode options other :=
    List.forall_mem_singleton.mpr h
  cases kind with
  | text value => exact hself (.text value position)
  | inlineCode value => exact hself (.code _ position .nil)
  | code value lang info => exact hself (.codeBlock _ position (made_codeProperties lang))
  | math value info => exact hself (.codeBlock value position (made_onlyClasses _))
  | inlineMath value => exact hself (.code value position (made_onlyClasses _))
  | html value =>
    rw [leaf]
    split
    · next hraw => exact hself (.raw value position hraw)
    · exact List.forall_mem_nil _
  | lineBreak =>
    exact List.forall_mem_cons.mpr
      ⟨.childless position (by decide) .nil, hself (.text "\n" none)⟩
  | thematicBreak => exact hself (.childless position (by decide) .nil)
  | image url alt title => exact hself (.childless position (by decide) (made_image url alt title))
  -- All other leaves are left out.
  | _ => exact List.forall_mem_nil _

end Hypermark.Conversion
