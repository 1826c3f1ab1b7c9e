import Hypermark.Proofs.Conversion.Erased
import Hypermark.Proofs.Conversion.Gathered
import Hypermark.Proofs.Conversion.Marked
import Hypermark.Proofs.Preorder

/-!
# Lists, items and checkboxes

What is seen of lists in hypertext are the elements of lists and items, with the classes that tell of
tasks, and the checkboxes (`landmarks`).  In document order they are those of the lists and items in the
Markdown tree: the checkbox of a task comes right behind its item, whatever its first child becomes, and
nothing else makes one (`landmarks_toHast`).  Checkboxes, items and lists each by themselves are picked
out of that list (`tasks_toHast`).
-/

namespace Hypermark.Conversion

open Hast (Properties)
open Mdast.Node (hasRegularTables)

/-- A list, an item of a list, or the checkbox of a task. -/
inductive Landmark where
  | list (ordered : Bool) (position : Option Position) (hasTask : Bool)
  | item (position : Option Position) (isTask : Bool)
  | box (node : Hast.Node)

namespace Landmark

/-- Whether a list is ordered, its position, and whether it has a task. -/
def list? : Landmark → Option (Bool × Option Position × Bool)
  | list ordered position hasTask => some (ordered, position, hasTask)
  | _ => none

/-- The position of an item, and whether it is a task. -/
def item? : Landmark → Option (Option Position × Bool)
  | item position isTask => some (position, isTask)
  | _ => none

/-- The checkbox itself. -/
def box? : Landmark → Option Hast.Node
  | box node => some node
  | _ => none

end Landmark

end Hypermark.Conversion

namespace Hypermark.Mdast

open Conversion (Landmark checkbox isTaskItem)

namespace Node

/-- The node is a list. -/
def isList : Node → Bool
  | branch (.list ..) .. => true
  | _ => false

/-- The node is an ordered list. -/
def isOrderedList : Node → Bool
  | branch (.list ordered ..) .. => ordered
  | _ => false

/-- Whether a task is done; other nodes have no such mark. -/
def checked? : Node → Option Bool
  | branch (.listItem _ checked) .. => checked
  | _ => none

end Node

/-- What is seen of a list or an item, its checkbox aside. -/
def Branch.landmarks (kind : Branch) (children : List Node) (position : Option Position) :
    List Landmark :=
  match kind with
  | list ordered _ _ => [.list ordered position (children.any isTaskItem)]
  | listItem _ checked => [.item position checked.isSome]
  | _ => []

/-- What is to be seen of a node: a list, or an item and its checkbox if it has one. -/
def Node.landmarks : Node → List Landmark
  | node@(branch kind children position) =>
    kind.landmarks children position ++ (node.checked?.map fun done => .box (checkbox done)).toList
  | leaf .. => []

end Hypermark.Mdast

namespace Hypermark.Hast.Node

open Conversion (Landmark)

/-- What is seen of an element of a list. -/
def landmarks (node : Node) : List Landmark :=
  if node.hasTag "input" then [.box node]
  else if node.hasTag "li" then [.item node.position? (hasClass node.properties "task-list-item")]
  else if node.hasTag "ol" || node.hasTag "ul" then
    [.list (node.hasTag "ol") node.position? (hasClass node.properties "contains-task-list")]
  else []

/-- The tags of elements of lists. -/
def landmarkTags : List String := ["input", "li", "ol", "ul"]

/-- An element of another tag is no part of a list. -/
theorem landmarks_of_not_mem {tagName : String} (h : tagName ∉ landmarkTags)
    (properties : Properties) (children : List Node) (position : Option Position)
    (extra : Members Json) : (element tagName properties children position extra).landmarks = [] := by
  simp only [landmarkTags, List.mem_cons, not_or] at h
  obtain ⟨hinput, hitem, hordered, hbullet, -⟩ := h
  simp [landmarks, hasTag, hinput, hitem, hordered, hbullet]

/-- Of an element that is no checkbox its children are not seen. -/
theorem landmarks_element {tagName : String} (h : tagName ≠ "input") (properties : Properties)
    (children : List Node) (position : Option Position) :
    (tag tagName properties children position).landmarks
      = (tag tagName properties [] position).landmarks := by
  simp [landmarks, tag, hasTag, h, position?, Node.properties]

end Hypermark.Hast.Node

namespace Hypermark.Conversion

open Hast (Properties hasClass)
open Hast.Node (landmarks_of_not_mem landmarkTags)
open Mdast.Node (hasRegularTables)

/-! ## In document order -/

/-- A list has the class of lists with tasks if it has one. -/
theorem hasClass_listProperties (ordered : Bool) (start : Option Nat) (hasTask : Bool) :
    hasClass (listProperties ordered start hasTask) "contains-task-list" = hasTask := by
  cases hasTask with
  | false =>
    -- Such a list has no property but its start.
    have hnone : Members.get? (listProperties ordered start false) Hast.classProperty = none := by
      unfold listProperties
      rw [if_neg Bool.false_ne_true]
      cases start with
      | none => rfl
      | some n =>
        dsimp only
        split <;> rfl
    simp [hasClass, Hast.classNames, hnone]
  | true =>
    have htask : listProperties ordered start true = Members.insert Hast.classProperty
        (.list ["contains-task-list"]) (listProperties ordered start false) := rfl
    simp [hasClass, Hast.classNames, htask, Members.get?_insert]

/-- The elements of branches show what the branches show. -/
theorem landmarks_of_wraps {kind : Mdast.Branch} {children : List Mdast.Node} {tagName : String}
    {properties : Properties} (h : Wraps children kind tagName properties)
    (position : Option Position) :
    (Hast.Node.tag tagName properties [] position).landmarks = kind.landmarks children position := by
  cases h with
  | list ordered start spread =>
    cases ordered <;>
      simp [Hast.Node.landmarks, Hast.Node.tag, Hast.Node.hasTag, Hast.Node.position?,
        Hast.Node.properties, hasClass_listProperties, Mdast.Branch.landmarks]
  | item | task => rfl
  | heading depth => exact landmarks_of_not_mem (headingTag_not_mem (by decide) depth) _ _ _ _
  | cell isHead align => cases isHead <;> exact landmarks_of_not_mem (by decide) _ _ _ _
  | paragraph | emphasis | strong | delete | blockquote | link | table | row =>
    exact landmarks_of_not_mem (by decide) _ _ _ _

/-- Leaves show nothing. -/
theorem landmarks_leaf (options : ConversionOptions) (kind : Mdast.Leaf)
    (position : Option Position) :
    (leaf options position kind).value.flatMap
      (fun node => node.preorder.flatMap Hast.Node.landmarks) = [] := by
  cases kind with
  | html value =>
    rw [leaf]
    split <;> rfl
  | _ => rfl

/-- What is seen of lists in hypertext goes with what is to be seen in a document. -/
theorem gathers_landmarks (options : ConversionOptions) :
    Gathers Eq (fun tagName properties position =>
        (Hast.Node.tag tagName properties [] position).landmarks) Mdast.Branch.landmarks
      (fun node => node.preorder.flatMap Hast.Node.landmarks)
      (fun tree => tree.preorder.flatMap Mdast.Node.landmarks) (leaf options) where
  compares := ⟨fun _ => rfl, Eq.trans, fun h h' => by rw [h, h']⟩
  read_lineFeed := rfl
  read_space := rfl
  read_wrapper h children position := by
    have hinput : _ ∉ ["input"] := h.not_mem (by decide) (by decide)
    rw [Hast.Node.flatMap_preorder,
      Hast.Node.landmarks_element (fun heq => hinput (List.mem_singleton.mpr heq))]
    rfl
  read_root _ nodes position := Hast.Node.flatMap_preorder _ (.root nodes position [])
  here_added h := by
    have hnone : ∀ tagName ∈ addedTags, tagName ∉ landmarkTags := by decide
    exact landmarks_of_not_mem (hnone _ h) _ _ _ _
  here_paragraph _ := rfl
  read_checkbox _ _ := rfl
  here_wraps h position := landmarks_of_wraps h position
  place_root _ := rfl
  place_givesWay h _ _ := by
    unfold givesWay at h
    split at h
    all_goals first | rfl | cases h
  leaf kind position := landmarks_leaf options kind position
  source_branch kind children position := by
    rw [Mdast.Node.flatMap_preorder]
    congr 1
    cases kind with
    | listItem spread checked => cases checked <;> rfl
    | _ => rfl

/-- **The hypertext of a tree shows its lists, its items and the checkboxes of its tasks, in document
order and nothing else of the kind.** -/
theorem landmarks_toHast (options : ConversionOptions) {tree : Mdast.Node}
    (h : tree.hasRegularTables) :
    (tree.toHast options).value.preorder.flatMap Hast.Node.landmarks
      = tree.preorder.flatMap Mdast.Node.landmarks :=
  (gathers_landmarks options).toHastBy h

/-! ## One kind by itself -/

section Pick

variable {α β γ : Type} {own : α → List β} {pick : β → Option γ}

/-- What is picked from what is seen of the members of a list, if that is one thing of some of them. -/
theorem filterMap_flatMap_eq_map (test : α → Bool) (see : α → γ)
    (h : ∀ x, (own x).filterMap pick = if test x then [see x] else []) (xs : List α) :
    (xs.flatMap own).filterMap pick = (xs.filter test).map see := by
  rw [List.filterMap_flatMap]
  induction xs with
  | nil => rfl
  | cons x xs ih =>
    rw [List.flatMap_cons, h, ih, List.filter_cons]
    split <;> rfl

end Pick

variable {γ : Type} {pick : Landmark → Option γ}

/-- What is picked from elements of lists, given what is picked from elements with their tags. -/
theorem filterMap_landmarks (test : Hast.Node → Bool) (see : Hast.Node → γ)
    (hseen : ∀ properties children position extra,
      let node (tagName : String) : Hast.Node := .element tagName properties children position extra
      landmarkTags.map (fun tagName => (node tagName).landmarks.filterMap pick)
        = landmarkTags.map fun tagName => if test (node tagName) then [see (node tagName)] else [])
    (hother : ∀ node : Hast.Node, (∀ tagName ∈ landmarkTags, node.hasTag tagName = false) →
      test node = false) (nodes : List Hast.Node) :
    (nodes.flatMap Hast.Node.landmarks).filterMap pick = (nodes.filter test).map see := by
  refine filterMap_flatMap_eq_map test see (fun node => ?_) nodes
  by_cases hmem : ∃ tagName ∈ landmarkTags, node.hasTag tagName = true
  · obtain ⟨tagName, hmem, htag⟩ := hmem
    cases node with
    | element name properties children position extra =>
      obtain rfl : name = tagName := of_decide_eq_true htag
      exact List.map_inj_left.mp (hseen properties children position extra) name hmem
    | root | text | comment | raw | other => cases htag
  · simp only [not_exists, not_and, Bool.not_eq_true] at hmem
    have hnone : node.landmarks = [] := by
      simp [Hast.Node.landmarks, hmem "input" (by decide), hmem "li" (by decide),
        hmem "ol" (by decide), hmem "ul" (by decide)]
    rw [hnone, hother node hmem]
    rfl

/-- The boxes among what is seen of nodes are their checkboxes. -/
theorem boxes_landmarks (nodes : List Hast.Node) :
    (nodes.flatMap Hast.Node.landmarks).filterMap Landmark.box?
      = nodes.filter (Hast.Node.hasTag "input") := by
  rw [filterMap_landmarks (Hast.Node.hasTag "input") id (fun _ _ _ _ => rfl)
    (fun _ h => h "input" (by decide)), List.map_id]

/-- The items among it are their items, marked as tasks by a class. -/
theorem items_landmarks (nodes : List Hast.Node) :
    (nodes.flatMap Hast.Node.landmarks).filterMap Landmark.item?
      = (nodes.filter (Hast.Node.hasTag "li")).map fun item =>
        (item.position?, hasClass item.properties "task-list-item") :=
  filterMap_landmarks _ _ (fun _ _ _ _ => rfl) (fun _ h => h "li" (by decide)) nodes

/-- The lists among it are their lists, with a class if there are tasks in them. -/
theorem lists_landmarks (nodes : List Hast.Node) :
    (nodes.flatMap Hast.Node.landmarks).filterMap Landmark.list?
      = (nodes.filter fun node => node.hasTag "ol" || node.hasTag "ul").map fun list =>
        (list.hasTag "ol", list.position?, hasClass list.properties "contains-task-list") := by
  refine filterMap_landmarks _ _ (fun _ _ _ _ => rfl) (fun _ h => ?_) nodes
  rw [h "ol" (by decide), h "ul" (by decide), Bool.or_false]

/-- The boxes seen of a Markdown tree are those of its tasks. -/
theorem boxes_source (trees : List Mdast.Node) :
    (trees.flatMap Mdast.Node.landmarks).filterMap Landmark.box?
      = (trees.filterMap Mdast.Node.checked?).map checkbox := by
  rw [List.filterMap_flatMap, List.map_filterMap, List.filterMap_eq_flatMap_toList]
  refine List.flatMap_congr fun tree _ => ?_
  cases tree with
  | leaf => rfl
  | branch kind children position =>
    cases kind with
    | listItem spread checked => cases checked <;> rfl
    | _ => rfl

/-- The items seen of it are its items, each a task if it has a mark. -/
theorem items_source (trees : List Mdast.Node) :
    (trees.flatMap Mdast.Node.landmarks).filterMap Landmark.item?
      = (trees.filter Mdast.Node.isListItem).map fun item =>
        (item.position?, item.checked?.isSome) := by
  refine filterMap_flatMap_eq_map _ _ (fun tree => ?_) trees
  cases tree with
  | leaf => rfl
  | branch kind children position =>
    cases kind with
    | listItem spread checked => cases checked <;> rfl
    | _ => rfl

/-- A task is an item that says whether it is done. -/
theorem isTaskItem_eq : isTaskItem = fun node => node.checked?.isSome := by
  funext node
  cases node with
  | leaf => rfl
  | branch kind => cases kind <;> rfl

/-- The lists seen of it are its lists, with tasks if an item has a mark. -/
theorem lists_source (trees : List Mdast.Node) :
    (trees.flatMap Mdast.Node.landmarks).filterMap Landmark.list?
      = (trees.filter Mdast.Node.isList).map fun list =>
        (list.isOrderedList, list.position?,
          list.childList.any fun child => child.checked?.isSome) := by
  refine filterMap_flatMap_eq_map _ _ (fun tree => ?_) trees
  cases tree with
  | leaf => rfl
  | branch kind children position =>
    cases kind with
    | listItem spread checked => cases checked <;> rfl
    | list ordered start spread =>
      exact congrArg (fun test => [(ordered, position, children.any test)]) isTaskItem_eq
    | _ => rfl

/-! ## Tasks -/

/-- **Every task has one checkbox, and tells of itself as an item and in its list**: the elements of
checkboxes, of items and of lists are those of the tasks, the items and the lists of the tree, each in
document order. -/
theorem tasks_toHast (options : ConversionOptions) {tree : Mdast.Node}
    (h : tree.hasRegularTables) :
    let nodes := (tree.toHast options).value.preorder
    nodes.filter (Hast.Node.hasTag "input")
      = (tree.preorder.filterMap Mdast.Node.checked?).map (fun done => .element "input"
        [("checked", .bool done), ("disabled", .bool true), ("type", .string "checkbox")]
        [] none []) ∧
    (nodes.filter (Hast.Node.hasTag "li")).map
        (fun item => (item.position?, hasClass item.properties "task-list-item"))
      = (tree.preorder.filter Mdast.Node.isListItem).map
        (fun item => (item.position?, item.checked?.isSome)) ∧
    (nodes.filter fun node => node.hasTag "ol" || node.hasTag "ul").map
        (fun list =>
          (list.hasTag "ol", list.position?, hasClass list.properties "contains-task-list"))
      = (tree.preorder.filter Mdast.Node.isList).map
        (fun list => (list.isOrderedList, list.position?,
          list.childList.any fun child => child.checked?.isSome)) := by
  intro nodes
  have hall : nodes.flatMap Hast.Node.landmarks = tree.preorder.flatMap Mdast.Node.landmarks :=
    landmarks_toHast options h
  refine ⟨?_, ?_, ?_⟩
  · rw [← boxes_landmarks, hall, boxes_source]
    rfl
  · rw [← items_landmarks, hall, items_source]
  · rw [← lists_landmarks, hall, lists_source]

/-- The first task has no paragraph, so its checkbox gets one, which is taken away again; the tasks of a
list in it and of a quote follow, each with its own checkbox, and the list in it counts its own. -/
theorem tasks_toHast_nested :
    let text (value : String) : Mdast.Node := .leaf (.text value) none
    let item (checked : Option Bool) (children : List Mdast.Node) : Mdast.Node :=
      .branch (.listItem false checked) children none
    let list (children : List Mdast.Node) : Mdast.Node :=
      .branch (.list false none false) children none
    let tree : Mdast.Node := .branch .root [
      list [item (some true) [.leaf (.html "<i>") none, list [item none [], item (some false) []]],
        .branch .blockquote [item (some true) [.branch .paragraph [text "a"] none]] none],
      .branch (.table [none]) [.branch .tableRow [.branch .tableCell [text "b"] none] none] none] none
    let nodes := (tree.toHast {}).value.preorder
    tree.hasRegularTables ∧
    nodes.filter (Hast.Node.hasTag "input") = [true, false, true].map checkbox ∧
    (nodes.filter (Hast.Node.hasTag "li")).map
        (fun item => (item.position?, hasClass item.properties "task-list-item"))
      = [(none, true), (none, false), (none, true), (none, true)] ∧
    (nodes.filter fun node => node.hasTag "ol" || node.hasTag "ul").map
        (fun list =>
          (list.hasTag "ol", list.position?, hasClass list.properties "contains-task-list"))
      = [(false, none, true), (false, none, true)] := by
  intro text item list tree nodes
  have htables : tree.hasRegularTables := by decide
  obtain ⟨hboxes, hitems, hlists⟩ := tasks_toHast {} htables
  refine ⟨htables, ?_, ?_, ?_⟩
  · exact hboxes.trans (by decide)
  · exact hitems.trans (by decide)
  · exact hlists.trans (by decide)

end Hypermark.Conversion
