import Hypermark.Hast.Basic
import Hypermark.Json.Printer

/-!
# Writing a tree as JSON

A node is written as an object whose first member is its type; then come the members of its kind, its
position if it has one, and the members that are not interpreted.  `Node.print` writes them in this
order, `Node.toJson` gives the value, whose members are sorted as those of every value are.
-/

namespace Hypermark

namespace Point

/-- The members of a point, in the order they are written. -/
def members (point : Point) : List (String × Json) :=
  [("line", .nat point.line), ("column", .nat point.column)]
    ++ (point.offset.map fun offset => ("offset", Json.nat offset)).toList

end Point

namespace Position

/-- A position in the order it is written. -/
def written (position : Position) : Json :=
  .obj [("start", .obj position.start.members), ("end", .obj position.stop.members)]

/-- A position as a value. -/
def toJson (position : Position) : Json :=
  .obj (Members.ofList [("start", .obj (Members.ofList position.start.members)),
    ("end", .obj (Members.ofList position.stop.members))])

end Position

namespace Hast

namespace PropertyValue

/-- The value of a property as JSON. -/
def toJson : PropertyValue → Json
  | null => .null
  | bool value => .bool value
  | number value => .num value
  | string value => .str value
  | list items => .arr (items.map .str)
  | other value => value

end PropertyValue

/-- Properties as JSON. -/
def propertiesJson (properties : Properties) : Json :=
  .obj (properties.map fun entry => (entry.1, entry.2.toJson))

namespace Node

/-- The members of a root, in the order they are written. -/
def rootMembers (children : List Json) (position : Option Json) (extra : Members Json) :
    List (String × Json) :=
  [("type", .str "root"), ("children", .arr children)]
    ++ (position.map fun p => ("position", p)).toList ++ extra

/-- The members of an element, in the order they are written. -/
def elementMembers (tagName : String) (properties : Properties) (children : List Json)
    (position : Option Json) (extra : Members Json) : List (String × Json) :=
  [("type", .str "element"), ("tagName", .str tagName), ("properties", propertiesJson properties),
    ("children", .arr children)]
    ++ (position.map fun p => ("position", p)).toList ++ extra

/-- The members of a text, a comment or raw markup, in the order they are written. -/
def leafMembers (type value : String) (position : Option Json) (extra : Members Json) :
    List (String × Json) :=
  [("type", .str type), ("value", .str value)]
    ++ (position.map fun p => ("position", p)).toList ++ extra

mutual

/-- A tree with the members of its nodes in the order they are written. -/
def written : Node → Json
  | root children position extra =>
    .obj (rootMembers (writtenAll children) (position.map Position.written) extra)
  | element tagName properties children position extra =>
    .obj (elementMembers tagName properties (writtenAll children) (position.map Position.written)
      extra)
  | text value position extra =>
    .obj (leafMembers "text" value (position.map Position.written) extra)
  | comment value position extra =>
    .obj (leafMembers "comment" value (position.map Position.written) extra)
  | raw value position extra =>
    .obj (leafMembers "raw" value (position.map Position.written) extra)
  | other value => value

/-- Trees with the members of their nodes in the order they are written. -/
def writtenAll : List Node → List Json
  | [] => []
  | node :: nodes => node.written :: writtenAll nodes

end

/-- The JSON text of a tree. -/
def print (node : Node) : String := node.written.print

mutual

/-- A tree as a JSON value. -/
def toJson : Node → Json
  | root children position extra =>
    .obj (Members.ofList
      (rootMembers (toJsonAll children) (position.map Position.toJson) extra))
  | element tagName properties children position extra =>
    .obj (Members.ofList
      (elementMembers tagName properties (toJsonAll children) (position.map Position.toJson) extra))
  | text value position extra =>
    .obj (Members.ofList (leafMembers "text" value (position.map Position.toJson) extra))
  | comment value position extra =>
    .obj (Members.ofList (leafMembers "comment" value (position.map Position.toJson) extra))
  | raw value position extra =>
    .obj (Members.ofList (leafMembers "raw" value (position.map Position.toJson) extra))
  | other value => value

/-- Trees as JSON values. -/
def toJsonAll : List Node → List Json
  | [] => []
  | node :: nodes => node.toJson :: toJsonAll nodes

end

end Node

end Hast

end Hypermark
