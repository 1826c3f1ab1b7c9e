/-!
# Members of an object

An object is a list of named values in strictly increasing order of names, so that two objects with
the same members are equal and every traversal visits the names in one order.  Names are compared by
code point, which is also the order of their UTF-8 bytes.

* `Members.insert` keeps the order and replaces a value that is already there.
* `Members.Sorted` is the invariant; `ofList` establishes it for any list.
-/

namespace Hypermark

/-- Named values in increasing order of names. -/
abbrev Members (α : Type) := List (String × α)

namespace Members

variable {α : Type}

/-- The names are strictly increasing, hence pairwise different. -/
def Sorted (members : Members α) : Prop :=
  members.Pairwise fun a b => a.1 < b.1

/-- The value of the member `name`. -/
def get? (members : Members α) (name : String) : Option α :=
  members.lookup name

/-- Gives the member `name` the value `value`, at its place in the order. -/
def insert (name : String) (value : α) : Members α → Members α
  | [] => [(name, value)]
  | (n, v) :: rest =>
    if name < n then (name, value) :: (n, v) :: rest
    else if name = n then (name, value) :: rest
    else (n, v) :: insert name value rest

/-- Gives the member `name` the value `value`, if there is such a member. -/
def set (name : String) (value : α) : Members α → Members α
  | [] => []
  | (n, v) :: rest => if n = name then (n, value) :: rest else (n, v) :: set name value rest

/-- The members of a list; of a name that is repeated the last value counts. -/
def ofList (entries : List (String × α)) : Members α :=
  entries.foldl (fun members entry => members.insert entry.1 entry.2) []

/-- The names in order. -/
def names (members : Members α) : List String :=
  members.map Prod.fst

end Members

end Hypermark
