/-! # Descriptions

A description is a tree of display names; a node without children is a candidate, unless it is
the root of an empty suite.
-/

namespace SeededTesting

inductive Description where
  | node (name : String) (children : List Description)
deriving Repr, Inhabited

namespace Description

def name : Description → String
  | .node name _ => name

def children : Description → List Description
  | .node _ children => children

/-- A description without children. -/
def leaf (name : String) : Description :=
  .node name []

/-- A node with children stands for more than one candidate. -/
def isSuite (d : Description) : Bool :=
  !d.children.isEmpty

mutual

/-- The names of the nodes without children, from left to right. -/
def leaves : Description → List String
  | .node name [] => [name]
  | .node _ (child :: children) => child.leaves ++ leavesOfAll children

/-- The names of the leaves of several descriptions. -/
def leavesOfAll : List Description → List String
  | [] => []
  | child :: children => child.leaves ++ leavesOfAll children

end

end Description

end SeededTesting
