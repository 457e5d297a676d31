/-
The thirteen axes: their properties, and the nodes of each from an origin in axis order.
-/
import PathLanguage.Tree.Node

namespace PathLanguage

inductive Axis where
  | ancestor
  | ancestorOrSelf
  | attribute
  | child
  | descendant
  | descendantOrSelf
  | following
  | followingSibling
  | namespaces
  | parent
  | preceding
  | precedingSibling
  | self
deriving DecidableEq

namespace Axis

def all : List Axis :=
  [.ancestor, .ancestorOrSelf, .attribute, .child, .descendant, .descendantOrSelf, .following,
    .followingSibling, .namespaces, .parent, .preceding, .precedingSibling, .self]

def name : Axis → String
  | .ancestor => "ancestor"
  | .ancestorOrSelf => "ancestor-or-self"
  | .attribute => "attribute"
  | .child => "child"
  | .descendant => "descendant"
  | .descendantOrSelf => "descendant-or-self"
  | .following => "following"
  | .followingSibling => "following-sibling"
  | .namespaces => "namespace"
  | .parent => "parent"
  | .preceding => "preceding"
  | .precedingSibling => "preceding-sibling"
  | .self => "self"

def ofName? (s : String) : Option Axis := all.find? fun a => a.name == s

/-- The kind of node that a name or a star selects. -/
def principalKind : Axis → NodeKind
  | .attribute => .attribute
  | .namespaces => .namespaceNode
  | _ => .element

/-- Axis order is reverse document order. -/
def isReverse : Axis → Bool
  | .ancestor | .ancestorOrSelf | .preceding | .precedingSibling => true
  | _ => false

/-- Axis order is document order. -/
def isForward (a : Axis) : Bool := !a.isReverse

/-- No node on the axis is an ancestor of another. -/
def isPeer : Axis → Bool
  | .attribute | .child | .namespaces | .parent | .self | .followingSibling | .precedingSibling =>
    true
  | _ => false

/-- The axis stays inside the subtree of its origin. -/
def isSubtree : Axis → Bool
  | .attribute | .child | .descendant | .descendantOrSelf | .namespaces | .self => true
  | _ => false

end Axis

namespace Node

def followingSiblings : Node → List Node
  | .child p i _ => p.children.drop (i + 1)
  | _ => []

/-- The siblings before a node, nearest first. -/
def precedingSiblings : Node → List Node
  | .child p i _ => (p.children.take i).reverse
  | _ => []

/-- The nodes after a node and outside its subtree; attributes count as lying before the children
of their element. -/
def followers : Node → List Node
  | .root _ => []
  | .child p i _ => (p.children.drop (i + 1)).flatMap descendantsOrSelf ++ p.followers
  | .attribute p _ _ | .namespaceNode p _ _ => p.descendants ++ p.followers

/-- The nodes before a node that are not its ancestors, nearest first. -/
def predecessors : Node → List Node
  | .root _ => []
  | .child p i _ => ((p.children.take i).flatMap descendantsOrSelf).reverse ++ p.predecessors
  | .attribute p _ _ | .namespaceNode p _ _ => p.predecessors

/-- The nodes on an axis, in axis order. -/
def along (n : Node) : Axis → List Node
  | .ancestor => n.ancestors
  | .ancestorOrSelf => n :: n.ancestors
  | .attribute => n.attributes
  | .child => n.children
  | .descendant => n.descendants
  | .descendantOrSelf => n.descendantsOrSelf
  | .following => n.followers
  | .followingSibling => n.followingSiblings
  | .namespaces => n.namespaces
  | .parent => n.parent.toList
  | .preceding => n.predecessors
  | .precedingSibling => n.precedingSiblings
  | .self => [n]

end Node

end PathLanguage
