/-
Walks: the nodes of an axis found one at a time. A walk holds what it has still to look at, and each
turn either finds the next node or only moves on.
-/
import PathLanguage.Tree.Axis

namespace PathLanguage

/-- A subtree to be delivered backwards: the children not yet entered, the last one first, and then
the node itself. -/
structure ReverseFrame where
  node : Node
  children : List Node

inductive Walk where
  /-- Nodes that the tree keeps as a list. -/
  | listed (rest : List Node)
  | ancestors (next : Option Node)
  /-- The subtrees of lists of siblings, the innermost list first. Without an anchor that is all;
  else what follows the anchor comes next. -/
  | forward (stack : List (List Node)) (anchor : Option Node)
  /-- Subtrees entered backwards, then siblings of theirs, then what precedes the anchor. -/
  | backward (stack : List ReverseFrame) (siblings : List Node) (anchor : Option Node)

/-- What one turn of a walk comes to. -/
inductive Walk.Turn where
  | ended
  | found (n : Node) (rest : Walk)
  | moved (rest : Walk)

/-- The sum of a measure over a list. -/
def total {α : Type} (measure : α → Nat) : List α → Nat
  | [] => 0
  | a :: rest => measure a + total measure rest

namespace Tree

mutual

/-- The turns that a walk takes at most to deliver a tree. -/
def turns : Tree → Nat
  | .document _ _ cs | .element _ _ _ _ cs => 2 + forestTurns cs
  | .text _ | .comment _ | .instruction .. => 2

def forestTurns : List Tree → Nat
  | [] => 0
  | t :: ts => turns t + forestTurns ts

end

end Tree

namespace Node

/-- Whether a node is an attribute or a namespace node, which no list of children has. -/
def isAttached : Node → Bool
  | .attribute .. | .namespaceNode .. => true
  | _ => false

/-- The children of the parent, with the place of the node among them. -/
def siblings? : Node → Option (List Node × Nat)
  | .child p i _ => some (p.children, i)
  | _ => none

def turns (n : Node) : Nat := (n.tree?.map Tree.turns).getD 2

/-- The turns that a walk takes at most from an anchor to the root. -/
def turnsAbove : Node → Nat
  | .root _ => 1
  | .child p i _ =>
    2 + total turns (p.children.take i) + total turns (p.children.drop (i + 1)) + p.turnsAbove
  | .attribute p _ _ | .namespaceNode p _ _ => 1 + p.turnsAbove

end Node

namespace ReverseFrame

def of (n : Node) : ReverseFrame := ⟨n, n.children.reverse⟩

def turns (f : ReverseFrame) : Nat := 1 + total Node.turns f.children

end ReverseFrame

namespace Walk

def start (n : Node) : Axis → Walk
  | .child => .listed n.children
  | .attribute => .listed n.attributes
  | .namespaces => .listed n.namespaces
  | .self => .listed [n]
  | .parent => .listed n.parent.toList
  | .ancestor => .ancestors n.parent
  | .ancestorOrSelf => .ancestors (some n)
  | .descendant => .forward [n.children] none
  | .descendantOrSelf => .forward [[n]] none
  | .followingSibling =>
    match n.siblings? with
    | some (ns, i) => .listed (ns.drop (i + 1))
    | none => .listed []
  | .precedingSibling =>
    match n.siblings? with
    | some (ns, i) => .listed (ns.take i).reverse
    | none => .listed []
  | .following =>
    if n.isAttached then
      match n.parent with
      | some p => .forward [p.children] (some p)
      | none => .listed []
    else .forward [] (some n)
  | .preceding => .backward [] [] (if n.isAttached then n.parent else some n)

def turn : Walk → Turn
  | .listed [] => .ended
  | .listed (n :: rest) => .found n (.listed rest)
  | .ancestors none => .ended
  | .ancestors (some n) => .found n (.ancestors n.parent)
  | .forward ((n :: rest) :: stack) anchor =>
    .found n (.forward (n.children :: rest :: stack) anchor)
  | .forward ([] :: stack) anchor => .moved (.forward stack anchor)
  | .forward [] none => .ended
  | .forward [] (some n) =>
    match n.siblings? with
    | some (ns, i) => .moved (.forward [ns.drop (i + 1)] n.parent)
    | none => .moved (.forward [] n.parent)
  | .backward (⟨n, c :: rest⟩ :: stack) siblings anchor =>
    .moved (.backward (.of c :: ⟨n, rest⟩ :: stack) siblings anchor)
  | .backward (⟨n, []⟩ :: stack) siblings anchor => .found n (.backward stack siblings anchor)
  | .backward [] (n :: rest) anchor => .moved (.backward [.of n] rest anchor)
  | .backward [] [] none => .ended
  | .backward [] [] (some n) =>
    match n.siblings? with
    | some (ns, i) => .moved (.backward [] (ns.take i).reverse n.parent)
    | none => .moved (.backward [] [] n.parent)

/-- The turns that a walk takes at most. -/
def turns : Walk → Nat
  | .listed ns => ns.length
  | .ancestors n => (n.map fun n => 1 + n.ancestors.length).getD 0
  | .forward stack anchor =>
    total (fun ns => 1 + total Node.turns ns) stack + (anchor.map Node.turnsAbove).getD 0
  | .backward stack siblings anchor =>
    total ReverseFrame.turns stack + total Node.turns siblings +
      (anchor.map Node.turnsAbove).getD 0

/-- The nodes found within a number of turns. -/
def nodesWithin : (turns : Nat) → Walk → List Node
  | 0, _ => []
  | k + 1, w =>
    match w.turn with
    | .ended => []
    | .found n rest => n :: nodesWithin k rest
    | .moved rest => nodesWithin k rest

/-- All nodes of a walk. -/
def nodes (w : Walk) : List Node := w.nodesWithin w.turns

/-- Whether the nodes to come are known as a list, so that their number is known as well. -/
def isListed : Walk → Bool
  | .listed _ => true
  | _ => false

end Walk

end PathLanguage
