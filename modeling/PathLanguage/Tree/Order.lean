/-
Identity and document order: nodes compare by the steps that lead to them from the root.
-/
import PathLanguage.Fault
import PathLanguage.Tree.Node

namespace PathLanguage

/-- A step from a node to one of its parts. -/
inductive Place where
  | namespaceAt (index : Nat)
  | attributeAt (index : Nat)
  | childAt (index : Nat)
deriving DecidableEq

namespace Place

/-- Namespace nodes precede attributes, which precede children. -/
def rank : Place → Nat × Nat
  | .namespaceAt i => (0, i)
  | .attributeAt i => (1, i)
  | .childAt i => (2, i)

def order (a b : Place) : Ordering := (compare a.rank.1 b.rank.1).then (compare a.rank.2 b.rank.2)

/-- Order of two addresses: an ancestor first, else by the first step that differs. -/
def orderPaths : List Place → List Place → Ordering
  | [], [] => .eq
  | [], _ :: _ => .lt
  | _ :: _, [] => .gt
  | a :: as, b :: bs => (order a b).then (orderPaths as bs)

end Place

namespace Node

/-- The steps from the root, innermost first. -/
def steps : Node → List Place
  | .root _ => []
  | .child p i _ => .childAt i :: p.steps
  | .attribute p i _ => .attributeAt i :: p.steps
  | .namespaceNode p i _ => .namespaceAt i :: p.steps

def address (n : Node) : List Place := n.steps.reverse

/-- Two handles on one place of one document. -/
def same (a b : Node) : Bool := a.document.id == b.document.id && a.steps == b.steps

/-- Document order; nodes of different documents have one only if the documents keep it. -/
def order? (a b : Node) : Option Ordering :=
  if a.document.id = b.document.id then some (Place.orderPaths a.address b.address)
  else if a.document.structural then none
  else some (compare a.document.id b.document.id)

/-- All parts of a node in document order. -/
def parts (n : Node) : List Node := n.namespaces ++ n.attributes ++ n.children

/-- The path from the root to a node. -/
def lineage (n : Node) : List Node := (n :: n.ancestors).reverse

/-- Order of two paths, given the last node that they share: if one of them ends the longer one comes
later, and where they part the places among the parts of the shared node decide. -/
def compareLineages (shared : Option Node) : List Node → List Node → Except Fault Ordering
  | a :: as, b :: bs =>
    if a.same b then compareLineages (some a) as bs
    else match shared with
      | none => .error .unordered
      | some p =>
        match p.parts.findIdx? (·.same a), p.parts.findIdx? (·.same b) with
        | some i, some j => .ok (compare i j)
        | _, _ => .ok .eq
  | as, bs => .ok (compare as.length bs.length)

/-- Document order read off the ancestors alone; nodes of different trees have none. -/
def compareByAncestry (a b : Node) : Except Fault Ordering :=
  if a.same b then .ok .eq else compareLineages none a.lineage b.lineage

/-- Index of a part among all parts of its parent, in document order. -/
def partIndex (parent : Node) : Place → Nat
  | .namespaceAt i => i
  | .attributeAt i => parent.namespaces.length + i
  | .childAt i => parent.namespaces.length + parent.attributes.length + i

/-- The part indexes from the root. -/
def partIndexes : Node → List Nat
  | .root _ => []
  | .child p i _ => p.partIndexes ++ [p.partIndex (.childAt i)]
  | .attribute p i _ => p.partIndexes ++ [p.partIndex (.attributeAt i)]
  | .namespaceNode p i _ => p.partIndexes ++ [p.partIndex (.namespaceAt i)]

/-- An identifier from the place in the document, unique there and usable as a name. -/
def placeId (n : Node) : String := "d" ++ "_".intercalate (n.partIndexes.map toString)

/-- An identifier; documents that are not structural add their own, so it is unique among them. -/
def generateId (n : Node) : String :=
  if n.document.structural then n.placeId else "n" ++ toString n.document.id ++ n.placeId

end Node

end PathLanguage
