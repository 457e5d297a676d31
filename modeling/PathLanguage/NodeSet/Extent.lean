/-
Extents: materialized node-sets, with what is known of their order.
-/
import PathLanguage.Fault
import PathLanguage.Tree.Order

namespace PathLanguage

namespace Node

/-- Inserts a node into a list in document order, unless it is there already. -/
def insertInOrder (n : Node) : List Node → List Node
  | [] => [n]
  | m :: rest =>
    match n.order? m with
    | some .lt | none => n :: m :: rest
    | some .eq => m :: rest
    | some .gt => m :: insertInOrder n rest

/-- Whether all nodes have an order relative to the first. -/
def areOrdered : List Node → Bool
  | [] => true
  | n :: rest => rest.all fun m => (n.order? m).isSome

/-- The distinct nodes of a list in document order. -/
def sortDistinct (ns : List Node) : Except Fault (List Node) :=
  if areOrdered ns then .ok (ns.foldr insertInOrder []) else .error .unordered

/-- The first of some nodes in document order. -/
def earliest (ns : List Node) : Except Fault (Option Node) :=
  if areOrdered ns then
    .ok (ns.foldl (fun best n => match best with
      | some b => if b.order? n = some .gt then some n else some b
      | none => some n) none)
  else .error .unordered

end Node

/-- Nodes in a list. If `sorted` they are in document order without repetition, if `reverse` in the
opposite order. -/
structure Extent where
  nodes : List Node
  sorted : Bool
  reverse : Bool

namespace Extent

/-- An extent of nodes listed by a host, which says whether they are sorted. -/
def ofNodes (nodes : List Node) (sorted : Bool) : Extent :=
  let single := nodes.length ≤ 1
  ⟨nodes, sorted || single, single⟩

/-- An extent of nodes read from a source with known order. -/
def ofSource (nodes : List Node) (sorted reverse : Bool) : Extent :=
  let single := nodes.length ≤ 1
  ⟨nodes, sorted || single, reverse || single⟩

/-- The same nodes in document order without repetition. -/
def sort (e : Extent) : Except Fault Extent :=
  if e.sorted then .ok e
  else if e.reverse then .ok (ofNodes e.nodes.reverse true)
  else return ofNodes (← Node.sortDistinct e.nodes) true

/-- The first node in document order. -/
def first (e : Extent) : Except Fault (Option Node) :=
  if e.sorted then .ok e.nodes.head?
  else if e.reverse then .ok e.nodes.getLast?
  else Node.earliest e.nodes

end Extent

end PathLanguage
