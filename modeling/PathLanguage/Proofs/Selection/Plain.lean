/- The plain meaning of selections: the nodes that a path, a filter, a set operation or a choice of
distinct nodes stands for, once it is known what predicates, keys and operands evaluate to. -/
import PathLanguage.Evaluation.Context
import PathLanguage.Proofs.NodeSet.DocumentOrder

namespace PathLanguage

open Node (docOrder)

/-- The nodes of an axis that pass a test, in axis order. -/
def Node.step (n : Node) (axis : Axis) (test : NodeTest) : List Node :=
  (n.along axis).filter fun m => test.accepts m

/-- The set that an operation makes of two sets, in document order if these are. -/
def SetOperator.combine : SetOperator → List Node → List Node → List Node
  | .union, l, r => docOrder (l ++ r)
  | .intersect, l, r => l.filter fun n => r.any n.same
  | .except, l, r => l.filter fun n => !r.any n.same

/-- What the evaluations that a selection calls for say. -/
structure Oracle where
  /-- Whether a predicate holds of a node at a position among `size` nodes. -/
  truth : Expr → Context → Node → (position size : Nat) → Bool → Prop
  /-- The string of a key for a node. -/
  text : Expr → Context → Node → String → Prop
  /-- The node-set that is the value of an expression which is no selection. -/
  value : Expr → Context → NodeSet → Prop
  /-- The nodes kept for a lazy node-set. -/
  kept : Nat → Extent → Prop

/-- The first node of each text in a list, where some texts were seen before. -/
inductive Firsts (text : Node → String → Prop) : List String → List Node → List Node → Prop
  | nil (seen : List String) : Firsts text seen [] []
  | fresh {seen : List String} {n : Node} {ns ms : List Node} {k : String} :
      text n k → k ∉ seen → Firsts text (k :: seen) ns ms → Firsts text seen (n :: ns) (n :: ms)
  | known {seen : List String} {n : Node} {ns ms : List Node} {k : String} :
      text n k → k ∈ seen → Firsts text seen ns ms → Firsts text seen (n :: ns) ms

namespace Oracle

/-- What a predicate leaves of a list, whose nodes come after `position` others of `size` in all. -/
inductive Picks (J : Oracle) (p : Expr) (c : Context) (size : Nat) :
    (position : Nat) → List Node → List Node → Prop
  | nil (position : Nat) : Picks J p c size position [] []
  | pick {position : Nat} {n : Node} {ns ms : List Node} :
      J.truth p c n (position + 1) size true → Picks J p c size (position + 1) ns ms →
      Picks J p c size position (n :: ns) (n :: ms)
  | pass {position : Nat} {n : Node} {ns ms : List Node} :
      J.truth p c n (position + 1) size false → Picks J p c size (position + 1) ns ms →
      Picks J p c size position (n :: ns) ms

/-- What predicates leave of a list one after the other, each with the positions and the size of the
list that it is applied to. -/
inductive Narrows (J : Oracle) (c : Context) : List Expr → List Node → List Node → Prop
  | nil (ns : List Node) : Narrows J c [] ns ns
  | cons {p : Expr} {ps : List Expr} {ns ms ks : List Node} :
      J.Picks p c ns.length 0 ns ms → Narrows J c ps ms ks → Narrows J c (p :: ps) ns ks

/-- The text by which distinct nodes are told apart: that of a key, or their own. -/
def textBy (J : Oracle) (key : Option (Expr × Context)) (n : Node) (k : String) : Prop :=
  match key with
  | none => k = n.stringValue
  | some (e, c) => J.text e c n k

/-- The nodes, in document order and each once, that an expression stands for in a context. The
definition of a lazy node-set is read in the global context. -/
inductive Selects (J : Oracle) (globalContext : Context) : Expr → Context → List Node → Prop
  | root {c : Context} {n : Node} : c.node? = some n → Selects J globalContext .root c [n.top]
  | contextNode {c : Context} {n : Node} : c.node? = some n →
      Selects J globalContext .contextNode c [n]
  | parentNode {c : Context} {n : Node} : c.node? = some n →
      Selects J globalContext .parentNode c n.parent.toList
  | currentNode {c : Context} {n : Node} : c.current? = some n →
      Selects J globalContext .currentNode c [n]
  | attribute {c : Context} {n : Node} (name : ExpandedName) : c.node? = some n →
      Selects J globalContext (.attribute name) c
        (n.attributes.find? fun a => a.expandedName == some name).toList
  | axis {c : Context} {n : Node} {origin : Option Node} (along : Axis) (test : NodeTest) :
      (origin <|> c.node?) = some n →
      Selects J globalContext (.axis along test origin) c (docOrder (n.step along test))
  | path {c : Context} {start : Expr} {along : Axis} {test : NodeTest} {predicates : List Expr}
      {origins : List Node} {reached : List (List Node)} :
      Selects J globalContext start c origins →
      List.Forall₂ (fun o ns => J.Narrows c.ambient predicates (o.step along test) ns)
        origins reached →
      Selects J globalContext (.path start along test predicates) c (docOrder reached.flatten)
  | filter {c : Context} {base predicate : Expr} {ns ms : List Node} :
      Selects J globalContext base c ns → J.Picks predicate c.ambient ns.length 0 ns ms →
      Selects J globalContext (.filter base predicate) c ms
  | set {c : Context} {op : SetOperator} {l r : Expr} {ls rs : List Node} :
      Selects J globalContext l c ls → Selects J globalContext r c rs →
      Selects J globalContext (.set op l r) c (op.combine ls rs)
  | distinct {c : Context} {base : Expr} {ns ms : List Node} :
      Selects J globalContext base c ns → Firsts (J.textBy none) [] ns ms →
      Selects J globalContext (.distinct base) c ms
  | distinctBy {c : Context} {base key : Expr} {ns ms : List Node} :
      Selects J globalContext base c ns → Firsts (J.textBy (some (key, c.ambient))) [] ns ms →
      Selects J globalContext (.distinctBy base key) c ms
  | sorted {c : Context} {base : Expr} {keys : List Expr} {rules : List SortRule}
      {ns : List Node} :
      Selects J globalContext base c ns → Selects J globalContext (.sorted base keys rules) c ns
  | empty {c : Context} : Selects J globalContext (.value (.nodeSet .empty)) c []
  | single {c : Context} {n : Option Node} :
      Selects J globalContext (.value (.nodeSet (.single n true))) c n.toList
  | extent {c : Context} {e : Extent} :
      Selects J globalContext (.value (.nodeSet (.extent e))) c (docOrder e.nodes)
  | kept {c : Context} {id : Nat} {definition : Expr} {e : Extent} : J.kept id e →
      Selects J globalContext (.value (.nodeSet (.intent id definition))) c (docOrder e.nodes)
  | lazy {c : Context} {id : Nat} {definition : Expr} {ns : List Node} :
      Selects J globalContext definition globalContext ns →
      Selects J globalContext (.value (.nodeSet (.intent id definition))) c ns
  | operand {c : Context} {e : Expr} {value : NodeSet} {ns : List Node} :
      e.isNodeSetExpr = false → J.value e c value →
      Selects J globalContext (.value (.nodeSet value)) c ns → Selects J globalContext e c ns

end Oracle

end PathLanguage
