/- The leaves of an expression: what it holds that stands for things outside it. -/
import PathLanguage.Evaluation.Transformation

namespace PathLanguage

inductive Leaf where
  | node (n : Node)
  | extent (e : Extent)
  | lazy (id : Nat) (definition : Expr)
  | call (f : SystemFunction)
  | host (name : ExpandedName)
  | variable (b : Binding)

mutual

def NodeSet.leaves : NodeSet → List Leaf
  | .empty => []
  | .single n _ => n.toList.map .node
  | .extent e => [.extent e]
  | .intent id definition => .lazy id definition :: definition.leaves

def Value.leaves : Value → List Leaf
  | .nodeSet ns => ns.leaves
  | .string _ | .number _ | .boolean _ | .object _ => []

def Expr.leaves : Expr → List Leaf
  | .value v => v.leaves
  | .root | .contextNode | .parentNode | .currentNode | .attribute _ => []
  | .path start _ _ predicates => start.leaves ++ leavesOfAll predicates
  | .axis _ _ origin => origin.toList.map .node
  | .filter base predicate => base.leaves ++ predicate.leaves
  | .set _ l r | .logical _ l r | .compare _ l r | .arithmetic _ l r => l.leaves ++ r.leaves
  | .distinct base => base.leaves
  | .distinctBy base key => base.leaves ++ key.leaves
  | .compareNode _ e v | .compareNodes _ e v => e.leaves ++ v.leaves
  | .negate e => e.leaves
  | .call f args bound _ => .call f :: (leavesOfAll args ++ bound.toList.map .node)
  | .extension name args => .host name :: leavesOfAll args
  | .reference b => [.variable b]
  | .positionRange .. | .isLast _ | .failure _ => []
  | .template parts => leavesOfAll parts
  | .sorted base keys _ => base.leaves ++ leavesOfAll keys

def leavesOfAll : List Expr → List Leaf
  | [] => []
  | e :: rest => e.leaves ++ leavesOfAll rest

end

theorem leavesOfAll_eq (es : List Expr) : leavesOfAll es = es.flatMap Expr.leaves := by
  induction es with
  | nil => rfl
  | cons e es ih => rw [leavesOfAll, ih, List.flatMap_cons]

namespace PositionCheck

def leaves : PositionCheck → List Leaf
  | .among e => e.leaves
  | .none | .first | .last => []

end PositionCheck

namespace Pattern

def leaves : Pattern → List Leaf
  | .step s => leavesOfAll s.predicates ++ s.check.leaves
  | .under _ upper s => upper.leaves ++ (leavesOfAll s.predicates ++ s.check.leaves)
  | .union a b => a.leaves ++ b.leaves
  | .document | .test _ | .id _ | .key .. => []

end Pattern

def KeyDefinition.leaves (d : KeyDefinition) : List Leaf := d.pattern.leaves ++ d.use.leaves

end PathLanguage
