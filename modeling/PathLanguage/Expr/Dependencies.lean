/-
What an expression reads of its context. Predicates and keys see their own node and position, so
only what stays fixed for them counts.
-/
import PathLanguage.Expr.Basic

namespace PathLanguage

mutual

def Expr.dependencies : Expr → Dependencies
  | .value _ | .failure _ => ∅
  | .root => { contextDocument := true }
  | .contextNode | .parentNode | .attribute _ => { contextNode := true }
  | .currentNode => { currentNode := true }
  | .path start _ _ predicates =>
    start.dependencies ∪ (dependenciesOfAll predicates ∩ .fixedInPredicates)
  | .axis _ _ origin => if origin.isSome then ∅ else { contextNode := true }
  | .filter base predicate => base.dependencies ∪ (predicate.dependencies ∩ .fixedInPredicates)
  | .set _ l r | .logical _ l r | .compare _ l r | .arithmetic _ l r =>
    l.dependencies ∪ r.dependencies
  | .distinct base => base.dependencies
  | .distinctBy base key => base.dependencies ∪ (key.dependencies ∩ .fixedInPredicates)
  | .compareNode _ e _ | .compareNodes _ e _ | .negate e => e.dependencies
  | .call f args bound _ =>
    let own := f.intrinsic args.length
    (if bound.isSome then own \ .focusNode else own) ∪ dependenciesOfAll args
  | .extension _ args =>
    { controller := true, contextNode := true, position := true, last := true,
      contextDocument := true } ∪ dependenciesOfAll args
  | .reference b => if b.constant.isSome then ∅ else { bindings := true }
  | .positionRange .. => { position := true }
  | .isLast _ => { position := true, last := true }
  | .template parts => dependenciesOfAll parts
  | .sorted base keys _ => base.dependencies ∪ (dependenciesOfAll keys ∩ .fixedInSortKeys)

def dependenciesOfAll : List Expr → Dependencies
  | [] => ∅
  | e :: rest => e.dependencies ∪ dependenciesOfAll rest

end

/-- Whether the outcome of a predicate may depend on the position of the node it is applied to. -/
def Expr.isPositional (e : Expr) : Bool :=
  e.type == .number || e.type == .any ||
    e.dependencies.intersects { position := true, last := true }

end PathLanguage
