/-
Reduction: an expression with the parts that read only given dependencies replaced by what they are
in a context. A fault met on the way is left to whoever evaluates the part.
-/
import PathLanguage.Evaluation.Engine

namespace PathLanguage.Expr

/-- Reduces each expression of a list; tells whether one was replaced. -/
def reduceAll (E : Engine) (mask : Dependencies) (context : Context) :
    List Expr → Action (List Expr × Bool)
  | [] => return ([], false)
  | e :: rest => do
    let (r, changed) ← E.reduce mask e context
    let (rs, more) ← reduceAll E mask context rest
    return (r :: rs, changed || more)

/-- The node to bind to a call that reads nothing of its context but the node in focus. -/
def boundNode (mask : Dependencies) (function : SystemFunction) (arity : Nat)
    (bound : Option Node) (context : Context) : Action (Option Node) := do
  let own := function.intrinsic arity
  match bound with
  | some n => return some n
  | none =>
    if own.intersects (mask ∩ .focusNode) && Dependencies.focusNode.contains own then
      return some (← context.node)
    else return none

/-- Replaces an expression by its value if the mask covers all that it reads. -/
def reduceToValue (E : Engine) (mask : Dependencies) (context : Context) (rebuilt : Expr)
    (changed : Bool) : Action (Expr × Bool) := do
  if rebuilt.isNodeSetExpr || !mask.contains rebuilt.dependencies then return (rebuilt, changed)
  match ← (E.value rebuilt context).outcome with
  | .ok v => return (.value v, true)
  | .error .tooDeep => throw .tooDeep
  | .error _ => return (rebuilt, changed)

/-- Reduces both operands of an operation. -/
def reduceTwo (E : Engine) (mask : Dependencies) (context : Context) (make : Expr → Expr → Expr)
    (l r : Expr) : Action (Expr × Bool) := do
  let (l, changed) ← E.reduce mask l context
  let (r, more) ← E.reduce mask r context
  reduceToValue E mask context (make l r) (changed || more)

def reduceOne (E : Engine) (mask : Dependencies) (context : Context) (make : Expr → Expr)
    (e : Expr) : Action (Expr × Bool) := do
  let (e, changed) ← E.reduce mask e context
  reduceToValue E mask context (make e) changed

def reduceMany (E : Engine) (mask : Dependencies) (context : Context) (make : List Expr → Expr)
    (es : List Expr) : Action (Expr × Bool) := do
  let (es, changed) ← reduceAll E mask context es
  reduceToValue E mask context (make es) changed

/-- Predicates and keys are reduced by the part of the mask that stays fixed for them. -/
def reduce (E : Engine) (mask : Dependencies) (e : Expr) (context : Context) :
    Action (Expr × Bool) := do
  if !e.dependencies.intersects mask then return (e, false)
  let inner := mask ∩ .fixedInPredicates
  match e with
  | .root | .contextNode | .parentNode | .currentNode | .attribute _ =>
    return (.value (.nodeSet (.ofOption (← E.head (← E.cursor e context false)))), true)
  | .axis along test _ => return (.axis along test (some (← context.node)), true)
  | .path start along test predicates =>
    let (start, _) ← E.reduce mask start context
    if start.isEmptyNodeSet then return (.value (.nodeSet .empty), true)
    let (predicates, _) ← reduceAll E inner context predicates
    return (.path start along test predicates, true)
  | .filter base predicate =>
    let (base, _) ← E.reduce mask base context
    if base.isEmptyNodeSet then return (base, true)
    let (predicate, _) ← E.reduce inner predicate context
    return (.filter base predicate, true)
  | .distinct base =>
    let (base, _) ← E.reduce mask base context
    return (.distinct base, true)
  | .distinctBy base key =>
    let (base, _) ← E.reduce mask base context
    let (key, _) ← E.reduce inner key context
    return (.distinctBy base key, true)
  | .sorted base keys rules =>
    let (base, _) ← E.reduce mask base context
    let (keys, _) ← reduceAll E (mask ∩ .fixedInSortKeys) context keys
    return (.sorted base keys rules, true)
  | .call function args bound scope =>
    let (args, _) ← reduceAll E mask context args
    let bound ← boundNode mask function args.length bound context
    reduceToValue E mask context (.call function args bound scope) true
  | .set op l r => reduceTwo E mask context (.set op) l r
  | .logical op l r => reduceTwo E mask context (.logical op) l r
  | .compare op l r => reduceTwo E mask context (.compare op) l r
  | .arithmetic op l r => reduceTwo E mask context (.arithmetic op) l r
  | .compareNode op n v => reduceOne E mask context (.compareNode op · v) n
  | .compareNodes op n v => reduceOne E mask context (.compareNodes op · v) n
  | .negate operand => reduceOne E mask context .negate operand
  | .extension name args => reduceMany E mask context (.extension name) args
  | .template parts => reduceMany E mask context .template parts
  | .reference _ | .positionRange .. | .isLast _ | .value _ | .failure _ =>
    reduceToValue E mask context e false

end PathLanguage.Expr
