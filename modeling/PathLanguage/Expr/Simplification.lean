/-
Simplification: rules applied from the leaves up until none applies any more, so that constants
are computed, positions become ranges and steps become axes. Each rule keeps the meaning.
-/
import PathLanguage.Evaluation.Value
import PathLanguage.Function.Resource

namespace PathLanguage.Expr

/-- The operand of a call with one argument, not bound to a node. -/
def operand? (f : SystemFunction) : Expr → Option Expr
  | .call g [a] none _ => if g = f then some a else none
  | _ => none

/-- A call without arguments, not bound to a node. -/
def isPlainCall (f : SystemFunction) : Expr → Bool
  | .call g [] none _ => g == f
  | _ => false

def number? : Expr → Option Number
  | .value (.number n) => some n
  | _ => none

/-- A string or number constant, for which comparisons have forms of their own. -/
def scalar? : Expr → Option Value
  | .value (.string s) => some (.string s)
  | .value (.number n) => some (.number n)
  | _ => none

/-- Whether nodes come in the order of sort keys, which a set operation must turn back into
document order. -/
def isKeyOrdered : Expr → Bool
  | .sorted .. => true
  | .filter base _ => isKeyOrdered base
  | _ => false

def ofBool (b : Bool) : Expr := .value (.boolean b)

/-- The set without nodes. -/
def emptySet : Expr := .value (.nodeSet .empty)

def callOf (f : SystemFunction) (args : List Expr) : Expr := .call f args none none

/-- The truth of an expression, called for unless the expression is boolean by itself. -/
def truthOf (e : Expr) : Expr := if e.type = .boolean then e else callOf .boolean [e]

def stringOf (e : Expr) : Expr := if e.type = .string then e else callOf .string [e]

/-- The positions from `least` to `most`, which are none if they cross. -/
def positions (least most : Nat) : Expr :=
  if most < least then ofBool false else .positionRange least most

/-- Bounds from here on stand for an open end. -/
def farPosition : Number := .ofNat 1000000000000000

/-- A bound on positions, cut to the positions there are. -/
def positionOf (x : Number) : Nat :=
  if farPosition.le x then openEnd else ((x.max 0).truncate?).getD 0

/-- The positions that stand in a relation to a number, unless they are all but one. -/
def positionsBy? (n : Number) : Comparison → Option Expr
  | .equal =>
    if n.isWhole && (1 : Number).le n then some (positions (positionOf n) (positionOf n))
    else some (ofBool false)
  | .unequal => none
  | .less => some (positions 1 (positionOf (n.ceil - 1)))
  | .atMost => some (positions 1 (positionOf n.floor))
  | .greater =>
    if n.eq (.infinite false) then some (ofBool false)
    else some (positions (max (positionOf (n.floor + 1)) 1) openEnd)
  | .atLeast =>
    if n.eq (.infinite false) then some (ofBool false)
    else some (positions (max (positionOf n.ceil) 1) openEnd)

/-- A comparison of the position with the last one. -/
def positionToLast : Comparison → Expr
  | .equal | .atLeast => .isLast true
  | .unequal | .less => .isLast false
  | .atMost => ofBool true
  | .greater => ofBool false

/-- `position() op N` as a range, and `position() op last()` as a test for the last position. -/
def comparePosition? (op : Comparison) (l r : Expr) : Option Expr :=
  if !l.isPlainCall .position then none
  else if r.isPlainCall .last then some (positionToLast op)
  else match r.number? with
    | none => none
    | some n => if n.isNaN then some (ofBool (op == .unequal)) else positionsBy? n op

/-- What is not empty exactly if a count of nodes or characters is not zero. -/
def counted? (e : Expr) : Option Expr :=
  match e.operand? .count, e.operand? .stringLength with
  | some nodes, _ => some nodes
  | none, some text => some (stringOf text)
  | none, none => if e.isPlainCall .stringLength then some (callOf .string []) else none

/-- `count(X) op 0` and `string-length(X) op 0` as tests for emptiness. -/
def compareWithZero? (op : Comparison) (l r : Expr) : Option Expr :=
  match r.number?, l.counted? with
  | some n, some thing =>
    if !n.eq 0 then none
    else some <| match op with
      | .equal | .atMost => callOf .not [thing]
      | .unequal | .greater => truthOf thing
      | .atLeast => ofBool true
      | .less => ofBool false
  | _, _ => none

/-- The rules for numeric comparisons, with the number on the right if it stands on the left. -/
def compareNumeric? (op : Comparison) (l r : Expr) : Option Expr :=
  let direct := (compareWithZero? op l r).or (comparePosition? op l r)
  let swapped :=
    if l.number?.isSome then
      (compareWithZero? op.inverse r l).or (comparePosition? op.inverse r l)
    else none
  let lastFirst :=
    if l.isPlainCall .last && r.isPlainCall .position then comparePosition? op.inverse r l
    else none
  (direct.or swapped).or lastFirst

/-- Comparisons of nodes with a constant, which is put on the right. -/
def compareNodesTo? (op : Comparison) (l r : Expr) : Option Expr :=
  match r.scalar? with
  | some v =>
    if l.isSingleton then some (.compareNode op l v)
    else if l.type = .nodeSet then some (.compareNodes op l v)
    else none
  | none =>
    if l.scalar?.isSome && (r.isSingleton || r.type == .nodeSet) then
      some (.compare op.inverse r l)
    else none

/-- Set operations with an empty operand. What comes in the order of sort keys is kept, for the
operation to put in document order. -/
def setRule? (op : SetOperator) (l r : Expr) : Option Expr :=
  match op with
  | .union =>
    if l.isEmptyNodeSet && !r.isKeyOrdered then some r
    else if r.isEmptyNodeSet && !l.isKeyOrdered then some l
    else none
  | .except =>
    if r.isEmptyNodeSet then (if l.isKeyOrdered then none else some l)
    else if l.isEmptyNodeSet then some emptySet
    else none
  | .intersect => if l.isEmptyNodeSet || r.isEmptyNodeSet then some emptySet else none

/-- The start of the step `//` that an expression ends in. -/
def descendantStart? : Expr → Option Expr
  | .path start .descendantOrSelf .any [] => some start
  | .axis .descendantOrSelf .any none => some .contextNode
  | _ => none

/-- The rules for paths whose predicates are simple: steps that stay where they are, steps from the
context node, and `S//x` as one step, unless a predicate counts positions. -/
def stepRule? (start : Expr) (along : Axis) (test : NodeTest) (predicates : List Expr) :
    Option Expr :=
  match start, along, test, predicates with
  | _, .self, .any, [] => some start
  | .contextNode, .attribute, .named .attribute name, [] => some (.attribute name)
  | .contextNode, _, _, [] => some (.axis along test none)
  | _, .child, _, _ =>
    if predicates.any isPositional then none
    else start.descendantStart?.map fun origin => .path origin .descendant test predicates
  | _, _, _, _ => none

/-- The range of nodes that two filters on positions without an end leave. -/
def mergeRanges? : (base predicate : Expr) → Option Expr
  | .filter base (.positionRange first m), .positionRange second n =>
    if m = openEnd ∧ n = openEnd then
      some (.filter base (.positionRange (min (first + second) openEnd - 1) openEnd))
    else none
  | _, _ => none

/-- Whether a call asks for a function that the scope of the call surely offers. -/
def isSurelyAvailable : (scope : Option Scope) → (args : List Expr) → Bool
  | some s, [.value (.string text)] =>
    match Function.resolveName (some s) text with
    | .ok name => !name.uri.any s.isExtensionNamespace && s.isFunctionAvailable name
    | .error _ => false
  | _, _ => false

/-- The truth of a constant that is no number; a number stands for a position. -/
def constantTruth (T : Transformation) (E : Engine) : Expr → StateM Session (Option Bool)
  | .value (.number _) => return none
  | .value v => return (← (v.asBoolean T E).attempt).toOption
  | _ => return none

/-- Whether the form admits evaluation before any context is known. -/
def isFoldable (e : Expr) : Bool :=
  !(e.isValue || e.isNodeSetExpr) && e.dependencies.isEmpty && e.children.all isValue &&
    match e with
    | .failure _ | .reference _ | .extension .. => false
    | .call f _ _ _ => f.isFoldable
    | _ => true

/-- The value of an expression whose operands are all constants. One that fails is left, to fail
when it is evaluated. -/
def fold? (E : Engine) (e : Expr) : StateM Session (Option Expr) := do
  if !e.isFoldable then return none
  return ((← (E.value e .blank).attempt).toOption).map .value

def logicalRule? (T : Transformation) (E : Engine) (op : Connective) (l r : Expr) :
    StateM Session (Option Expr) := do
  match (← constantTruth T E l).or (l.number?.map Number.truth) with
  | some known =>
    return some <| match op, known with
      | .and, false => ofBool false
      | .or, true => ofBool true
      | _, _ => truthOf r
  | none =>
    match op, l, r with
    | .and, .positionRange a b, .positionRange c d => return some (positions (max a c) (min b d))
    | _, _, _ => fold? E (.logical op l r)

def comparisonRule? (E : Engine) (op : Comparison) (l r : Expr) :
    StateM Session (Option Expr) := do
  match compareNodesTo? op l r with
  | some e => return some e
  | none => return (← fold? E (.compare op l r)).or (compareNumeric? op l r)

def filterRule? (T : Transformation) (E : Engine) (base predicate : Expr) :
    StateM Session (Option Expr) := do
  if base.isEmptyNodeSet then return some base
  match ← constantTruth T E predicate with
  | some true => return some base
  | some false => return some emptySet
  | none =>
    if predicate.isPlainCall .last then return some (.filter base (.isLast true))
    return mergeRanges? base predicate

/-- The predicates of a step without those that always hold, and with tests for the last position
in their own form; tells whether any was changed. Nothing is left if one never holds. -/
def simplePredicates? (T : Transformation) (E : Engine) :
    List Expr → StateM Session (Option (List Expr × Bool))
  | [] => return some ([], false)
  | p :: rest => do
    match ← constantTruth T E p with
    | some false => return none
    | some true => return (← simplePredicates? T E rest).map fun (ps, _) => (ps, true)
    | none =>
      let more ← simplePredicates? T E rest
      if p.isPlainCall .last then return more.map fun (ps, _) => (.isLast true :: ps, true)
      return more.map fun (ps, changed) => (p :: ps, changed)

def pathRule? (T : Transformation) (E : Engine) (start : Expr) (along : Axis) (test : NodeTest)
    (predicates : List Expr) : StateM Session (Option Expr) := do
  if start.isEmptyNodeSet then return some start
  match ← simplePredicates? T E predicates with
  | none => return some emptySet
  | some (ps, true) => return some (.path start along test ps)
  | some (_, false) => return stepRule? start along test predicates

/-- One application of a rule to the expression itself, if one applies. -/
def applyRule? (T : Transformation) (E : Engine) (e : Expr) : StateM Session (Option Expr) :=
  match e with
  | .logical op l r => logicalRule? T E op l r
  | .compare op l r => comparisonRule? E op l r
  | .filter base predicate => filterRule? T E base predicate
  | .path start along test predicates => pathRule? T E start along test predicates
  | .set op l r => return setRule? op l r
  | .reference b => return b.constant.map fun c => .value c.toValue
  | .call .functionAvailable args none scope =>
    return if isSurelyAvailable scope args then some (ofBool true) else none
  | .template [] => return some (.value (.string ""))
  | .template [only] => return some (stringOf only)
  | _ => fold? E e

mutual

/-- A weight that every rule lowers. -/
def weight : Expr → Nat
  | .value (.string _) | .value (.number _) | .value (.boolean _) => 1
  | .path start _ _ predicates => 2 + start.weight + weights predicates
  | .filter b p => 2 + b.weight + p.weight
  | .set _ l r => 2 + l.weight + r.weight
  | .distinct b => 2 + b.weight
  | .distinctBy b k => 2 + b.weight + k.weight
  | .logical _ l r => 3 + l.weight + r.weight
  | .compare _ l r => 2 + l.weight + 2 * r.weight
  | .arithmetic _ l r => 2 + l.weight + r.weight
  | .compareNode _ e _ | .compareNodes _ e _ | .negate e => 2 + e.weight
  | .call _ args _ _ => 3 + weights args
  | .extension _ args => 2 + weights args
  | .template parts => 4 + weights parts
  | .sorted b keys _ => 2 + b.weight + weights keys
  | .axis .. => 3
  | _ => 2

def weights : List Expr → Nat
  | [] => 0
  | e :: rest => e.weight + weights rest

end

/-- Applies rules to the expression itself, at most a number of times. -/
def applyRulesUpTo (T : Transformation) (E : Engine) :
    (limit : Nat) → Expr → Bool → StateM Session (Expr × Bool)
  | 0, e, changed => return (e, changed)
  | n + 1, e, changed => do
    match ← e.applyRule? T E with
    | none => return (e, changed)
    | some r => applyRulesUpTo T E n r true

/-- Applies rules to the expression itself as long as one applies. -/
def applyRules (T : Transformation) (E : Engine) (e : Expr) (changed : Bool) :
    StateM Session (Expr × Bool) :=
  applyRulesUpTo T E e.weight e changed

mutual

/-- The simplified expression, and whether it differs from the given one. -/
def simplify (T : Transformation) (E : Engine) : Expr → StateM Session (Expr × Bool)
  | .path start along test predicates => do
    let (start, a) ← start.simplify T E
    let (predicates, b) ← simplifyAll T E predicates
    applyRules T E (.path start along test predicates) (a || b)
  | .filter base predicate => do
    let (base, a) ← base.simplify T E
    let (predicate, b) ← predicate.simplify T E
    applyRules T E (.filter base predicate) (a || b)
  | .set op l r => do
    let (l, a) ← l.simplify T E
    let (r, b) ← r.simplify T E
    applyRules T E (.set op l r) (a || b)
  | .distinct base => do
    let (base, a) ← base.simplify T E
    applyRules T E (.distinct base) a
  | .distinctBy base key => do
    let (base, a) ← base.simplify T E
    let (key, b) ← key.simplify T E
    applyRules T E (.distinctBy base key) (a || b)
  | .logical op l r => do
    let (l, a) ← l.simplify T E
    let (r, b) ← r.simplify T E
    applyRules T E (.logical op l r) (a || b)
  | .compare op l r => do
    let (l, a) ← l.simplify T E
    let (r, b) ← r.simplify T E
    applyRules T E (.compare op l r) (a || b)
  | .arithmetic op l r => do
    let (l, a) ← l.simplify T E
    let (r, b) ← r.simplify T E
    applyRules T E (.arithmetic op l r) (a || b)
  | .compareNode op n v => do
    let (n, a) ← n.simplify T E
    applyRules T E (.compareNode op n v) a
  | .compareNodes op n v => do
    let (n, a) ← n.simplify T E
    applyRules T E (.compareNodes op n v) a
  | .negate e => do
    let (e, a) ← e.simplify T E
    applyRules T E (.negate e) a
  | .call f args bound scope => do
    let (args, a) ← simplifyAll T E args
    applyRules T E (.call f args bound scope) a
  | .extension name args => do
    let (args, a) ← simplifyAll T E args
    applyRules T E (.extension name args) a
  | .template parts => do
    let (parts, a) ← simplifyAll T E parts
    applyRules T E (.template parts) a
  | .sorted base keys rules => do
    let (base, a) ← base.simplify T E
    let (keys, b) ← simplifyAll T E keys
    applyRules T E (.sorted base keys rules) (a || b)
  | e => applyRules T E e false

def simplifyAll (T : Transformation) (E : Engine) : List Expr → StateM Session (List Expr × Bool)
  | [] => return ([], false)
  | e :: rest => do
    let (e, a) ← e.simplify T E
    let (rest, b) ← simplifyAll T E rest
    return (e :: rest, a || b)

end

end PathLanguage.Expr
