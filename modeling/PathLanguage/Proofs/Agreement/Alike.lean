/- Expressions that are the same but for the nodes bound to calls that read no more of a node than its
document, and the values, node-sets and sessions made of such expressions. -/
import PathLanguage.Proofs.Agreement.Demand

namespace PathLanguage

/-- Whether a call reads the document of the node it is applied to, and nothing else of its
context. -/
def SystemFunction.readsDocument : SystemFunction → Bool
  | .id | .unparsedEntityUri => Bool.true
  | _ => Bool.false

/-- Bound nodes that a call does not tell apart. -/
inductive BoundAlike (f : SystemFunction) : Option Node → Option Node → Prop
  | same (b : Option Node) : BoundAlike f b b
  | document {n n' : Node} :
      f.readsDocument = true → n.document = n'.document → BoundAlike f (some n) (some n')

mutual

inductive Expr.Alike : Expr → Expr → Prop
  | value {v v' : Value} : v.Alike v' → Expr.Alike (.value v) (.value v')
  | root : Expr.Alike .root .root
  | contextNode : Expr.Alike .contextNode .contextNode
  | parentNode : Expr.Alike .parentNode .parentNode
  | currentNode : Expr.Alike .currentNode .currentNode
  | attribute (name : ExpandedName) : Expr.Alike (.attribute name) (.attribute name)
  | path {start start' : Expr} (along : Axis) (test : NodeTest) {ps ps' : List Expr} :
      start.Alike start' → AllAlike ps ps' →
      Expr.Alike (.path start along test ps) (.path start' along test ps')
  | axis (along : Axis) (test : NodeTest) (origin : Option Node) :
      Expr.Alike (.axis along test origin) (.axis along test origin)
  | filter {b b' p p' : Expr} :
      b.Alike b' → p.Alike p' → Expr.Alike (.filter b p) (.filter b' p')
  | set (op : SetOperator) {l l' r r' : Expr} :
      l.Alike l' → r.Alike r' → Expr.Alike (.set op l r) (.set op l' r')
  | distinct {b b' : Expr} : b.Alike b' → Expr.Alike (.distinct b) (.distinct b')
  | distinctBy {b b' k k' : Expr} :
      b.Alike b' → k.Alike k' → Expr.Alike (.distinctBy b k) (.distinctBy b' k')
  | logical (op : Connective) {l l' r r' : Expr} :
      l.Alike l' → r.Alike r' → Expr.Alike (.logical op l r) (.logical op l' r')
  | compare (op : Comparison) {l l' r r' : Expr} :
      l.Alike l' → r.Alike r' → Expr.Alike (.compare op l r) (.compare op l' r')
  | compareNode (op : Comparison) {n n' : Expr} {v v' : Value} :
      n.Alike n' → v.Alike v' → Expr.Alike (.compareNode op n v) (.compareNode op n' v')
  | compareNodes (op : Comparison) {n n' : Expr} {v v' : Value} :
      n.Alike n' → v.Alike v' → Expr.Alike (.compareNodes op n v) (.compareNodes op n' v')
  | arithmetic (op : ArithmeticOp) {l l' r r' : Expr} :
      l.Alike l' → r.Alike r' → Expr.Alike (.arithmetic op l r) (.arithmetic op l' r')
  | negate {e e' : Expr} : e.Alike e' → Expr.Alike (.negate e) (.negate e')
  | call (f : SystemFunction) {args args' : List Expr} {b b' : Option Node}
      (scope : Option Scope) : AllAlike args args' → BoundAlike f b b' →
      Expr.Alike (.call f args b scope) (.call f args' b' scope)
  | extension (name : ExpandedName) {args args' : List Expr} :
      AllAlike args args' → Expr.Alike (.extension name args) (.extension name args')
  | reference (b : Binding) : Expr.Alike (.reference b) (.reference b)
  | positionRange (least most : Nat) :
      Expr.Alike (.positionRange least most) (.positionRange least most)
  | isLast (wanted : Bool) : Expr.Alike (.isLast wanted) (.isLast wanted)
  | template {es es' : List Expr} : AllAlike es es' → Expr.Alike (.template es) (.template es')
  | sorted {b b' : Expr} {ks ks' : List Expr} (rules : List SortRule) :
      b.Alike b' → AllAlike ks ks' → Expr.Alike (.sorted b ks rules) (.sorted b' ks' rules)
  | failure (f : Fault) : Expr.Alike (.failure f) (.failure f)

inductive AllAlike : List Expr → List Expr → Prop
  | nil : AllAlike [] []
  | cons {e e' : Expr} {es es' : List Expr} :
      e.Alike e' → AllAlike es es' → AllAlike (e :: es) (e' :: es')

inductive Value.Alike : Value → Value → Prop
  | string (s : String) : Value.Alike (.string s) (.string s)
  | number (n : Number) : Value.Alike (.number n) (.number n)
  | boolean (b : Bool) : Value.Alike (.boolean b) (.boolean b)
  | nodeSet {ns ns' : NodeSet} : ns.Alike ns' → Value.Alike (.nodeSet ns) (.nodeSet ns')
  | object (t : String) : Value.Alike (.object t) (.object t)

inductive NodeSet.Alike : NodeSet → NodeSet → Prop
  | empty : NodeSet.Alike .empty .empty
  | single (n : Option Node) (navigable : Bool) :
      NodeSet.Alike (.single n navigable) (.single n navigable)
  | extent (e : Extent) : NodeSet.Alike (.extent e) (.extent e)
  | intent (id : Nat) {definition definition' : Expr} : definition.Alike definition' →
      NodeSet.Alike (.intent id definition) (.intent id definition')

end

mutual

theorem Expr.Alike.refl : ∀ e : Expr, e.Alike e
  | .value v => .value (Value.Alike.refl v)
  | .root => .root
  | .contextNode => .contextNode
  | .parentNode => .parentNode
  | .currentNode => .currentNode
  | .attribute name => .attribute name
  | .path start along test ps => .path along test (Expr.Alike.refl start) (AllAlike.refl ps)
  | .axis along test origin => .axis along test origin
  | .filter b p => .filter (Expr.Alike.refl b) (Expr.Alike.refl p)
  | .set op l r => .set op (Expr.Alike.refl l) (Expr.Alike.refl r)
  | .distinct b => .distinct (Expr.Alike.refl b)
  | .distinctBy b k => .distinctBy (Expr.Alike.refl b) (Expr.Alike.refl k)
  | .logical op l r => .logical op (Expr.Alike.refl l) (Expr.Alike.refl r)
  | .compare op l r => .compare op (Expr.Alike.refl l) (Expr.Alike.refl r)
  | .compareNode op n v => .compareNode op (Expr.Alike.refl n) (Value.Alike.refl v)
  | .compareNodes op n v => .compareNodes op (Expr.Alike.refl n) (Value.Alike.refl v)
  | .arithmetic op l r => .arithmetic op (Expr.Alike.refl l) (Expr.Alike.refl r)
  | .negate e => .negate (Expr.Alike.refl e)
  | .call f args b scope => .call f scope (AllAlike.refl args) (.same b)
  | .extension name args => .extension name (AllAlike.refl args)
  | .reference b => .reference b
  | .positionRange least most => .positionRange least most
  | .isLast wanted => .isLast wanted
  | .template es => .template (AllAlike.refl es)
  | .sorted b ks rules => .sorted rules (Expr.Alike.refl b) (AllAlike.refl ks)
  | .failure f => .failure f

theorem AllAlike.refl : ∀ es : List Expr, AllAlike es es
  | [] => .nil
  | e :: es => .cons (Expr.Alike.refl e) (AllAlike.refl es)

theorem Value.Alike.refl : ∀ v : Value, v.Alike v
  | .string s => .string s
  | .number n => .number n
  | .boolean b => .boolean b
  | .nodeSet ns => .nodeSet (NodeSet.Alike.refl ns)
  | .object t => .object t

theorem NodeSet.Alike.refl : ∀ ns : NodeSet, ns.Alike ns
  | .empty => .empty
  | .single n navigable => .single n navigable
  | .extent e => .extent e
  | .intent id definition => .intent id (Expr.Alike.refl definition)

end

theorem AllAlike.length_eq {es es' : List Expr} (h : AllAlike es es') :
    es.length = es'.length := by
  induction es generalizing es' with
  | nil => cases h; rfl
  | cons e es ih =>
    cases h with
    | cons _ h => rw [List.length_cons, List.length_cons, ih h]

theorem BoundAlike.isSome {f : SystemFunction} {b b' : Option Node} (h : BoundAlike f b b') :
    b.isSome = b'.isSome := by
  cases h <;> rfl

mutual

theorem Expr.Alike.dependencies : ∀ {e e' : Expr}, e.Alike e' → e.dependencies = e'.dependencies
  | _, _, .value _ => by simp only [Expr.dependencies]
  | _, _, .root | _, _, .contextNode | _, _, .parentNode | _, _, .currentNode
  | _, _, .attribute _ | _, _, .axis .. | _, _, .reference _ | _, _, .positionRange ..
  | _, _, .isLast _ | _, _, .failure _ => rfl
  | _, _, .path _ _ h hs => by
    simp only [Expr.dependencies, Expr.Alike.dependencies h, AllAlike.dependencies hs]
  | _, _, .filter h h' | _, _, .set _ h h' | _, _, .logical _ h h' | _, _, .compare _ h h'
  | _, _, .arithmetic _ h h' | _, _, .distinctBy h h' => by
    simp only [Expr.dependencies, Expr.Alike.dependencies h, Expr.Alike.dependencies h']
  | _, _, .distinct h | _, _, .compareNode _ h _ | _, _, .compareNodes _ h _ | _, _, .negate h => by
    simp only [Expr.dependencies, Expr.Alike.dependencies h]
  | _, _, .call _ _ hs hb => by
    simp only [Expr.dependencies, AllAlike.dependencies hs, AllAlike.length_eq hs, hb.isSome]
  | _, _, .extension _ hs | _, _, .template hs => by
    simp only [Expr.dependencies, AllAlike.dependencies hs]
  | _, _, .sorted _ h hs => by
    simp only [Expr.dependencies, Expr.Alike.dependencies h, AllAlike.dependencies hs]

theorem AllAlike.dependencies : ∀ {es es' : List Expr}, AllAlike es es' →
    dependenciesOfAll es = dependenciesOfAll es'
  | _, _, .nil => rfl
  | _, _, .cons h hs => by
    simp only [dependenciesOfAll, Expr.Alike.dependencies h, AllAlike.dependencies hs]

end

mutual

theorem Expr.Alike.variables : ∀ {e e' : Expr}, e.Alike e' → e.variables = e'.variables
  | _, _, .value _ => by simp only [Expr.variables]
  | _, _, .root | _, _, .contextNode | _, _, .parentNode | _, _, .currentNode
  | _, _, .attribute _ | _, _, .axis .. | _, _, .reference _ | _, _, .positionRange ..
  | _, _, .isLast _ | _, _, .failure _ => rfl
  | _, _, .path _ _ h hs => by
    simp only [Expr.variables, Expr.Alike.variables h, AllAlike.variables hs]
  | _, _, .filter h h' | _, _, .set _ h h' | _, _, .logical _ h h' | _, _, .compare _ h h'
  | _, _, .arithmetic _ h h' | _, _, .distinctBy h h' => by
    simp only [Expr.variables, Expr.Alike.variables h, Expr.Alike.variables h']
  | _, _, .distinct h | _, _, .compareNode _ h _ | _, _, .compareNodes _ h _ | _, _, .negate h => by
    simp only [Expr.variables, Expr.Alike.variables h]
  | _, _, .call _ _ hs _ | _, _, .extension _ hs | _, _, .template hs => by
    simp only [Expr.variables, AllAlike.variables hs]
  | _, _, .sorted _ h hs => by
    simp only [Expr.variables, Expr.Alike.variables h, AllAlike.variables hs]

theorem AllAlike.variables : ∀ {es es' : List Expr}, AllAlike es es' →
    variablesOfAll es = variablesOfAll es'
  | _, _, .nil => rfl
  | _, _, .cons h hs => by
    simp only [variablesOfAll, Expr.Alike.variables h, AllAlike.variables hs]

end

theorem Value.Alike.type {v v' : Value} (h : v.Alike v') : v.type = v'.type := by
  cases h <;> rfl

namespace Expr.Alike

variable {e e' : Expr}

theorem type (h : e.Alike e') : e.type = e'.type := by
  cases h with
  | value h => exact h.type
  | _ => rfl

theorem isNodeSetExpr (h : e.Alike e') : e.isNodeSetExpr = e'.isNodeSetExpr := by
  cases h <;> rfl

theorem isSingleton (h : e.Alike e') : e.isSingleton = e'.isSingleton := by
  cases h <;> rfl

theorem isEmptyNodeSet (h : e.Alike e') : e.isEmptyNodeSet = e'.isEmptyNodeSet := by
  cases h with
  | value h =>
    cases h with
    | nodeSet h => cases h <;> rfl
    | _ => rfl
  | _ => rfl

theorem isPositional (h : e.Alike e') : e.isPositional = e'.isPositional := by
  rw [Expr.isPositional, Expr.isPositional, h.type, h.dependencies]

end Expr.Alike

theorem NodeSet.Alike.isNavigable {ns ns' : NodeSet} (h : ns.Alike ns') :
    ns.isNavigable = ns'.isNavigable := by
  cases h <;> rfl

end PathLanguage
