/- Two runs of one computation from sessions with different pasts. What they come to differs only in
the numbers of the lazy node-sets that were made in the course of them: each has one more than its past
accounts for, and its definition echoes that of its counterpart. -/
import PathLanguage.Evaluation.Session
import PathLanguage.Expr.Dependencies
import PathLanguage.Proofs.Expr.Leaves

namespace PathLanguage

/-- The sessions in which two runs began, and whether the runs may load documents. -/
structure Pasts where
  left : Session
  right : Session
  loads : Bool

/-- A function that reads nothing of a session but documents, and these only where they may be
loaded. -/
def SystemFunction.StandsAlone (loads : Bool) (f : SystemFunction) : Prop :=
  f ≠ .key ∧ (f = .document → loads = Bool.true)

/-- What an expression may hold if its evaluation is to depend on no session. -/
def Leaf.StandsAlone (loads : Bool) : Leaf → Prop
  | .node _ | .extent _ => True
  | .call f => f.StandsAlone loads
  | .variable b => b.constant.isSome = true
  | .lazy .. | .host _ => False

/-- An expression that holds no lazy node-set, refers to no variable and calls neither keys nor host
functions. -/
def Expr.StandsAlone (loads : Bool) (e : Expr) : Prop := ∀ l ∈ e.leaves, l.StandsAlone loads

mutual

/-- The same expression in two runs. -/
inductive Expr.Echo (h : Pasts) : Expr → Expr → Prop
  | value {v v' : Value} : v.Echo h v' → Expr.Echo h (.value v) (.value v')
  | root : Expr.Echo h .root .root
  | contextNode : Expr.Echo h .contextNode .contextNode
  | parentNode : Expr.Echo h .parentNode .parentNode
  | currentNode : Expr.Echo h .currentNode .currentNode
  | attribute (name : ExpandedName) : Expr.Echo h (.attribute name) (.attribute name)
  | path {start start' : Expr} (along : Axis) (test : NodeTest) {ps ps' : List Expr} :
      start.Echo h start' → AllEcho h ps ps' →
      Expr.Echo h (.path start along test ps) (.path start' along test ps')
  | axis (along : Axis) (test : NodeTest) (origin : Option Node) :
      Expr.Echo h (.axis along test origin) (.axis along test origin)
  | filter {b b' p p' : Expr} :
      b.Echo h b' → p.Echo h p' → Expr.Echo h (.filter b p) (.filter b' p')
  | set (op : SetOperator) {l l' r r' : Expr} :
      l.Echo h l' → r.Echo h r' → Expr.Echo h (.set op l r) (.set op l' r')
  | distinct {b b' : Expr} : b.Echo h b' → Expr.Echo h (.distinct b) (.distinct b')
  | distinctBy {b b' k k' : Expr} :
      b.Echo h b' → k.Echo h k' → Expr.Echo h (.distinctBy b k) (.distinctBy b' k')
  | logical (op : Connective) {l l' r r' : Expr} :
      l.Echo h l' → r.Echo h r' → Expr.Echo h (.logical op l r) (.logical op l' r')
  | compare (op : Comparison) {l l' r r' : Expr} :
      l.Echo h l' → r.Echo h r' → Expr.Echo h (.compare op l r) (.compare op l' r')
  | compareNode (op : Comparison) {n n' : Expr} {v v' : Value} :
      n.Echo h n' → v.Echo h v' → Expr.Echo h (.compareNode op n v) (.compareNode op n' v')
  | compareNodes (op : Comparison) {n n' : Expr} {v v' : Value} :
      n.Echo h n' → v.Echo h v' → Expr.Echo h (.compareNodes op n v) (.compareNodes op n' v')
  | arithmetic (op : ArithmeticOp) {l l' r r' : Expr} :
      l.Echo h l' → r.Echo h r' → Expr.Echo h (.arithmetic op l r) (.arithmetic op l' r')
  | negate {e e' : Expr} : e.Echo h e' → Expr.Echo h (.negate e) (.negate e')
  | call {f : SystemFunction} {args args' : List Expr} (b : Option Node) (scope : Option Scope) :
      f.StandsAlone h.loads → AllEcho h args args' →
      Expr.Echo h (.call f args b scope) (.call f args' b scope)
  | reference {b : Binding} : b.constant.isSome = true →
      Expr.Echo h (.reference b) (.reference b)
  | positionRange (least most : Nat) :
      Expr.Echo h (.positionRange least most) (.positionRange least most)
  | isLast (wanted : Bool) : Expr.Echo h (.isLast wanted) (.isLast wanted)
  | template {es es' : List Expr} : AllEcho h es es' → Expr.Echo h (.template es) (.template es')
  | sorted {b b' : Expr} {ks ks' : List Expr} (rules : List SortRule) :
      b.Echo h b' → AllEcho h ks ks' → Expr.Echo h (.sorted b ks rules) (.sorted b' ks' rules)
  | failure (f : Fault) : Expr.Echo h (.failure f) (.failure f)

inductive AllEcho (h : Pasts) : List Expr → List Expr → Prop
  | nil : AllEcho h [] []
  | cons {e e' : Expr} {es es' : List Expr} :
      e.Echo h e' → AllEcho h es es' → AllEcho h (e :: es) (e' :: es')

inductive Value.Echo (h : Pasts) : Value → Value → Prop
  | string (s : String) : Value.Echo h (.string s) (.string s)
  | number (n : Number) : Value.Echo h (.number n) (.number n)
  | boolean (b : Bool) : Value.Echo h (.boolean b) (.boolean b)
  | nodeSet {ns ns' : NodeSet} : ns.Echo h ns' → Value.Echo h (.nodeSet ns) (.nodeSet ns')
  | object (t : String) : Value.Echo h (.object t) (.object t)

inductive NodeSet.Echo (h : Pasts) : NodeSet → NodeSet → Prop
  | empty : NodeSet.Echo h .empty .empty
  | single (n : Option Node) (navigable : Bool) :
      NodeSet.Echo h (.single n navigable) (.single n navigable)
  | extent (e : Extent) : NodeSet.Echo h (.extent e) (.extent e)
  | intent (k : Nat) {definition definition' : Expr} : definition.Echo h definition' →
      NodeSet.Echo h (.intent (h.left.intents.length + k) definition)
        (.intent (h.right.intents.length + k) definition')

end

namespace Leaf

variable {loads : Bool} {ls ms : List Leaf}

theorem standsAlone_append (h : ∀ l ∈ ls ++ ms, l.StandsAlone loads) :
    (∀ l ∈ ls, l.StandsAlone loads) ∧ ∀ l ∈ ms, l.StandsAlone loads :=
  List.forall_mem_append.mp h

theorem standsAlone_cons {l : Leaf} (h : ∀ m ∈ l :: ls, m.StandsAlone loads) :
    l.StandsAlone loads ∧ ∀ m ∈ ls, m.StandsAlone loads :=
  List.forall_mem_cons.mp h

end Leaf

mutual

/-- An expression that stands alone is its own counterpart. -/
theorem Expr.echo_self (h : Pasts) : ∀ e : Expr, e.StandsAlone h.loads → e.Echo h e
  | .value v, he => .value (Value.echo_self h v (by rwa [Expr.StandsAlone, Expr.leaves] at he))
  | .root, _ => .root
  | .contextNode, _ => .contextNode
  | .parentNode, _ => .parentNode
  | .currentNode, _ => .currentNode
  | .attribute name, _ => .attribute name
  | .axis along test origin, _ => .axis along test origin
  | .positionRange least most, _ => .positionRange least most
  | .isLast wanted, _ => .isLast wanted
  | .failure f, _ => .failure f
  | .path start along test ps, he => by
    rw [Expr.StandsAlone, Expr.leaves] at he
    obtain ⟨hs, hp⟩ := Leaf.standsAlone_append he
    exact .path along test (Expr.echo_self h start hs) (allEcho_self h ps hp)
  | .filter b p, he => by
    rw [Expr.StandsAlone, Expr.leaves] at he
    obtain ⟨hb, hp⟩ := Leaf.standsAlone_append he
    exact .filter (Expr.echo_self h b hb) (Expr.echo_self h p hp)
  | .set op l r, he => by
    rw [Expr.StandsAlone, Expr.leaves] at he
    obtain ⟨hl, hr⟩ := Leaf.standsAlone_append he
    exact .set op (Expr.echo_self h l hl) (Expr.echo_self h r hr)
  | .distinct b, he => by
    rw [Expr.StandsAlone, Expr.leaves] at he
    exact .distinct (Expr.echo_self h b he)
  | .distinctBy b k, he => by
    rw [Expr.StandsAlone, Expr.leaves] at he
    obtain ⟨hb, hk⟩ := Leaf.standsAlone_append he
    exact .distinctBy (Expr.echo_self h b hb) (Expr.echo_self h k hk)
  | .logical op l r, he => by
    rw [Expr.StandsAlone, Expr.leaves] at he
    obtain ⟨hl, hr⟩ := Leaf.standsAlone_append he
    exact .logical op (Expr.echo_self h l hl) (Expr.echo_self h r hr)
  | .compare op l r, he => by
    rw [Expr.StandsAlone, Expr.leaves] at he
    obtain ⟨hl, hr⟩ := Leaf.standsAlone_append he
    exact .compare op (Expr.echo_self h l hl) (Expr.echo_self h r hr)
  | .arithmetic op l r, he => by
    rw [Expr.StandsAlone, Expr.leaves] at he
    obtain ⟨hl, hr⟩ := Leaf.standsAlone_append he
    exact .arithmetic op (Expr.echo_self h l hl) (Expr.echo_self h r hr)
  | .compareNode op n v, he => by
    rw [Expr.StandsAlone, Expr.leaves] at he
    obtain ⟨hn, hv⟩ := Leaf.standsAlone_append he
    exact .compareNode op (Expr.echo_self h n hn) (Value.echo_self h v hv)
  | .compareNodes op n v, he => by
    rw [Expr.StandsAlone, Expr.leaves] at he
    obtain ⟨hn, hv⟩ := Leaf.standsAlone_append he
    exact .compareNodes op (Expr.echo_self h n hn) (Value.echo_self h v hv)
  | .negate e, he => by
    rw [Expr.StandsAlone, Expr.leaves] at he
    exact .negate (Expr.echo_self h e he)
  | .call f args b scope, he => by
    rw [Expr.StandsAlone, Expr.leaves] at he
    obtain ⟨hf, hrest⟩ := Leaf.standsAlone_cons he
    obtain ⟨hargs, -⟩ := Leaf.standsAlone_append hrest
    exact .call b scope hf (allEcho_self h args hargs)
  | .extension name args, he => by
    rw [Expr.StandsAlone, Expr.leaves] at he
    exact (Leaf.standsAlone_cons he).1.elim
  | .reference b, he => by
    rw [Expr.StandsAlone, Expr.leaves] at he
    exact .reference (Leaf.standsAlone_cons he).1
  | .template es, he => by
    rw [Expr.StandsAlone, Expr.leaves] at he
    exact .template (allEcho_self h es he)
  | .sorted b ks rules, he => by
    rw [Expr.StandsAlone, Expr.leaves] at he
    obtain ⟨hb, hk⟩ := Leaf.standsAlone_append he
    exact .sorted rules (Expr.echo_self h b hb) (allEcho_self h ks hk)

theorem allEcho_self (h : Pasts) : ∀ es : List Expr,
    (∀ l ∈ leavesOfAll es, l.StandsAlone h.loads) → AllEcho h es es
  | [], _ => .nil
  | e :: es, hes => by
    rw [leavesOfAll] at hes
    obtain ⟨he, hes⟩ := Leaf.standsAlone_append hes
    exact .cons (Expr.echo_self h e he) (allEcho_self h es hes)

theorem Value.echo_self (h : Pasts) : ∀ v : Value,
    (∀ l ∈ v.leaves, l.StandsAlone h.loads) → v.Echo h v
  | .string s, _ => .string s
  | .number n, _ => .number n
  | .boolean b, _ => .boolean b
  | .object t, _ => .object t
  | .nodeSet .empty, _ => .nodeSet .empty
  | .nodeSet (.single n navigable), _ => .nodeSet (.single n navigable)
  | .nodeSet (.extent e), _ => .nodeSet (.extent e)
  | .nodeSet (.intent _ _), hv => by
    rw [Value.leaves, NodeSet.leaves] at hv
    exact (Leaf.standsAlone_cons hv).1.elim

end

section

variable {h : Pasts}

theorem AllEcho.length_eq {es es' : List Expr} (he : AllEcho h es es') :
    es.length = es'.length := by
  induction es generalizing es' with
  | nil => cases he; rfl
  | cons e es ih =>
    cases he with
    | cons _ hs => rw [List.length_cons, List.length_cons, ih hs]

theorem AllEcho.getElem? {es es' : List Expr} (he : AllEcho h es es') (i : Nat) :
    Option.Rel (Expr.Echo h) es[i]? es'[i]? := by
  induction es generalizing es' i with
  | nil =>
    cases he
    exact .none
  | cons e es ih =>
    cases he with
    | cons he hs =>
      cases i with
      | zero => exact .some he
      | succ i => exact ih hs i

mutual

theorem Expr.Echo.dependencies : ∀ {e e' : Expr}, e.Echo h e' → e.dependencies = e'.dependencies
  | _, _, .value _ => by simp only [Expr.dependencies]
  | _, _, .root | _, _, .contextNode | _, _, .parentNode | _, _, .currentNode
  | _, _, .attribute _ | _, _, .axis .. | _, _, .reference _ | _, _, .positionRange ..
  | _, _, .isLast _ | _, _, .failure _ => rfl
  | _, _, .path _ _ he hs => by
    simp only [Expr.dependencies, Expr.Echo.dependencies he, AllEcho.dependencies hs]
  | _, _, .filter he he' | _, _, .set _ he he' | _, _, .logical _ he he' | _, _, .compare _ he he'
  | _, _, .arithmetic _ he he' | _, _, .distinctBy he he' => by
    simp only [Expr.dependencies, Expr.Echo.dependencies he, Expr.Echo.dependencies he']
  | _, _, .distinct he | _, _, .compareNode _ he _ | _, _, .compareNodes _ he _
  | _, _, .negate he => by
    simp only [Expr.dependencies, Expr.Echo.dependencies he]
  | _, _, .call _ _ _ hs => by
    simp only [Expr.dependencies, AllEcho.dependencies hs, AllEcho.length_eq hs]
  | _, _, .template hs => by
    simp only [Expr.dependencies, AllEcho.dependencies hs]
  | _, _, .sorted _ he hs => by
    simp only [Expr.dependencies, Expr.Echo.dependencies he, AllEcho.dependencies hs]

theorem AllEcho.dependencies : ∀ {es es' : List Expr}, AllEcho h es es' →
    dependenciesOfAll es = dependenciesOfAll es'
  | _, _, .nil => rfl
  | _, _, .cons he hs => by
    simp only [dependenciesOfAll, Expr.Echo.dependencies he, AllEcho.dependencies hs]

end

theorem Value.Echo.type {v v' : Value} (hv : v.Echo h v') : v.type = v'.type := by
  cases hv <;> rfl

theorem NodeSet.Echo.isNavigable {ns ns' : NodeSet} (hn : ns.Echo h ns') :
    ns.isNavigable = ns'.isNavigable := by
  cases hn <;> rfl

namespace Expr.Echo

variable {e e' : Expr}

theorem type (he : e.Echo h e') : e.type = e'.type := by
  cases he with
  | value hv => exact hv.type
  | _ => rfl

theorem isNodeSetExpr (he : e.Echo h e') : e.isNodeSetExpr = e'.isNodeSetExpr := by
  cases he <;> rfl

theorem isSingleton (he : e.Echo h e') : e.isSingleton = e'.isSingleton := by
  cases he <;> rfl

theorem isEmptyNodeSet (he : e.Echo h e') : e.isEmptyNodeSet = e'.isEmptyNodeSet := by
  cases he with
  | value hv =>
    cases hv with
    | nodeSet hn => cases hn <;> rfl
    | _ => rfl
  | _ => rfl

theorem isPositional (he : e.Echo h e') : e.isPositional = e'.isPositional := by
  rw [Expr.isPositional, Expr.isPositional, he.type, he.dependencies]

end Expr.Echo

end

end PathLanguage
