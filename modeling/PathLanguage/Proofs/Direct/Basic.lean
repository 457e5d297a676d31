/- Direct expressions, which leave no lazy node-set behind: nodes that have to be enumerated are
tested or read there and then, or by what stands alone. One engine follows another on them if it
succeeds wherever the other does, with the same results. -/
import PathLanguage.Proofs.Selection.Definite

namespace PathLanguage

theorem NodeSet.AtHand.value {ns : NodeSet} (h : ns.AtHand) : (Value.nodeSet ns).AtHand :=
  fun _ hv => Value.nodeSet.inj hv ▸ h

theorem Constant.toValue_atHand (k : Constant) : k.toValue.AtHand := by
  intro ns h
  cases k <;> cases h

/-- Whether a function takes an argument as a number, a value or a node-set. Others are taken as
strings or booleans. -/
def SystemFunction.takesValue : SystemFunction → (argument : Nat) → Bool
  | .not, _ | .boolean, _ | .lang, _ | .string, _ | .stringLength, _ | .normalizeSpace, _
  | .startsWith, _ | .contains, _ | .substringBefore, _ | .substringAfter, _ | .translate, _
  | .concat, _ | .systemProperty, _ | .functionAvailable, _ | .elementAvailable, _
  | .unparsedEntityUri, _ => Bool.false
  | .substring, i => i != 0
  | .formatNumber, i => i == 0
  | _, _ => Bool.true

mutual

/-- Expressions that can be evaluated without a key, a document or a host function, and from whose
evaluation nothing but the values of variables stays behind. What enumerates nodes may be tested or
read as a string, but has no value to be kept. -/
inductive Expr.Direct : Expr → (kept : Bool) → Prop
  /-- What stands alone may make lazy node-sets on the way to a value of another type. -/
  | alone {e : Expr} (kept : Bool) :
      e.StandsAlone false → e.type ≠ .nodeSet → e.type ≠ .any → Expr.Direct e kept
  | built {e : Expr} {kept : Bool} : e.BuiltDirectly kept → Expr.Direct e kept

/-- Expressions whose parts are direct. -/
inductive Expr.BuiltDirectly : Expr → (kept : Bool) → Prop
  | value {v : Value} (kept : Bool) : v.AtHand → Expr.BuiltDirectly (.value v) kept
  | root (kept : Bool) : Expr.BuiltDirectly .root kept
  | contextNode (kept : Bool) : Expr.BuiltDirectly .contextNode kept
  | parentNode (kept : Bool) : Expr.BuiltDirectly .parentNode kept
  | currentNode (kept : Bool) : Expr.BuiltDirectly .currentNode kept
  | attribute (name : ExpandedName) (kept : Bool) : Expr.BuiltDirectly (.attribute name) kept
  | axis (along : Axis) (test : NodeTest) (origin : Option Node) :
      Expr.BuiltDirectly (.axis along test origin) false
  | path {start : Expr} (along : Axis) (test : NodeTest) {ps : List Expr} :
      start.Direct false → AllDirect (fun _ => true) ps →
      Expr.BuiltDirectly (.path start along test ps) false
  | filter {b p : Expr} : b.Direct false → p.Direct true → Expr.BuiltDirectly (.filter b p) false
  | set (op : SetOperator) {l r : Expr} :
      l.Direct false → r.Direct false → Expr.BuiltDirectly (.set op l r) false
  | distinct {b : Expr} : b.Direct false → Expr.BuiltDirectly (.distinct b) false
  | distinctBy {b k : Expr} :
      b.Direct false → k.Direct false → Expr.BuiltDirectly (.distinctBy b k) false
  | sorted {b : Expr} {ks : List Expr} (rules : List SortRule) :
      b.Direct false → AllDirect (fun _ => true) ks → Expr.BuiltDirectly (.sorted b ks rules) false
  | logical (op : Connective) {l r : Expr} (kept : Bool) :
      l.Direct false → r.Direct false → Expr.BuiltDirectly (.logical op l r) kept
  | compare (op : Comparison) {l r : Expr} (kept : Bool) :
      l.Direct true → r.Direct true → Expr.BuiltDirectly (.compare op l r) kept
  | compareNode (op : Comparison) {n : Expr} {v : Value} (kept : Bool) :
      n.Direct true → v.AtHand → Expr.BuiltDirectly (.compareNode op n v) kept
  | compareNodes (op : Comparison) {n : Expr} {v : Value} (kept : Bool) :
      n.Direct true → v.AtHand → Expr.BuiltDirectly (.compareNodes op n v) kept
  | arithmetic (op : ArithmeticOp) {l r : Expr} (kept : Bool) :
      l.Direct true → r.Direct true → Expr.BuiltDirectly (.arithmetic op l r) kept
  | negate {e : Expr} (kept : Bool) : e.Direct true → Expr.BuiltDirectly (.negate e) kept
  | call {f : SystemFunction} {args : List Expr} (b : Option Node) (scope : Option Scope)
      (kept : Bool) : f.StandsAlone false → AllDirect f.takesValue args →
      Expr.BuiltDirectly (.call f args b scope) kept
  | template {parts : List Expr} (kept : Bool) :
      AllDirect (fun _ => false) parts → Expr.BuiltDirectly (.template parts) kept
  | reference (b : Binding) (kept : Bool) : Expr.BuiltDirectly (.reference b) kept
  | positionRange (least most : Nat) (kept : Bool) :
      Expr.BuiltDirectly (.positionRange least most) kept
  | isLast (wanted kept : Bool) : Expr.BuiltDirectly (.isLast wanted) kept
  | failure (f : Fault) (kept : Bool) : Expr.BuiltDirectly (.failure f) kept

inductive AllDirect : (Nat → Bool) → List Expr → Prop
  | nil (kept : Nat → Bool) : AllDirect kept []
  | cons {kept : Nat → Bool} {e : Expr} {rest : List Expr} :
      e.Direct (kept 0) → AllDirect (fun i => kept (i + 1)) rest → AllDirect kept (e :: rest)

end

namespace Expr

variable {e : Expr} {kept : Bool}

/-- Apart from what enumerates nodes, direct expressions have values. -/
theorem Direct.keep (h : e.Direct kept) (he : e.isNodeSetExpr = false) (kept' : Bool) :
    e.Direct kept' := by
  cases h with
  | alone _ ha hn hany => exact .alone kept' ha hn hany
  | built h =>
    apply Direct.built
    cases h with
    | root | contextNode | parentNode | currentNode | «attribute» | axis | path | filter | set
    | distinct | distinctBy | sorted => cases he
    | value _ hv => exact .value kept' hv
    | logical op _ hl hr => exact .logical op kept' hl hr
    | compare op _ hl hr => exact .compare op kept' hl hr
    | compareNode op _ hn hv => exact .compareNode op kept' hn hv
    | compareNodes op _ hn hv => exact .compareNodes op kept' hn hv
    | arithmetic op _ hl hr => exact .arithmetic op kept' hl hr
    | negate _ h => exact .negate kept' h
    | call b scope _ hf hargs => exact .call b scope kept' hf hargs
    | template _ hparts => exact .template kept' hparts
    | reference b => exact .reference b kept'
    | positionRange least most => exact .positionRange least most kept'
    | isLast wanted => exact .isLast wanted kept'
    | failure f => exact .failure f kept'

/-- The node-set expressions that have a value select one node at most. -/
theorem Direct.isSingleton (h : e.Direct true) (he : e.isNodeSetExpr = true) :
    e.isSingleton = true := by
  cases h with
  | alone _ _ hn => exact absurd (type_of_isNodeSetExpr he) hn
  | built h =>
    cases h with
    | root | contextNode | parentNode | currentNode | «attribute» => rfl
    | _ => cases he

theorem Direct.of_isSingleton (he : e.isSingleton = true) (kept : Bool) : e.Direct kept := by
  cases e with
  | root => exact .built (.root kept)
  | contextNode => exact .built (.contextNode kept)
  | parentNode => exact .built (.parentNode kept)
  | currentNode => exact .built (.currentNode kept)
  | «attribute» name => exact .built (.attribute name kept)
  | _ => cases he

/-- What has a value can be tested or read as a string. -/
theorem Direct.read (h : e.Direct true) : e.Direct false := by
  cases hns : e.isNodeSetExpr with
  | true => exact .of_isSingleton (h.isSingleton hns) false
  | false => exact h.keep hns false

end Expr

theorem Value.AtHand.direct {v : Value} (h : v.AtHand) (kept : Bool) :
    (Expr.value v).Direct kept :=
  .built (.value kept h)

theorem Expr.Direct.atHand {v : Value} {kept : Bool} (h : (Expr.value v).Direct kept) :
    v.AtHand := by
  cases h with
  | alone _ _ hn => exact fun ns hv => absurd (congrArg Value.type hv) hn
  | built h =>
    cases h with
    | value _ hv => exact hv

namespace AllDirect

variable {kept : Nat → Bool} {e : Expr} {rest es : List Expr}

theorem head (h : AllDirect kept (e :: rest)) : e.Direct (kept 0) := by
  cases h with
  | cons he _ => exact he

theorem tail (h : AllDirect kept (e :: rest)) : AllDirect (fun i => kept (i + 1)) rest := by
  cases h with
  | cons _ hrest => exact hrest

theorem get (h : AllDirect kept es) {i : Nat} (he : es[i]? = some e) : e.Direct (kept i) := by
  induction es generalizing kept i with
  | nil => cases he
  | cons a rest ih =>
    cases i with
    | zero =>
      obtain rfl : a = e := Option.some.inj he
      exact h.head
    | succ i => exact ih h.tail he

theorem mem {k : Bool} (h : AllDirect (fun _ => k) es) (he : e ∈ es) : e.Direct k := by
  obtain ⟨i, hi⟩ := List.getElem?_of_mem he
  exact h.get hi

end AllDirect

/-- A cursor that evaluates direct expressions only, in contexts without local variables. -/
def Cursor.Direct : Cursor → Prop
  | .listed .. => True
  | .lookahead base .. => base.Direct
  | .filter base s _ _ _ => base.Direct ∧ s.predicate.Direct true ∧ s.context.locals = []
  | .merge _ left _ right _ => left.Direct ∧ right.Direct
  | .distinct base key _ => base.Direct ∧ ∀ k ∈ key, k.1.Direct false ∧ k.2.locals = []
  | .steps start plan context current _ =>
    start.Direct ∧ AllDirect (fun _ => true) plan.predicates ∧ context.locals = [] ∧ current.Direct

variable {R : Session → Session → Prop} {α β : Type}

/-- Started in two sessions in a relation, two computations end in such sessions. If the first
succeeds, its result has a property and the second comes to the same result. -/
def Follows (R : Session → Session → Prop) (succeeds Q : α → Prop) (m m' : StateM Session α) :
    Prop :=
  ∀ s s', R s s' → ∃ t', R (m.run s).2 t' ∧
    (succeeds (m.run s).1 → Q (m.run s).1 ∧ m'.run s' = ((m.run s).1, t'))

/-- A computation that stops at a failure is followed if it is from every success on. -/
theorem Follows.bind {succeeds Q : α → Prop} {succeeds' Q' : β → Prop} {m m' : StateM Session α}
    {f f' : α → StateM Session β} (h : Follows R succeeds Q m m')
    (hf : ∀ x, succeeds x → Q x → Follows R succeeds' Q' (f x) (f' x))
    (hfail : ∀ x, ¬succeeds x → ∃ y, ¬succeeds' y ∧ f x = pure y) :
    Follows R succeeds' Q' (m >>= f) (m' >>= f') := by
  intro s s' hs
  obtain ⟨t', ht, hm⟩ := h s s' hs
  change ∃ u', R ((f (m.run s).1).run (m.run s).2).2 u' ∧
    (succeeds' ((f (m.run s).1).run (m.run s).2).1 → _ ∧
      (f' (m'.run s').1).run (m'.run s').2 = (((f (m.run s).1).run (m.run s).2).1, u'))
  by_cases hx : succeeds (m.run s).1
  · obtain ⟨hq, hm'⟩ := hm hx
    rw [hm']
    exact hf _ hx hq _ _ ht
  · obtain ⟨y, hy, heq⟩ := hfail _ hx
    rw [heq]
    exact ⟨t', ht, fun h => absurd h hy⟩

/-- The same of actions, of which a result is a success. -/
def Action.Follows (R : Session → Session → Prop) (Q : α → Prop) (a a' : Action α) : Prop :=
  PathLanguage.Follows R (fun r => ∃ x, r = .ok x) (fun r => ∀ x, r = .ok x → Q x) a.attempt
    a'.attempt

/-- The same of reading a cursor, which is direct afterwards. -/
def Pull.Follows (R : Session → Session → Prop) (m m' : StateM Session (Pull α)) : Prop :=
  PathLanguage.Follows R (fun p => ∃ x, p.outcome = .ok x) (fun p => p.rest.Direct) m m'

namespace Action.Follows

variable {P : α → Prop} {Q : β → Prop} {a a' : Action α}

theorem pure {x : α} (h : P x) : Action.Follows R P (pure x) (pure x) :=
  fun _ s' hs => ⟨s', hs, fun _ => ⟨fun _ hy => Except.ok.inj hy ▸ h, rfl⟩⟩

theorem throw {f : Fault} : Action.Follows R P (throw f) a :=
  fun _ s' hs => ⟨s', hs, nofun⟩

theorem fail {f : Fault} : Action.Follows R P (.fail f) a := throw

theorem ofExcept {r : Except Fault α} (h : ∀ x, r = .ok x → P x) :
    Action.Follows R P (.ofExcept r) (.ofExcept r) := by
  cases r with
  | ok x => exact pure (h x rfl)
  | error f => exact throw

theorem ofExcept_any (r : Except Fault α) :
    Action.Follows R (fun _ => True) (.ofExcept r) (.ofExcept r) :=
  ofExcept fun _ _ => trivial

theorem bind {f f' : α → Action β} (h : Action.Follows R P a a')
    (hf : ∀ x, P x → Action.Follows R Q (f x) (f' x)) :
    Action.Follows R Q (a >>= f) (a' >>= f') := by
  change PathLanguage.Follows R _ _ (a.attempt >>= ExceptT.bindCont f)
    (a'.attempt >>= ExceptT.bindCont f')
  apply PathLanguage.Follows.bind h
  · rintro _ ⟨x, rfl⟩ hx
    exact hf x (hx x rfl)
  · intro r hr
    cases r with
    | ok x => exact absurd ⟨x, rfl⟩ hr
    | error e => exact ⟨.error e, nofun, rfl⟩

/-- Goes on with a function of the result. -/
theorem map {f : α → β} (h : Action.Follows R P a a') (hf : ∀ x, P x → Q (f x)) :
    Action.Follows R Q (do return f (← a)) (do return f (← a')) :=
  h.bind fun x hx => pure (hf x hx)

/-- Nothing is claimed of the result. -/
theorem map_any {f : α → β} (h : Action.Follows R P a a') :
    Action.Follows R (fun _ => True) (do return f (← a)) (do return f (← a')) :=
  h.map fun _ _ => trivial

theorem imp {P' : α → Prop} (h : Action.Follows R P a a') (hi : ∀ x, P x → P' x) :
    Action.Follows R P' a a' := by
  intro s s' hs
  obtain ⟨t', ht, ha⟩ := h s s' hs
  refine ⟨t', ht, fun hx => ?_⟩
  obtain ⟨hp, heq⟩ := ha hx
  exact ⟨fun x h => hi x (hp x h), heq⟩

theorem ite {p : Prop} [Decidable p] {b b' : Action α} (ha : p → Action.Follows R P a a')
    (hb : ¬p → Action.Follows R P b b') :
    Action.Follows R P (if p then a else b) (if p then a' else b') := by
  split
  · exact ha ‹_›
  · exact hb ‹_›

/-- What a computation in the first session comes to, one in the second comes to. -/
theorem ok (h : Action.Follows R P a a') {s s' t : Session} (hs : R s s') {x : α}
    (ha : a.attempt.run s = (.ok x, t)) : P x ∧ ∃ t', R t t' ∧ a'.attempt.run s' = (.ok x, t') := by
  obtain ⟨t', ht, hok⟩ := h s s' hs
  rw [ha] at ht hok
  obtain ⟨hx, heq⟩ := hok ⟨x, rfl⟩
  exact ⟨hx x rfl, t', ht, heq⟩

end Action.Follows

namespace Pull.Follows

variable {m m' : StateM Session (Pull α)}

theorem pure {x : Except Fault α} {c : Cursor} (h : c.Direct) :
    Pull.Follows R (pure ⟨x, c⟩) (pure ⟨x, c⟩) :=
  fun _ s' hs => ⟨s', hs, fun _ => ⟨h, rfl⟩⟩

/-- Reading that goes on from what was read before, unless that failed. -/
theorem bind {f f' : Pull α → StateM Session (Pull β)} (h : Pull.Follows R m m')
    (hf : ∀ x c, c.Direct → Pull.Follows R (f ⟨.ok x, c⟩) (f' ⟨.ok x, c⟩))
    (hfail : ∀ e c, ∃ c', f ⟨.error e, c⟩ = Pure.pure ⟨.error e, c'⟩) :
    Pull.Follows R (m >>= f) (m' >>= f') := by
  apply PathLanguage.Follows.bind h
  · rintro ⟨_, c⟩ ⟨x, rfl⟩ hc
    exact hf x c hc
  · rintro ⟨r, c⟩ hr
    cases r with
    | ok x => exact absurd ⟨x, rfl⟩ hr
    | error e =>
      obtain ⟨c', hc'⟩ := hfail e c
      exact ⟨⟨.error e, c'⟩, nofun, hc'⟩

/-- Reading that goes on from the outcome of an action, unless that failed. -/
theorem bind_attempt {P : α → Prop} {a a' : Action α}
    {f f' : Except Fault α → StateM Session (Pull β)} (h : Action.Follows R P a a')
    (hf : ∀ x, P x → Pull.Follows R (f (.ok x)) (f' (.ok x)))
    (hfail : ∀ e, ∃ c, f (.error e) = Pure.pure ⟨.error e, c⟩) :
    Pull.Follows R (a.attempt >>= f) (a'.attempt >>= f') := by
  apply PathLanguage.Follows.bind h
  · rintro _ ⟨x, rfl⟩ hx
    exact hf x (hx x rfl)
  · intro r hr
    cases r with
    | ok x => exact absurd ⟨x, rfl⟩ hr
    | error e =>
      obtain ⟨c, hc⟩ := hfail e
      exact ⟨⟨.error e, c⟩, nofun, hc⟩

end Pull.Follows

/-- One engine succeeds with direct expressions wherever another does, with the same results, none
of which is a lazy node-set. Of all expressions only those that stand for one node are reduced. -/
structure Engine.Follows (R : Session → Session → Prop) (E E' : Engine) : Prop where
  value : ∀ {e : Expr} {c : Context}, e.Direct true → c.locals = [] →
    Action.Follows R Value.AtHand (E.value e c) (E'.value e c)
  boolean : ∀ {e : Expr} {c : Context}, e.Direct false → c.locals = [] →
    Action.Follows R (fun _ => True) (E.boolean e c) (E'.boolean e c)
  number : ∀ {e : Expr} {c : Context}, e.Direct true → c.locals = [] →
    Action.Follows R (fun _ => True) (E.number e c) (E'.number e c)
  string : ∀ {e : Expr} {c : Context}, e.Direct false → c.locals = [] →
    Action.Follows R (fun _ => True) (E.string e c) (E'.string e c)
  nodeSet : ∀ {e : Expr} {c : Context}, e.Direct true → c.locals = [] →
    Action.Follows R NodeSet.AtHand (E.nodeSet e c) (E'.nodeSet e c)
  cursor : ∀ {e : Expr} {c : Context} (sort : Bool), e.Direct false → c.locals = [] →
    Action.Follows R Cursor.Direct (E.cursor e c sort) (E'.cursor e c sort)
  reduce : ∀ {e : Expr} {c : Context}, e.isSingleton = true → c.locals = [] →
    Action.Follows R (fun r => ∃ ns, r.1 = .value (.nodeSet ns) ∧ ns.AtHand)
      (E.reduce .all e c) (E'.reduce .all e c)
  next : ∀ {c : Cursor}, c.Direct → Pull.Follows R (E.next c) (E'.next c)
  size : ∀ {c : Cursor}, c.Direct → Pull.Follows R (E.size c) (E'.size c)
  drain : ∀ {c : Cursor}, c.Direct → Action.Follows R (fun _ => True) (E.drain c) (E'.drain c)
  find : ∀ (test : Node → Bool) {c : Cursor}, c.Direct →
    Action.Follows R (fun _ => True) (E.find test c) (E'.find test c)

namespace Engine.Follows

variable {E E' : Engine} {c : Cursor}

theorem pull (h : E.Follows R E') (hc : c.Direct) :
    Action.Follows R (fun r => r.2.Direct) (E.pull c) (E'.pull c) := by
  intro s s' hs
  obtain ⟨t', ht, hnext⟩ := h.next hc s s' hs
  refine ⟨t', ?_, ?_⟩
  · rwa [pull_run]
  rintro ⟨r, hr⟩
  rw [pull_run] at hr ⊢
  obtain ⟨n, hn⟩ : ∃ n, ((E.next c).run s).1.outcome = .ok n := by
    cases ho : ((E.next c).run s).1.outcome with
    | ok n => exact ⟨n, rfl⟩
    | error f =>
      rw [ho] at hr
      cases hr
  obtain ⟨hrest, heq⟩ := hnext ⟨n, hn⟩
  rw [pull_run, heq, hn]
  exact ⟨fun _ hx => Except.ok.inj hx ▸ hrest, rfl⟩

theorem head (h : E.Follows R E') (hc : c.Direct) :
    Action.Follows R (fun _ => True) (E.head c) (E'.head c) :=
  (h.pull hc).map_any

theorem extent (h : E.Follows R E') (hc : c.Direct) :
    Action.Follows R (fun _ => True) (E.extent c) (E'.extent c) :=
  (h.drain hc).map_any

theorem sortedCursor (h : E.Follows R E') (hc : c.Direct) :
    Action.Follows R Cursor.Direct (E.sortedCursor c) (E'.sortedCursor c) := by
  apply Action.Follows.ite
  · exact fun _ => .pure hc
  · exact fun _ => (h.extent hc).bind fun e _ =>
      (Action.Follows.ofExcept_any e.sort).map fun _ _ => trivial

end Engine.Follows

end PathLanguage
