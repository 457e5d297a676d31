/- Constants: values that hold nothing from outside their text. What can be folded of them comes to a
constant again. -/
import PathLanguage.Expr.Simplification
import PathLanguage.Proofs.Expr.Leaves
import PathLanguage.Proofs.Expr.Type

namespace PathLanguage

variable {T : Transformation} {E : Engine}

namespace Value

/-- A value that holds no node and no definition of nodes. -/
def IsConstant (v : Value) : Prop := v.leaves = []

/-- The string of a constant; a constant node-set has no node. -/
def constantText : Value → String
  | .string s | .object s => s
  | .number n => n.stringValue
  | .boolean b => if b then "true" else "false"
  | .nodeSet _ => ""

variable {v : Value}

theorem isConstant_of_scalar (h : v.type ≠ .nodeSet) : v.IsConstant := by
  cases v with
  | nodeSet ns => exact absurd rfl h
  | _ => rfl

theorem IsConstant.nodeSet {ns : NodeSet} (h : (Value.nodeSet ns).IsConstant) :
    ns = .empty ∨ ∃ navigable, ns = .single none navigable := by
  cases ns with
  | empty => exact .inl rfl
  | single n navigable =>
    cases n with
    | none => exact .inr ⟨navigable, rfl⟩
    | some n => cases h
  | extent e => cases h
  | intent id definition => cases h

theorem IsConstant.asString (h : v.IsConstant) (T : Transformation) (E : Engine) :
    v.asString T E = pure v.constantText := by
  cases v with
  | nodeSet ns => rcases h.nodeSet with rfl | ⟨navigable, rfl⟩ <;> rfl
  | _ => rfl

end Value

/-- What a text can name: functions and variables. -/
def Leaf.IsNamed : Leaf → Prop
  | .call _ | .host _ | .variable _ => True
  | .node _ | .extent _ | .lazy .. => False

namespace Expr

/-- An expression that holds nothing but what its text names. -/
def Fresh (e : Expr) : Prop := ∀ l ∈ e.leaves, l.IsNamed

/-- An expression all of whose leaves are of one kind. -/
def Only (P : Leaf → Prop) (e : Expr) : Prop := ∀ l ∈ e.leaves, P l

section only

variable {P : Leaf → Prop} {e : Expr}

theorem only_of_leaves (h : e.leaves = []) : e.Only P := by
  intro l hl
  rw [h] at hl
  cases hl

theorem only_leavesOfAll_iff {es : List Expr} :
    (∀ l ∈ leavesOfAll es, P l) ↔ ∀ e ∈ es, e.Only P := by
  rw [leavesOfAll_eq]
  constructor
  · intro h e he l hl
    exact h l (List.mem_flatMap.mpr ⟨e, he, hl⟩)
  · intro h l hl
    obtain ⟨e, he, hl⟩ := List.mem_flatMap.mp hl
    exact h e he l hl

/-- What a part of an expression holds, the expression holds. -/
theorem mem_leaves_of_child {l : Leaf} (h : l ∈ leavesOfAll e.children) : l ∈ e.leaves := by
  cases e with
  | path | filter | set | logical | compare | arithmetic | distinct | distinctBy | compareNode
  | compareNodes | negate | call | extension | template | sorted =>
    simp only [children, leavesOfAll, leaves, List.append_nil, List.mem_append, List.mem_cons] at h ⊢
    grind
  | _ => cases h

theorem Only.children {c : Expr} (h : e.Only P) (hc : c ∈ e.children) : c.Only P := by
  intro l hl
  apply h l (mem_leaves_of_child _)
  rw [leavesOfAll_eq]
  exact List.mem_flatMap.mpr ⟨c, hc, hl⟩

end only

theorem Fresh.constant {v : Value} (h : (Expr.value v).Fresh) : v.IsConstant := by
  cases v with
  | nodeSet ns =>
    cases ns with
    | empty => rfl
    | single n navigable =>
      cases n with
      | none => rfl
      | some n => exact (h (.node n) (.head _)).elim
    | extent e => exact (h (.extent e) (.head _)).elim
    | intent id definition => exact (h (.lazy id definition) (.head _)).elim
  | _ => rfl

theorem fresh_value {v : Value} (h : v.IsConstant) : (Expr.value v).Fresh := only_of_leaves h

/-- What can be folded has constant operands and reads nothing of its context. -/
structure Folds (e : Expr) : Prop where
  form : e.isValue = false ∧ e.isNodeSetExpr = false
  free : e.dependencies = ∅
  constants : e.children.all isValue = true
  named : ∀ f args bound scope, e = .call f args bound scope → f.isFoldable = true
  inner : (∀ f, e ≠ .failure f) ∧ (∀ b, e ≠ .reference b) ∧ ∀ name args, e ≠ .extension name args

theorem folds_of_isFoldable {e : Expr} (h : e.isFoldable = true) : e.Folds := by
  simp only [isFoldable, Bool.and_eq_true, Bool.not_eq_true', Bool.or_eq_false_iff] at h
  obtain ⟨⟨⟨hform, hfree⟩, hconstants⟩, hmatch⟩ := h
  refine ⟨hform, eq_of_beq hfree, hconstants, ?_, ?_, ?_, ?_⟩
  · rintro f args bound scope rfl
    exact hmatch
  · rintro f rfl
    cases hmatch
  · rintro b rfl
    cases hmatch
  · rintro name args rfl
    cases hmatch

/-- A text binds its calls to no node. -/
theorem Fresh.unbound {f : SystemFunction} {args : List Expr} {bound : Option Node}
    {scope : Option Scope} (h : (Expr.call f args bound scope).Fresh) : bound = none := by
  cases bound with
  | none => rfl
  | some n =>
    have hmem : Leaf.node n ∈ (Expr.call f args (some n) scope).leaves :=
      .tail _ (List.mem_append_right _ (.head _))
    exact (h _ hmem).elim

/-- A constant is read as a node-set that is constant, or not at all. -/
theorem nodeSet_constant {v : Value} (hv : v.IsConstant) (n : Nat) (c : Context) :
    Returns ((engine T n).nodeSet (.value v) c) fun ns => (Value.nodeSet ns).IsConstant := by
  cases n with
  | zero => exact .fail
  | succ n =>
    cases v with
    | nodeSet ns => exact .pure hv
    | _ => exact .fail

section sets

open PathLanguage.Function

variable {a b : NodeSet}

theorem besideFirst_constant (hb : (Value.nodeSet b).IsConstant) (side : Ordering) :
    besideFirst T E a b side = pure none := by
  rcases hb.nodeSet with rfl | ⟨navigable, rfl⟩ <;> rfl

theorem leading_constant (hb : (Value.nodeSet b).IsConstant) :
    leading T E a b = pure a := by
  rw [leading, besideFirst_constant hb]
  rfl

theorem trailing_constant (hb : (Value.nodeSet b).IsConstant) :
    trailing T E a b = pure .empty := by
  rw [trailing, besideFirst_constant hb]
  rfl

end sets

/-- An argument of a call with constant ones is read as a constant node-set. -/
theorem nodeSetArg_constant {c : Function.Call} (n i : Nat)
    (h : ∀ e ∈ c.args, ∃ v : Value, e = .value v ∧ v.IsConstant) :
    Returns (c.nodeSetArg (engine T n) i) fun ns => (Value.nodeSet ns).IsConstant := by
  rw [Function.Call.nodeSetArg, Function.Call.arg]
  cases hi : c.args[i]? with
  | none => exact Returns.bind (P := fun _ => False) .fail fun _ h => h.elim
  | some e =>
    obtain ⟨v, rfl, hv⟩ := h e (List.mem_of_getElem? hi)
    exact nodeSet_constant hv n c.context

/-- A call that can be folded gives a constant: of its own only the set functions give nodes, and
these only from among their arguments. -/
theorem call_constant {f : SystemFunction} {args : List Expr} {scope : Option Scope}
    (h : (Expr.call f args none scope).Folds) (hfresh : (Expr.call f args none scope).Fresh)
    (n : Nat) (c : Context) :
    Returns (Function.Call.run T (engine T n) ⟨f, args, none, scope, c⟩) Value.IsConstant := by
  have htyped (hf : f.result ≠ .nodeSet) (hany : f.result ≠ .any) :
      Returns (Function.Call.run T (engine T n) ⟨f, args, none, scope, c⟩) Value.IsConstant := by
    refine Returns.imp (Function.Call.run_has ⟨f, args, none, scope, c⟩) fun v hv => ?_
    apply Value.isConstant_of_scalar
    rw [hv hany]
    exact hf
  have hargs : ∀ e ∈ args, ∃ v : Value, e = .value v ∧ v.IsConstant := by
    intro e he
    have hconstant := List.all_eq_true.mp h.constants e he
    cases e with
    | value v => exact ⟨v, rfl, Fresh.constant (Only.children hfresh he)⟩
    | _ => cases hconstant
  have hset (i : Nat) :=
    nodeSetArg_constant (T := T) (c := ⟨f, args, none, scope, c⟩) n i hargs
  cases f with
  | leading =>
    refine Returns.bind (hset 0) fun a ha => Returns.bind (hset 1) fun b hb => ?_
    rw [leading_constant hb]
    exact .pure ha
  | trailing =>
    refine Returns.bind (hset 0) fun a _ => Returns.bind (hset 1) fun b hb => ?_
    rw [trailing_constant hb]
    exact .pure rfl
  | systemProperty =>
    refine Returns.bind_any fun text => Returns.bind_any fun name => Returns.pure ?_
    rw [Function.systemProperty]
    split
    · split <;> rfl
    · rfl
  | current => cases congrArg Dependencies.currentNode h.free
  | id => cases congrArg Dependencies.contextDocument h.free
  | key | document => cases h.named _ _ _ _ rfl
  | _ => exact htyped nofun nofun

/-- What can be folded comes to constants. -/
theorem returns_constant {e : Expr} (h : e.Folds) (hfresh : e.Fresh) (n : Nat) :
    Returns ((engine T n).value e .blank) Value.IsConstant := by
  have htyped (he : e.type ≠ .nodeSet) (hany : e.type ≠ .any) :
      Returns ((engine T n).value e .blank) Value.IsConstant := by
    refine Returns.imp (engine_value_has T n e .blank) fun v hv => ?_
    apply Value.isConstant_of_scalar
    rw [hv hany]
    exact he
  cases e with
  | call f args bound scope =>
    obtain rfl := hfresh.unbound
    cases n with
    | zero => exact .fail
    | succ n => exact call_constant h hfresh n .blank
  | value v => cases h.form.1
  | reference b => exact absurd rfl (h.inner.2.1 b)
  | extension name args => exact absurd rfl (h.inner.2.2 name args)
  | failure f => exact absurd rfl (h.inner.1 f)
  | logical | compare | compareNode | compareNodes | arithmetic | negate | positionRange | isLast
  | template => exact htyped nofun nofun
  | _ => cases h.form.2

end Expr

end PathLanguage
