/- Expressions that stand for no nodes, although they may stand where nodes are asked for: what is
read of them ends in a fault, at once or when a lazy node-set that they define is read. -/
import PathLanguage.Proofs.NodeSet.Comparison
import PathLanguage.Proofs.Selection.Definite

namespace PathLanguage

/-- A call that asks for a property of the processor, the only function of no certain type. -/
def Expr.asksProperty : Expr → Bool
  | .call f _ _ _ => f == .systemProperty
  | _ => false

/-- Whether an expression applies something to the nodes of others, one by one. -/
def Expr.isApplied : Expr → Bool
  | .filter .. | .path .. | .set .. => true
  | _ => false

/-- An expression whose value is no node-set for certain, or one that applies to such a value what
applies to nodes. -/
inductive Expr.Nodeless : Expr → Prop
  | plain {e : Expr} : e.type ≠ .nodeSet → e.type ≠ .any → Nodeless e
  | property {e : Expr} : e.asksProperty = true → Nodeless e
  | filter {base : Expr} (predicate : Expr) : Nodeless base → Nodeless (.filter base predicate)
  | path {start : Expr} (along : Axis) (test : NodeTest) (predicates : List Expr) :
      Nodeless start → Nodeless (.path start along test predicates)
  | left (op : SetOperator) {l : Expr} (r : Expr) : Nodeless l → Nodeless (.set op l r)
  | right (op : SetOperator) (l : Expr) {r : Expr} : Nodeless r → Nodeless (.set op l r)

namespace Expr

variable {T : Transformation} {E : Engine} {e x base start predicate l r : Expr} {along : Axis}
  {test : NodeTest} {predicates : List Expr} {op : SetOperator} {c : Context} {n : Nat}

section forms

theorem asksProperty_iff :
    e.asksProperty = true ↔ ∃ args bound scope, e = .call .systemProperty args bound scope := by
  constructor
  · intro h
    cases e with
    | call f args bound scope => exact ⟨args, bound, scope, by rw [beq_iff_eq.mp h]⟩
    | _ => cases h
  · rintro ⟨args, bound, scope, rfl⟩
    rfl

theorem type_of_asksProperty (h : e.asksProperty = true) : e.type = .any := by
  obtain ⟨args, bound, scope, rfl⟩ := asksProperty_iff.mp h
  rfl

theorem nodeless_filter_iff : (Expr.filter base predicate).Nodeless ↔ base.Nodeless := by
  constructor
  · intro h
    cases h with
    | plain hn => exact absurd rfl hn
    | property h => cases h
    | filter _ h => exact h
  · exact .filter predicate

theorem nodeless_path_iff : (Expr.path start along test predicates).Nodeless ↔ start.Nodeless := by
  constructor
  · intro h
    cases h with
    | plain hn => exact absurd rfl hn
    | property h => cases h
    | path _ _ _ h => exact h
  · exact .path along test predicates

theorem nodeless_set_iff : (Expr.set op l r).Nodeless ↔ l.Nodeless ∨ r.Nodeless := by
  constructor
  · intro h
    cases h with
    | plain hn => exact absurd rfl hn
    | property h => cases h
    | left _ _ h => exact .inl h
    | right _ _ h => exact .inr h
  · rintro (h | h)
    · exact .left op r h
    · exact .right op l h

/-- A constant is nodeless just if it is no node-set. -/
theorem nodeless_value_iff {v : Value} : (Expr.value v).Nodeless ↔ v.type ≠ .nodeSet := by
  constructor
  · intro h
    cases h with
    | plain h => exact h
    | property h => cases h
  · intro h
    refine .plain h ?_
    cases v <;> nofun

/-- What stands for nodes by itself is not nodeless. -/
theorem not_nodeless (hn : e.type = .nodeSet) (he : e.isApplied = false) : ¬ e.Nodeless := by
  intro h
  cases h with
  | plain h => exact h hn
  | property h => cases (type_of_asksProperty h).symm.trans hn
  | filter | path | left | right => cases he

/-- What is nodeless and of a type that is no node-set is of a known type, or a property. -/
theorem Nodeless.type_ne (h : e.Nodeless) (hp : e.asksProperty = false) : e.type ≠ .any := by
  cases h with
  | plain _ h => exact h
  | property h => exact absurd (h.symm.trans hp) nofun
  | filter | path | left | right => nofun

end forms

section evaluation

theorem Nodeless.value_type (h : x.Nodeless) (hx : x.isNodeSetExpr = false) :
    Returns ((engine T n).value x c) (·.type ≠ .nodeSet) := by
  cases h with
  | plain hn ha => exact (engine_value_has T n x c).imp fun v hv => (hv ha).symm ▸ hn
  | property h =>
    obtain ⟨args, bound, scope, rfl⟩ := asksProperty_iff.mp h
    cases n with
    | zero => exact .fail
    | succ n =>
      refine .bind_any fun text => .bind_any fun name => .pure fun hv => ?_
      cases hs : Function.systemProperty name with
      | nodeSet ms => exact Function.systemProperty_atHand name ms hs
      | _ => exact absurd (hs ▸ hv) nofun
  | filter | path | left | right => cases hx

theorem nodeSetOf_fails {v : Value} (h : v.type ≠ .nodeSet) :
    Returns (nodeSetOf v) fun _ => False := by
  cases v with
  | nodeSet ns => exact absurd rfl h
  | _ => exact .fail

/-- No node-set is made of the value of a nodeless operand. -/
theorem Nodeless.nodeSet_fails (h : x.Nodeless) (hx : x.isNodeSetExpr = false) :
    Returns ((engine T n).nodeSet x c) fun _ => False := by
  cases n with
  | zero => exact .fail
  | succ n =>
    change Returns (x.evaluateNodeSet (engine T n) c) _
    unfold evaluateNodeSet
    split
    · next v => exact nodeSetOf_fails (nodeless_value_iff.mp h)
    · rw [hx]
      exact (h.value_type hx).bind fun v hv => nodeSetOf_fails hv

/-- The nodes of an operand are those of its value. -/
theorem enumerate_operand (hx : x.isNodeSetExpr = false) (hn : x.type ≠ .nodeSet) (sort : Bool) :
    x.enumerate T E c sort = (do (← E.nodeSet x c).enumerateSorted T E sort) := by
  cases x with
  | value v =>
    cases v with
    | nodeSet ns => exact absurd rfl hn
    | _ => rfl
  | root | contextNode | parentNode | currentNode | «attribute» | path | axis | filter | set
  | distinct | distinctBy | sorted => cases hx
  | _ => rfl

/-- A nodeless expression has no cursor. -/
theorem Nodeless.cursor_fails (h : x.Nodeless) (sort : Bool) :
    Returns ((engine T n).cursor x c sort) fun _ => False := by
  induction n generalizing x sort with
  | zero => exact .fail
  | succ n ih =>
    have hoperand (hx : x.isNodeSetExpr = false) (hn : x.type ≠ .nodeSet) :
        Returns (x.enumerate T (engine T n) c sort) fun _ => False := by
      rw [enumerate_operand hx hn]
      exact (h.nodeSet_fails hx).bind nofun
    cases h with
    | plain hn =>
      exact hoperand (Bool.eq_false_iff.mpr fun hx => hn (type_of_isNodeSetExpr hx)) hn
    | property h =>
      obtain ⟨args, bound, scope, rfl⟩ := asksProperty_iff.mp h
      exact hoperand rfl nofun
    | filter predicate h => exact (ih h _).bind nofun
    | path along test predicates h => exact (ih h _).bind nofun
    | left op r h => exact (ih h _).bind nofun
    | right op l h => exact .bind_any fun left => (ih h _).bind nofun

end evaluation

end Expr

end PathLanguage
