/- Every rule lowers the weight of the expression that it applies to, in every session. The loop that
applies rules, bounded by the weight, is therefore the loop without a bound. -/
import PathLanguage.Proofs.Simplification.Comparison
import PathLanguage.Proofs.Simplification.Constant

namespace PathLanguage.Expr

variable {T : Transformation} {E : Engine} {e l r x : Expr} {α : Type}

section weights

theorem weight_pos (e : Expr) : 0 < e.weight := by
  unfold weight
  split <;> omega

theorem weight_value_le (v : Value) : (Expr.value v).weight ≤ 2 := by
  cases v with
  | string | number | boolean => exact Nat.le_succ 1
  | nodeSet | object => exact Nat.le_refl 2

theorem three_le_weight_call (f : SystemFunction) (args : List Expr) (bound : Option Node)
    (scope : Option Scope) : 3 ≤ (Expr.call f args bound scope).weight := by
  rw [weight]
  omega

theorem three_le_weight (h : e.Folds) : 3 ≤ e.weight := by
  cases e with
  | value v => cases h.form.1
  | reference b => exact absurd rfl (h.inner.2.1 b)
  | failure f => exact absurd rfl (h.inner.1 f)
  | extension name args => exact absurd rfl (h.inner.2.2 name args)
  | positionRange => cases h.free
  | isLast => cases h.free
  | logical | call | template =>
    simp only [weight]
    omega
  | compare _ l _ | arithmetic _ l _ | negate l | compareNode _ l | compareNodes _ l =>
    have := weight_pos l
    simp only [weight]
    omega
  | _ => cases h.form.2

/-- A scalar constant is a value that holds nothing. -/
theorem scalar?_eq_some {v : Value} (h : e.scalar? = some v) : e.weight = 1 ∧ v.leaves = [] := by
  rw [scalar?.eq_def] at h
  split at h
  · obtain rfl := Option.some.inj h
    exact ⟨rfl, rfl⟩
  · obtain rfl := Option.some.inj h
    exact ⟨rfl, rfl⟩
  · cases h

/-- What may be nodes weighs more than a scalar constant. -/
theorem two_le_weight (h : (e.isSingleton || e.type == .nodeSet) = true) : 2 ≤ e.weight := by
  cases e with
  | value v =>
    cases v with
    | string | number | boolean => cases h
    | nodeSet | object => exact Nat.le_refl 2
  | root | contextNode | parentNode | currentNode | «attribute» | reference | positionRange | isLast
  | failure => exact Nat.le_refl 2
  | _ =>
    simp only [weight]
    omega

theorem weight_truthOf_le (e : Expr) : (truthOf e).weight ≤ 3 + e.weight := by
  rw [truthOf]
  split
  · omega
  · simp only [callOf, weight, weights]
    omega

theorem weight_stringOf_le (e : Expr) : (stringOf e).weight ≤ 3 + e.weight := by
  rw [stringOf]
  split
  · omega
  · simp only [callOf, weight, weights]
    omega

end weights

section atoms

/-- An expression without parts that any rule may leave behind. -/
structure Atom (x : Expr) : Prop where
  light : x.weight ≤ 2
  leaves : x.leaves = []
  parts : x.children = []

theorem atom_ofBool (b : Bool) : Atom (ofBool b) := ⟨Nat.le_succ 1, rfl, rfl⟩

theorem atom_positions (least most : Nat) : Atom (positions least most) := by
  rw [positions]
  split
  · exact atom_ofBool false
  · exact ⟨Nat.le_refl 2, rfl, rfl⟩

theorem positionsBy?_atom {n : Number} {op : Comparison} (h : positionsBy? n op = some x) :
    Atom x := by
  cases op with
  | unequal => cases h
  | less | atMost => exact Option.some.inj h ▸ atom_positions _ _
  | equal =>
    rw [positionsBy?] at h
    split at h
    · exact Option.some.inj h ▸ atom_positions _ _
    · exact Option.some.inj h ▸ atom_ofBool _
  | greater | atLeast =>
    rw [positionsBy?] at h
    split at h
    · exact Option.some.inj h ▸ atom_ofBool _
    · exact Option.some.inj h ▸ atom_positions _ _

theorem comparePosition?_atom {op : Comparison} (h : comparePosition? op l r = some x) :
    Atom x := by
  have hlast (op : Comparison) : Atom (positionToLast op) := by
    cases op <;> exact ⟨by decide, rfl, rfl⟩
  rw [comparePosition?] at h
  split at h
  · cases h
  · split at h
    · exact Option.some.inj h ▸ hlast op
    · split at h
      · cases h
      · split at h
        · exact Option.some.inj h ▸ atom_ofBool _
        · exact positionsBy?_atom h

end atoms

/-- Whatever session a rule is tried in, what it makes of an expression is lighter. -/
def Lightens (e : Expr) (m : StateM Session (Option Expr)) : Prop :=
  Always m fun o => ∀ x, o = some x → x.weight < e.weight

namespace Lightens

theorem option {o : Option Expr} (h : ∀ x, o = some x → x.weight < e.weight) :
    Lightens e (pure o) := Always.pure h

theorem none : Lightens e (pure none) := option nofun

theorem some (h : x.weight < e.weight) : Lightens e (pure (some x)) :=
  option (by rintro _ ⟨⟩; exact h)

theorem bind {m : StateM Session α} {f : α → StateM Session (Option Expr)}
    (hf : ∀ a, Lightens e (f a)) : Lightens e (m >>= f) := Always.bind_any hf

end Lightens

section rules

theorem fold?_lighter : Lightens e (fold? E e) := by
  rw [fold?]
  cases hfold : e.isFoldable with
  | false => exact .none
  | true =>
    refine .bind fun result => .option fun x hx => ?_
    obtain ⟨v, -, rfl⟩ := Option.map_eq_some_iff.mp hx
    exact Nat.lt_of_le_of_lt (weight_value_le v) (three_le_weight (folds_of_isFoldable hfold))

/-- What takes the place of a count is no heavier. -/
theorem weight_counted?_le (h : l.counted? = some x) : x.weight ≤ l.weight := by
  rw [counted?] at h
  split at h
  · next nodes _ hcount =>
    obtain rfl := Option.some.inj h
    obtain ⟨scope, rfl⟩ := operand?_eq_some.mp hcount
    simp only [weight, weights]
    omega
  · next text _ hlength =>
    obtain rfl := Option.some.inj h
    obtain ⟨scope, rfl⟩ := operand?_eq_some.mp hlength
    exact weight_stringOf_le text
  · split at h
    · next hplain =>
      obtain rfl := Option.some.inj h
      obtain ⟨scope, rfl⟩ := isPlainCall_iff.mp hplain
      exact Nat.le_refl _
    · cases h

theorem weight_compareWithZero?_le {op : Comparison} (h : compareWithZero? op l r = some x) :
    x.weight ≤ 3 + l.weight := by
  rw [compareWithZero?] at h
  split at h
  · next thing _ hcounted =>
    have hthing := weight_counted?_le hcounted
    have htruth : (truthOf thing).weight ≤ 3 + thing.weight := weight_truthOf_le thing
    have hbool (b : Bool) : (ofBool b).weight ≤ 3 + l.weight := by
      rw [ofBool, weight]
      omega
    split at h
    · cases h
    · obtain rfl := Option.some.inj h
      cases op with
      | equal | atMost =>
        simp only [callOf, weight, weights]
        omega
      | unequal | greater => exact Nat.le_trans htruth (Nat.add_le_add_left hthing 3)
      | atLeast | less => exact hbool _
  · cases h

theorem compareNumeric?_lighter {op : Comparison} (h : compareNumeric? op l r = some x) :
    x.weight < (Expr.compare op l r).weight := by
  have hl := weight_pos l
  have hr := weight_pos r
  have hweight : (Expr.compare op l r).weight = 2 + l.weight + 2 * r.weight := by rw [weight]
  have hposition {op' : Comparison} {a b : Expr} (h : comparePosition? op' a b = some x) :
      x.weight < (Expr.compare op l r).weight := by
    have := (comparePosition?_atom h).light
    omega
  rw [compareNumeric?, Option.or_eq_some_iff] at h
  rcases h with h | ⟨-, h⟩
  · rcases Option.or_eq_some_iff.mp h with h | ⟨-, h⟩
    · rcases Option.or_eq_some_iff.mp h with h | ⟨-, h⟩
      · have := weight_compareWithZero?_le h
        omega
      · exact hposition h
    · split at h
      · rcases Option.or_eq_some_iff.mp h with h | ⟨-, h⟩
        · have := weight_compareWithZero?_le h
          omega
        · exact hposition h
      · cases h
  · split at h
    · exact hposition h
    · cases h

theorem compareNodesTo?_lighter {op : Comparison} (h : compareNodesTo? op l r = some x) :
    x.weight < (Expr.compare op l r).weight := by
  rw [compareNodesTo?] at h
  split at h
  · next v hv =>
    obtain ⟨hweight, -⟩ := scalar?_eq_some hv
    split at h
    · obtain rfl := Option.some.inj h
      simp only [weight]
      omega
    · split at h
      · obtain rfl := Option.some.inj h
        simp only [weight]
        omega
      · cases h
  · split at h
    · next hswap =>
      obtain rfl := Option.some.inj h
      rw [Bool.and_eq_true, Option.isSome_iff_exists] at hswap
      obtain ⟨⟨v, hv⟩, hnodes⟩ := hswap
      have hlone := (scalar?_eq_some hv).1
      have hrtwo := two_le_weight hnodes
      simp only [weight]
      omega
    · cases h

theorem comparisonRule?_lighter (op : Comparison) :
    Lightens (.compare op l r) (comparisonRule? E op l r) := by
  rw [comparisonRule?]
  split
  · next x hx => exact .some (compareNodesTo?_lighter hx)
  · refine Always.bind fold?_lighter fun o ho => Lightens.option fun x hx => ?_
    rcases Option.or_eq_some_iff.mp hx with hx | ⟨-, hx⟩
    · exact ho x hx
    · exact compareNumeric?_lighter hx

theorem logicalRule?_lighter (op : Connective) :
    Lightens (.logical op l r) (logicalRule? T E op l r) := by
  have hl := weight_pos l
  have hr := weight_pos r
  have hweight : (Expr.logical op l r).weight = 3 + l.weight + r.weight := by rw [weight]
  have htruth := weight_truthOf_le r
  have hbool (b : Bool) : (ofBool b).weight < (Expr.logical op l r).weight := by
    rw [ofBool, hweight, weight]
    omega
  refine .bind fun known => ?_
  split
  · next known _ =>
    apply Lightens.some
    cases op <;> cases known <;> first | exact hbool _ | (change (truthOf r).weight < _; omega)
  · split
    · exact .some (Nat.lt_of_le_of_lt (atom_positions _ _).light (by omega))
    · exact fold?_lighter

theorem mergeRanges?_lighter {base predicate : Expr} (h : mergeRanges? base predicate = some x) :
    x.weight < (Expr.filter base predicate).weight := by
  rw [mergeRanges?.eq_def] at h
  split at h
  · split at h
    · obtain rfl := Option.some.inj h
      simp only [weight]
      omega
    · cases h
  · cases h

theorem filterRule?_lighter {base predicate : Expr} :
    Lightens (.filter base predicate) (filterRule? T E base predicate) := by
  have hbase := weight_pos base
  have hpredicate := weight_pos predicate
  have hweight : (Expr.filter base predicate).weight = 2 + base.weight + predicate.weight := by
    rw [weight]
  have hempty : emptySet.weight = 2 := rfl
  have hkept : base.weight < (Expr.filter base predicate).weight := by omega
  rw [filterRule?]
  split
  · exact .some hkept
  · refine .bind fun known => ?_
    split
    · exact .some hkept
    · exact .some (by omega)
    · split
      · next hlast =>
        obtain ⟨scope, rfl⟩ := isPlainCall_iff.mp hlast
        apply Lightens.some
        simp only [weight, weights]
        omega
      · exact .option fun x hx => mergeRanges?_lighter hx

/-- The predicates that are left weigh no more, and less if any was changed. -/
theorem simplePredicates?_lighter (predicates : List Expr) :
    Always (simplePredicates? T E predicates) fun o => ∀ left changed, o = some (left, changed) →
      weights left ≤ weights predicates ∧
        (changed = true → weights left < weights predicates) := by
  induction predicates with
  | nil =>
    refine .pure ?_
    rintro _ _ ⟨⟩
    exact ⟨Nat.le_refl _, fun h => Bool.noConfusion h⟩
  | cons p predicates ih =>
    have hp := weight_pos p
    rw [simplePredicates?]
    refine .bind_any fun known => ?_
    split
    · exact .pure nofun
    · refine ih.bind fun o ho => .pure fun left changed hmap => ?_
      obtain ⟨⟨qs, c⟩, rfl, heq⟩ := Option.map_eq_some_iff.mp hmap
      obtain ⟨rfl, rfl⟩ := Prod.mk.inj heq
      obtain ⟨hle, -⟩ := ho qs c rfl
      rw [weights]
      exact ⟨by omega, fun _ => by omega⟩
    · refine ih.bind fun o ho => ?_
      split
      · next hlast =>
        obtain ⟨scope, rfl⟩ := isPlainCall_iff.mp hlast
        refine .pure fun left changed hmap => ?_
        obtain ⟨⟨qs, c⟩, rfl, heq⟩ := Option.map_eq_some_iff.mp hmap
        obtain ⟨rfl, rfl⟩ := Prod.mk.inj heq
        obtain ⟨hle, -⟩ := ho qs c rfl
        simp only [weights, weight]
        exact ⟨by omega, fun _ => by omega⟩
      · refine .pure fun left changed hmap => ?_
        obtain ⟨⟨qs, c⟩, rfl, heq⟩ := Option.map_eq_some_iff.mp hmap
        obtain ⟨rfl, rfl⟩ := Prod.mk.inj heq
        obtain ⟨hle, hlt⟩ := ho qs c rfl
        simp only [weights]
        exact ⟨by omega, fun hc => Nat.add_lt_add_left (hlt hc) _⟩

/-- The start of a step `//` is lighter than the step. -/
theorem descendantStart?_lighter {start : Expr} (h : start.descendantStart? = some x) :
    x.weight < start.weight := by
  rw [descendantStart?.eq_def] at h
  split at h
  · obtain rfl := Option.some.inj h
    simp only [weight]
    omega
  · obtain rfl := Option.some.inj h
    exact Nat.lt_succ_self 2
  · cases h

theorem stepRule?_lighter {start : Expr} {along : Axis} {test : NodeTest} {predicates : List Expr}
    (h : stepRule? start along test predicates = some x) :
    x.weight < (Expr.path start along test predicates).weight := by
  rw [stepRule?.eq_def] at h
  split at h
  · obtain rfl := Option.some.inj h
    simp only [weight]
    omega
  · obtain rfl := Option.some.inj h
    simp [weight, weights]
  · obtain rfl := Option.some.inj h
    simp [weight, weights]
  · split at h
    · cases h
    · obtain ⟨origin, horigin, rfl⟩ := Option.map_eq_some_iff.mp h
      have := descendantStart?_lighter horigin
      simp only [weight]
      omega
  · cases h

theorem pathRule?_lighter {start : Expr} {along : Axis} {test : NodeTest}
    {predicates : List Expr} : Lightens (.path start along test predicates)
      (pathRule? T E start along test predicates) := by
  have hstart := weight_pos start
  have hempty : emptySet.weight = 2 := rfl
  have hweight : (Expr.path start along test predicates).weight =
      2 + start.weight + weights predicates := by rw [weight]
  rw [pathRule?]
  split
  · exact .some (by omega)
  · refine Always.bind (simplePredicates?_lighter predicates) fun o ho => ?_
    split
    · exact Lightens.some (by omega)
    · next left =>
      have hlt := (ho left true rfl).2 rfl
      apply Lightens.some
      simp only [weight]
      omega
    · exact Lightens.option fun x hx => stepRule?_lighter hx

theorem setRule?_lighter {op : SetOperator} (h : setRule? op l r = some x) :
    x.weight < (Expr.set op l r).weight := by
  have hl := weight_pos l
  have hr := weight_pos r
  have hweight : (Expr.set op l r).weight = 2 + l.weight + r.weight := by rw [weight]
  have hempty : emptySet.weight = 2 := rfl
  rw [setRule?.eq_def] at h
  split at h <;> split at h
  · obtain rfl := Option.some.inj h
    omega
  · split at h
    · obtain rfl := Option.some.inj h
      omega
    · cases h
  · split at h
    · cases h
    · obtain rfl := Option.some.inj h
      omega
  · split at h
    · obtain rfl := Option.some.inj h
      omega
    · cases h
  · obtain rfl := Option.some.inj h
    omega
  · cases h

/-- Any rule that applies to an expression lowers its weight. -/
theorem applyRule?_lighter (e : Expr) : Lightens e (e.applyRule? T E) := by
  rw [applyRule?.eq_def]
  split
  · exact logicalRule?_lighter _
  · exact comparisonRule?_lighter _
  · exact filterRule?_lighter
  · exact pathRule?_lighter
  · exact .option fun x hx => setRule?_lighter hx
  · refine .option fun x hx => ?_
    obtain ⟨c, -, rfl⟩ := Option.map_eq_some_iff.mp hx
    cases c <;> exact Nat.lt_succ_self 1
  · next args scope =>
    refine .option fun x hx => ?_
    split at hx
    · obtain rfl := Option.some.inj hx
      exact Nat.lt_of_lt_of_le (by decide) (three_le_weight_call _ args _ _)
    · cases hx
  · exact .some (by decide)
  · next only =>
    have := weight_stringOf_le only
    refine .some ?_
    simp only [weight, weights]
    omega
  · exact fold?_lighter

end rules

section loop

/-- What follows an application of a rule only matters for lighter expressions. -/
theorem after_rule_congr {a : α} {f g : Expr → StateM Session α}
    (h : ∀ x, x.weight < e.weight → f x = g x) :
    (do match ← e.applyRule? T E with
        | none => pure a
        | some x => f x) =
      (do match ← e.applyRule? T E with
          | none => pure a
          | some x => g x) := by
  funext s
  have hlight := applyRule?_lighter (T := T) (E := E) e s
  change (match ((e.applyRule? T E).run s).1 with
      | none => pure a
      | some x => f x : StateM Session α) ((e.applyRule? T E).run s).2 =
    (match ((e.applyRule? T E).run s).1 with
      | none => pure a
      | some x => g x : StateM Session α) ((e.applyRule? T E).run s).2
  cases ho : ((e.applyRule? T E).run s).1 with
  | none => rfl
  | some x => exact congrFun (h x (hlight x ho)) _

/-- A bound that is no smaller than the weight is never reached. -/
theorem applyRulesUpTo_enough {limit limit' : Nat} (h : e.weight ≤ limit) (h' : e.weight ≤ limit')
    (changed : Bool) : applyRulesUpTo T E limit e changed = applyRulesUpTo T E limit' e changed := by
  induction limit generalizing e limit' changed with
  | zero => exact absurd (weight_pos e) (by omega)
  | succ n ih =>
    obtain _ | n' := limit'
    · exact absurd (weight_pos e) (by omega)
    · exact after_rule_congr fun x hx => ih (by omega) (by omega) true

/-- Rules are applied as long as one applies: the bound of the loop makes no difference. -/
theorem applyRules_eq (e : Expr) (changed : Bool) :
    applyRules T E e changed = (do
      match ← e.applyRule? T E with
      | none => return (e, changed)
      | some x => applyRules T E x true) := by
  obtain ⟨n, hn⟩ := Nat.exists_eq_add_of_lt (weight_pos e)
  rw [applyRules, hn, applyRulesUpTo]
  exact after_rule_congr fun x hx => applyRulesUpTo_enough (by omega) (Nat.le_refl _) true

end loop

end PathLanguage.Expr
