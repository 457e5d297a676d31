/- The current node under simplification: a rule makes a constant of an expression, or what asks for
the current node just if the expression does. -/
import PathLanguage.Proofs.Template.Simplified

namespace PathLanguage

namespace Dependencies

variable {a b : Dependencies}

@[simp] theorem currentNode_union : (a ∪ b).currentNode = (a.currentNode || b.currentNode) := rfl

@[simp] theorem currentNode_inter : (a ∩ b).currentNode = (a.currentNode && b.currentNode) := rfl

@[simp] theorem currentNode_empty : (∅ : Dependencies).currentNode = false := rfl

@[simp] theorem currentNode_fixed : fixedInPredicates.currentNode = true := rfl

end Dependencies

namespace Expr

variable {T : Transformation} {E : Engine} {e l r x : Expr} {α : Type}

/-- Whether an expression asks for the current node. -/
def asksCurrent (e : Expr) : Bool := e.dependencies.currentNode

/-- Whatever session a rule is tried in, it makes a constant, or what asks for the current node just
if the expression does. -/
def Retains (e : Expr) (m : StateM Session (Option Expr)) : Prop :=
  Always m fun o => ∀ x, o = some x → x.isValue = true ∨ x.asksCurrent = e.asksCurrent

namespace Retains

theorem option {o : Option Expr}
    (h : ∀ x, o = some x → x.isValue = true ∨ x.asksCurrent = e.asksCurrent) :
    Retains e (pure o) := Always.pure h

theorem none : Retains e (pure none) := option nofun

theorem some (h : x.isValue = true ∨ x.asksCurrent = e.asksCurrent) : Retains e (pure (some x)) :=
  option (by rintro _ ⟨⟩; exact h)

theorem bind {m : StateM Session α} {f : α → StateM Session (Option Expr)}
    (hf : ∀ a, Retains e (f a)) : Retains e (m >>= f) := Always.bind_any hf

end Retains

section parts

theorem asksCurrent_truthOf (e : Expr) : (truthOf e).asksCurrent = e.asksCurrent := by
  rw [truthOf]
  split
  · rfl
  · simp [callOf, asksCurrent, dependencies, dependenciesOfAll, SystemFunction.intrinsic]

theorem asksCurrent_stringOf (e : Expr) : (stringOf e).asksCurrent = e.asksCurrent := by
  rw [stringOf]
  split
  · rfl
  · simp [callOf, asksCurrent, dependencies, dependenciesOfAll, SystemFunction.intrinsic]

theorem asksCurrent_positions (least most : Nat) : (positions least most).asksCurrent = false := by
  rw [positions]
  split <;> rfl

theorem asksCurrent_of_isValue (h : e.isValue = true) : e.asksCurrent = false := by
  cases e with
  | value v => rfl
  | _ => cases h

theorem isValue_of_number? {n : Number} (h : e.number? = some n) : e.isValue = true := by
  cases e with
  | value v => rfl
  | _ => cases h

theorem isValue_of_scalar? {v : Value} (h : e.scalar? = some v) : e.isValue = true := by
  cases e with
  | value v => rfl
  | _ => cases h

theorem asksCurrent_of_isPlainCall {f : SystemFunction} (hf : f ≠ .current)
    (h : e.isPlainCall f = true) : e.asksCurrent = false := by
  obtain ⟨scope, rfl⟩ := isPlainCall_iff.mp h
  cases f with
  | current => exact absurd rfl hf
  | _ => rfl

/-- What takes the place of a count asks for what the count does. -/
theorem asksCurrent_counted? (h : l.counted? = some x) : x.asksCurrent = l.asksCurrent := by
  rw [counted?] at h
  split at h
  · next nodes _ hcount =>
    obtain rfl := Option.some.inj h
    obtain ⟨scope, rfl⟩ := operand?_eq_some.mp hcount
    simp [asksCurrent, dependencies, dependenciesOfAll, SystemFunction.intrinsic]
  · next text _ hlength =>
    obtain rfl := Option.some.inj h
    obtain ⟨scope, rfl⟩ := operand?_eq_some.mp hlength
    rw [asksCurrent_stringOf]
    simp [asksCurrent, dependencies, dependenciesOfAll, SystemFunction.intrinsic]
  · split at h
    · next hplain =>
      obtain rfl := Option.some.inj h
      rw [asksCurrent_of_isPlainCall (by decide) hplain]
      rfl
    · cases h

theorem asksCurrent_compareWithZero? {op : Comparison} (h : compareWithZero? op l r = some x) :
    x.isValue = true ∨ x.asksCurrent = (Expr.compare op l r).asksCurrent := by
  rw [compareWithZero?] at h
  split at h
  · next n thing hnumber hcounted =>
    have hwhole : (Expr.compare op l r).asksCurrent = thing.asksCurrent := by
      rw [asksCurrent_counted? hcounted]
      have hr := asksCurrent_of_isValue (isValue_of_number? hnumber)
      simp only [asksCurrent, dependencies, Dependencies.currentNode_union] at hr ⊢
      rw [hr, Bool.or_false]
    split at h
    · cases h
    · obtain rfl := Option.some.inj h
      cases op with
      | equal | atMost =>
        refine .inr (hwhole ▸ ?_)
        simp [callOf, asksCurrent, dependencies, dependenciesOfAll, SystemFunction.intrinsic]
      | unequal | greater => exact .inr (hwhole ▸ asksCurrent_truthOf thing)
      | atLeast | less => exact .inl rfl
  · cases h

theorem asksCurrent_positionsBy? {n : Number} {op : Comparison} (h : positionsBy? n op = some x) :
    x.asksCurrent = false := by
  cases op with
  | unequal => cases h
  | less | atMost => exact Option.some.inj h ▸ asksCurrent_positions _ _
  | equal =>
    rw [positionsBy?] at h
    split at h
    · exact Option.some.inj h ▸ asksCurrent_positions _ _
    · exact Option.some.inj h ▸ rfl
  | greater | atLeast =>
    rw [positionsBy?] at h
    split at h
    · exact Option.some.inj h ▸ rfl
    · exact Option.some.inj h ▸ asksCurrent_positions _ _

/-- Neither a comparison of positions nor what it becomes asks for the current node. -/
theorem asksCurrent_comparePosition? {op : Comparison} (h : comparePosition? op l r = some x) :
    x.asksCurrent = false ∧ l.asksCurrent = false ∧ r.asksCurrent = false := by
  rw [comparePosition?] at h
  split at h
  · cases h
  · next hl =>
    rw [Bool.not_eq_true', Bool.not_eq_false] at hl
    have hl := asksCurrent_of_isPlainCall (by decide) hl
    split at h
    · next hr =>
      obtain rfl := Option.some.inj h
      refine ⟨?_, hl, asksCurrent_of_isPlainCall (by decide) hr⟩
      cases op <;> rfl
    · split at h
      · cases h
      · next n hr =>
        have hr := asksCurrent_of_isValue (isValue_of_number? hr)
        split at h
        · exact ⟨Option.some.inj h ▸ rfl, hl, hr⟩
        · exact ⟨asksCurrent_positionsBy? h, hl, hr⟩

end parts

section rules

theorem fold?_retains : Retains e (fold? E e) := by
  rw [fold?]
  split
  · exact .none
  · refine .bind fun result => .option fun x hx => ?_
    obtain ⟨v, -, rfl⟩ := Option.map_eq_some_iff.mp hx
    exact .inl rfl

theorem asksCurrent_compare (op op' : Comparison) (l r : Expr) :
    (Expr.compare op l r).asksCurrent = (Expr.compare op' r l).asksCurrent := by
  simp only [asksCurrent, dependencies, Dependencies.currentNode_union, Bool.or_comm]

theorem compareNumeric?_retains {op : Comparison} (h : compareNumeric? op l r = some x) :
    x.isValue = true ∨ x.asksCurrent = (Expr.compare op l r).asksCurrent := by
  have hposition {op' : Comparison} {a b : Expr} (h : comparePosition? op' a b = some x) :
      x.asksCurrent = (Expr.compare op' a b).asksCurrent := by
    obtain ⟨hx, ha, hb⟩ := asksCurrent_comparePosition? h
    simp only [asksCurrent, dependencies, Dependencies.currentNode_union] at hx ha hb ⊢
    rw [hx, ha, hb]
    rfl
  rw [compareNumeric?, Option.or_eq_some_iff] at h
  rcases h with h | ⟨-, h⟩
  · rcases Option.or_eq_some_iff.mp h with h | ⟨-, h⟩
    · rcases Option.or_eq_some_iff.mp h with h | ⟨-, h⟩
      · exact asksCurrent_compareWithZero? h
      · exact .inr (hposition h)
    · split at h
      · rw [asksCurrent_compare op op.inverse]
        rcases Option.or_eq_some_iff.mp h with h | ⟨-, h⟩
        · exact asksCurrent_compareWithZero? h
        · exact .inr (hposition h)
      · cases h
  · split at h
    · rw [asksCurrent_compare op op.inverse]
      exact .inr (hposition h)
    · cases h

theorem compareNodesTo?_retains {op : Comparison} (h : compareNodesTo? op l r = some x) :
    x.asksCurrent = (Expr.compare op l r).asksCurrent := by
  rw [compareNodesTo?] at h
  split at h
  · next v hv =>
    have hr := asksCurrent_of_isValue (isValue_of_scalar? hv)
    have hwhole : (Expr.compare op l r).asksCurrent = l.asksCurrent := by
      simp only [asksCurrent, dependencies, Dependencies.currentNode_union] at hr ⊢
      rw [hr, Bool.or_false]
    split at h
    · exact Option.some.inj h ▸ hwhole.symm
    · split at h
      · exact Option.some.inj h ▸ hwhole.symm
      · cases h
  · split at h
    · exact Option.some.inj h ▸ asksCurrent_compare _ _ _ _
    · cases h

theorem comparisonRule?_retains (op : Comparison) :
    Retains (.compare op l r) (comparisonRule? E op l r) := by
  rw [comparisonRule?]
  split
  · next x hx => exact .some (.inr (compareNodesTo?_retains hx))
  · refine Always.bind fold?_retains fun o ho => Retains.option fun x hx => ?_
    rcases Option.or_eq_some_iff.mp hx with hx | ⟨-, hx⟩
    · exact ho x hx
    · exact compareNumeric?_retains hx

/-- Only a constant has a truth that is known. -/
theorem constantTruth_isValue (e : Expr) :
    Always (constantTruth T E e) fun o => ∀ b, o = some b → e.isValue = true := by
  cases e with
  | value v => exact fun _ _ _ => rfl
  | _ => exact .pure nofun

theorem logicalRule?_retains (op : Connective) :
    Retains (.logical op l r) (logicalRule? T E op l r) := by
  refine (constantTruth_isValue l).bind fun known hknown => ?_
  split
  · next b hb =>
    have hl : l.asksCurrent = false := by
      refine asksCurrent_of_isValue ?_
      rcases Option.or_eq_some_iff.mp hb with hb | ⟨-, hb⟩
      · exact hknown b hb
      · obtain ⟨n, hn, -⟩ := Option.map_eq_some_iff.mp hb
        exact isValue_of_number? hn
    have htruth : (truthOf r).asksCurrent = (Expr.logical op l r).asksCurrent := by
      rw [asksCurrent_truthOf]
      simp only [asksCurrent, dependencies, Dependencies.currentNode_union] at hl ⊢
      rw [hl, Bool.false_or]
    apply Retains.some
    cases op <;> cases b <;> first | exact .inl rfl | exact .inr htruth
  · split
    · exact Retains.some (.inr (asksCurrent_positions _ _))
    · exact fold?_retains

theorem mergeRanges?_retains {base predicate : Expr} (h : mergeRanges? base predicate = some x) :
    x.asksCurrent = (Expr.filter base predicate).asksCurrent := by
  rw [mergeRanges?.eq_def] at h
  split at h
  · split at h
    · obtain rfl := Option.some.inj h
      simp [asksCurrent, dependencies]
    · cases h
  · cases h

theorem filterRule?_retains {base predicate : Expr} :
    Retains (.filter base predicate) (filterRule? T E base predicate) := by
  have hkept (h : predicate.isValue = true) :
      base.asksCurrent = (Expr.filter base predicate).asksCurrent := by
    have := asksCurrent_of_isValue h
    simp only [asksCurrent, dependencies, Dependencies.currentNode_union,
      Dependencies.currentNode_inter] at this ⊢
    rw [this, Bool.false_and, Bool.or_false]
  rw [filterRule?]
  split
  · next h =>
    refine Retains.some (.inl ?_)
    cases base with
    | value v => rfl
    | _ => cases h
  · refine (constantTruth_isValue predicate).bind fun known hknown => ?_
    split
    · exact Retains.some (.inr (hkept (hknown true rfl)))
    · exact Retains.some (.inl rfl)
    · split
      · next hlast =>
        obtain ⟨scope, rfl⟩ := isPlainCall_iff.mp hlast
        exact Retains.some (.inr (by simp [asksCurrent, dependencies, dependenciesOfAll,
          SystemFunction.intrinsic]))
      · exact Retains.option fun x hx => .inr (mergeRanges?_retains hx)

/-- The predicates that are left ask for the current node just if the predicates do. -/
theorem simplePredicates?_retains (predicates : List Expr) :
    Always (simplePredicates? T E predicates) fun o => ∀ left changed, o = some (left, changed) →
      left.any asksCurrent = predicates.any asksCurrent := by
  induction predicates with
  | nil =>
    refine .pure ?_
    rintro _ _ ⟨⟩
    rfl
  | cons p predicates ih =>
    rw [simplePredicates?]
    refine (constantTruth_isValue p).bind fun known hknown => ?_
    split
    · refine .pure ?_
      rintro _ _ ⟨⟩
    · refine ih.bind fun o ho => .pure fun left changed hmap => ?_
      obtain ⟨⟨qs, c⟩, rfl, heq⟩ := Option.map_eq_some_iff.mp hmap
      obtain ⟨rfl, rfl⟩ := Prod.mk.inj heq
      rw [List.any_cons, asksCurrent_of_isValue (hknown true rfl), Bool.false_or]
      exact ho qs c rfl
    · refine ih.bind fun o ho => ?_
      split
      · next hlast =>
        refine .pure fun left changed hmap => ?_
        obtain ⟨⟨qs, c⟩, rfl, heq⟩ := Option.map_eq_some_iff.mp hmap
        obtain ⟨rfl, rfl⟩ := Prod.mk.inj heq
        rw [List.any_cons, List.any_cons, ho qs c rfl,
          asksCurrent_of_isPlainCall (by decide) hlast]
        rfl
      · refine .pure fun left changed hmap => ?_
        obtain ⟨⟨qs, c⟩, rfl, heq⟩ := Option.map_eq_some_iff.mp hmap
        obtain ⟨rfl, rfl⟩ := Prod.mk.inj heq
        rw [List.any_cons, List.any_cons, ho qs c rfl]

theorem dependenciesOfAll_currentNode (es : List Expr) :
    (dependenciesOfAll es).currentNode = es.any asksCurrent := by
  induction es with
  | nil => rfl
  | cons e es ih => rw [dependenciesOfAll, Dependencies.currentNode_union, ih]; rfl

theorem asksCurrent_path (start : Expr) (along : Axis) (test : NodeTest) (ps : List Expr) :
    (Expr.path start along test ps).asksCurrent = (start.asksCurrent || ps.any asksCurrent) := by
  simp [asksCurrent, dependencies, dependenciesOfAll_currentNode]

theorem stepRule?_retains {start : Expr} {along : Axis} {test : NodeTest} {predicates : List Expr}
    (h : stepRule? start along test predicates = some x) :
    x.asksCurrent = (Expr.path start along test predicates).asksCurrent := by
  rw [stepRule?.eq_def] at h
  split at h
  · obtain rfl := Option.some.inj h
    rw [asksCurrent_path, List.any_nil, Bool.or_false]
  · exact Option.some.inj h ▸ rfl
  · exact Option.some.inj h ▸ rfl
  · split at h
    · cases h
    · obtain ⟨origin, horigin, rfl⟩ := Option.map_eq_some_iff.mp h
      rw [descendantStart?.eq_def] at horigin
      rw [asksCurrent_path, asksCurrent_path]
      split at horigin
      · obtain rfl := Option.some.inj horigin
        rw [asksCurrent_path, List.any_nil, Bool.or_false]
      · exact Option.some.inj horigin ▸ rfl
      · cases horigin
  · cases h

theorem pathRule?_retains {start : Expr} {along : Axis} {test : NodeTest}
    {predicates : List Expr} : Retains (.path start along test predicates)
      (pathRule? T E start along test predicates) := by
  rw [pathRule?]
  split
  · next h =>
    refine Retains.some (.inl ?_)
    cases start with
    | value v => rfl
    | _ => cases h
  · refine (simplePredicates?_retains predicates).bind fun o ho => ?_
    split
    · exact Retains.some (.inl rfl)
    · next left =>
      refine Retains.some (.inr ?_)
      rw [asksCurrent_path, asksCurrent_path, ho left true rfl]
    · exact Retains.option fun x hx => .inr (stepRule?_retains hx)

theorem setRule?_retains {op : SetOperator} (h : setRule? op l r = some x) :
    x.isValue = true ∨ x.asksCurrent = (Expr.set op l r).asksCurrent := by
  have hempty {e : Expr} (he : e.isEmptyNodeSet = true) : e.asksCurrent = false := by
    refine asksCurrent_of_isValue ?_
    cases e with
    | value v => rfl
    | _ => cases he
  have hwhole : (Expr.set op l r).asksCurrent = (l.asksCurrent || r.asksCurrent) := rfl
  rw [setRule?.eq_def] at h
  split at h <;> split at h
  · next hl =>
    rw [Bool.and_eq_true] at hl
    refine .inr ?_
    rw [hwhole, hempty hl.1, Option.some.inj h, Bool.false_or]
  · split at h
    · next hr =>
      rw [Bool.and_eq_true] at hr
      refine .inr ?_
      rw [hwhole, hempty hr.1, Option.some.inj h, Bool.or_false]
    · cases h
  · next hr =>
    split at h
    · cases h
    · refine .inr ?_
      rw [hwhole, hempty hr, Option.some.inj h, Bool.or_false]
  · split at h
    · exact .inl (Option.some.inj h ▸ rfl)
    · cases h
  · exact .inl (Option.some.inj h ▸ rfl)
  · cases h

/-- A rule makes a constant, or what asks for the current node just if the expression does. -/
theorem applyRule?_retains (e : Expr) : Retains e (e.applyRule? T E) := by
  rw [applyRule?.eq_def]
  split
  · exact logicalRule?_retains _
  · exact comparisonRule?_retains _
  · exact filterRule?_retains
  · exact pathRule?_retains
  · exact .option fun x hx => setRule?_retains hx
  · refine .option fun x hx => ?_
    obtain ⟨c, -, rfl⟩ := Option.map_eq_some_iff.mp hx
    exact .inl rfl
  · refine .option fun x hx => ?_
    split at hx
    · exact .inl (Option.some.inj hx ▸ rfl)
    · cases hx
  · exact .some (.inl rfl)
  · next only =>
    refine .some (.inr ?_)
    rw [asksCurrent_stringOf]
    simp [asksCurrent, dependencies, dependenciesOfAll]
  · exact fold?_retains

end rules

/-- A call of `current()` that simplification keeps: no expression around it comes to a constant. -/
inductive KeepsCurrent : Expr → Prop
  | currentNode : KeepsCurrent .currentNode
  | part {e c : Expr} : c ∈ e.children → c.KeepsCurrent → e.simplified.isValue = false →
      e.KeepsCurrent

section simplified

variable {S : Scope} {w : Spelling}

theorem grammatical_of_mem {es : List Expr} (h : GrammaticalAll S w es) :
    ∀ e ∈ es, e.Grammatical S w := by
  induction es with
  | nil => exact List.forall_mem_nil _
  | cons e es ih => exact List.forall_mem_cons.mpr ⟨h.1, ih h.2⟩

/-- The parts of an expression of the grammar are of the grammar. -/
theorem grammatical_children (h : e.Grammatical S w) : ∀ c ∈ e.children, c.Grammatical S w := by
  cases e with
  | path start along test predicates =>
    exact List.forall_mem_cons.mpr ⟨h.1, grammatical_of_mem h.2.2.2⟩
  | filter base predicate =>
    exact List.forall_mem_cons.mpr ⟨h.1, List.forall_mem_singleton.mpr h.2.2⟩
  | set op l r =>
    exact List.forall_mem_cons.mpr ⟨h.2.1.1, List.forall_mem_singleton.mpr h.2.2.1⟩
  | distinct base => exact List.forall_mem_singleton.mpr h.2.1
  | distinctBy base key =>
    exact List.forall_mem_cons.mpr ⟨h.2.1.1, List.forall_mem_singleton.mpr h.2.2⟩
  | logical | compare | arithmetic =>
    exact List.forall_mem_cons.mpr ⟨h.1, List.forall_mem_singleton.mpr h.2⟩
  | negate e => exact List.forall_mem_singleton.mpr h
  | call f args bound scope => exact grammatical_of_mem h.2.2.2.2.2.2
  | extension name args => exact grammatical_of_mem h.2
  | compareNode | compareNodes | template | sorted => exact False.elim h
  | _ => exact List.forall_mem_nil _

theorem weight_le_of_mem {es : List Expr} : ∀ c ∈ es, c.weight ≤ weights es := by
  induction es with
  | nil => exact List.forall_mem_nil _
  | cons e es ih =>
    rw [weights]
    refine List.forall_mem_cons.mpr ⟨Nat.le_add_right _ _, fun c hc => ?_⟩
    exact Nat.le_trans (ih c hc) (Nat.le_add_left _ _)

theorem weights_children_lt (e : Expr) : weights e.children < e.weight := by
  cases e with
  | path | filter | set | distinct | distinctBy | logical | compare | arithmetic | compareNode
  | compareNodes | negate | call | extension | template | sorted =>
    simp only [children, weights, weight]
    omega
  | _ => exact weight_pos _

/-- Among the functions only `current()` asks for the current node, and that is no call. -/
theorem intrinsic_currentNode {f : SystemFunction} (hf : f ≠ .current) (arity : Nat) :
    (f.intrinsic arity).currentNode = false := by
  cases f with
  | current => exact absurd rfl hf
  | localName | namespaceUri | name | generateId | number | string | stringLength
  | normalizeSpace =>
    rw [SystemFunction.intrinsic]
    split <;> rfl
  | _ => rfl

/-- The simplified parts ask for the current node just if one of them does. -/
theorem asksCurrent_parts (h : e.Grammatical S w) : e.partsSimplified.asksCurrent = true ↔
    e = .currentNode ∨ ∃ c ∈ e.children, c.simplified.asksCurrent = true := by
  cases e with
  | path start along test ps =>
    simp [partsSimplified, asksCurrent_path, children, List.any_map]
  | call f args bound scope =>
    obtain ⟨rfl, -, hf, -⟩ := h
    simp [partsSimplified, asksCurrent, dependencies, children, intrinsic_currentNode hf,
      dependenciesOfAll_currentNode, List.any_map]
  | extension name args =>
    simp [partsSimplified, asksCurrent, dependencies, children, dependenciesOfAll_currentNode,
      List.any_map]
  | filter | set | distinct | distinctBy | logical | compare | arithmetic | negate =>
    simp [partsSimplified, asksCurrent, dependencies, children]
  | currentNode => simp [partsSimplified, asksCurrent, dependencies]
  | value | root | contextNode | parentNode | failure =>
    simp [partsSimplified, asksCurrent, dependencies, children]
  | reference b =>
    change (dependencies (.reference b)).currentNode = true ↔ _
    rw [dependencies]
    split <;> simp [children]
  | _ => exact False.elim h

/-- The simplified form is a constant, or asks for the current node just if the simplified parts
do. -/
theorem simplified_retains (hf : e.Fresh) : e.simplified.isValue = true ∨
    e.simplified.asksCurrent = e.partsSimplified.asksCurrent := by
  refine simplified_of_parts (Q := fun x => x.isValue = true ∨
    x.asksCurrent = e.partsSimplified.asksCurrent) hf fun changed => ?_
  refine applyRulesUpTo_keeps (Q := fun x => x.isValue = true ∨
    x.asksCurrent = e.partsSimplified.asksCurrent) (fun x hx => ?_) (.inr rfl) _ changed
  obtain hx | hx := hx
  · cases x with
    | value v => exact (inert_value v).rule.imp fun o ho => by rw [ho]; nofun
    | _ => cases hx
  · exact (applyRule?_retains x).imp fun o ho y hy => (ho y hy).imp_right fun h => h.trans hx

theorem simplified_currentNode : Expr.currentNode.simplified = .currentNode := by
  have hinert : Inert .bare Transformation.bare.run .currentNode :=
    ⟨always_fold?_none rfl, List.forall_mem_nil _⟩
  exact simplified_of_parts (Q := (· = .currentNode)) (only_of_leaves rfl) fun changed =>
    applyRulesUpTo_inert hinert _ changed

/-- The simplified form of an expression asks for the current node just if it keeps a call of
`current()`. -/
theorem asksCurrent_simplified (h : e.Grammatical S w) :
    e.simplified.asksCurrent = true ↔ e.KeepsCurrent := by
  induction hn : e.weight using Nat.strongRecOn generalizing e with
  | ind n ih =>
    have hpart (c : Expr) (hc : c ∈ e.children) : c.simplified.asksCurrent = true ↔
        c.KeepsCurrent := by
      have hle := weight_le_of_mem c hc
      have hlt := e.weights_children_lt
      exact ih c.weight (by omega) (grammatical_children h c hc) rfl
    have hretains := simplified_retains (fresh_of_grammatical h)
    constructor
    · intro hasks
      have hvalue : e.simplified.isValue = false := by
        rw [← Bool.not_eq_true]
        intro hv
        rw [asksCurrent_of_isValue hv] at hasks
        cases hasks
      obtain hv | heq := hretains
      · rw [hvalue] at hv
        cases hv
      · rw [heq, asksCurrent_parts h] at hasks
        obtain rfl | ⟨c, hc, hasks⟩ := hasks
        · exact .currentNode
        · exact .part hc ((hpart c hc).mp hasks) hvalue
    · intro hkeeps
      cases hkeeps with
      | currentNode =>
        rw [simplified_currentNode]
        rfl
      | part hc hkeeps hvalue =>
        obtain hv | heq := hretains
        · rw [hvalue] at hv
          cases hv
        · rw [heq, asksCurrent_parts h]
          exact .inr ⟨_, hc, (hpart _ hc).mpr hkeeps⟩

end simplified

end Expr

end PathLanguage
