/- Static types under simplification: a rule keeps the type of an expression, unless the expression
stands for nodes; then what the rule makes of it stands for no nodes only if the expression did not
either. -/
import PathLanguage.Proofs.Expr.Nodeless
import PathLanguage.Proofs.Simplification.Idempotence

namespace PathLanguage

/-- An engine whose values have the static types of their expressions. -/
def Engine.Typed (E : Engine) : Prop := ∀ e c, Returns (E.value e c) (·.Has e.type)

namespace Expr

variable {T : Transformation} {E : Engine} {e x y l r base predicate start : Expr} {along : Axis}
  {test : NodeTest} {predicates : List Expr} {α : Type}

/-- What an expression may become as far as its type is concerned. A property of the processor is of
no certain type before it is asked for. -/
structure Retypes (e x : Expr) : Prop where
  nodeless : x.Nodeless → e.Nodeless
  type : e.type ≠ .nodeSet → e.asksProperty = false → x.type = e.type

namespace Retypes

theorem refl (e : Expr) : e.Retypes e := ⟨id, fun _ _ => rfl⟩

/-- What becomes a property of the processor is no expression of another type. -/
theorem trans (h : e.Retypes x) (h' : x.Retypes y) : e.Retypes y := by
  refine ⟨fun hy => h.nodeless (h'.nodeless hy), fun hn hp => ?_⟩
  have htype := h.type hn hp
  have hx : x.asksProperty = false := by
    by_contra hx
    rw [Bool.not_eq_false] at hx
    have hany := type_of_asksProperty hx
    exact (h.nodeless (.property hx)).type_ne hp (htype.symm.trans hany)
  exact (h'.type (htype ▸ hn) hx).trans htype

theorem of_scalar (h : x.type = e.type)
    (he : e.type = .boolean ∨ e.type = .number ∨ e.type = .string) : e.Retypes x := by
  refine ⟨fun _ => .plain ?_ ?_, fun _ _ => h⟩
  · rcases he with he | he | he <;> rw [he] <;> decide
  · rcases he with he | he | he <;> rw [he] <;> decide

/-- A test becomes another one. -/
theorem of_boolean (he : e.type = .boolean) (h : x.type = .boolean) : e.Retypes x :=
  of_scalar (h.trans he.symm) (.inl he)

/-- A string becomes another one. -/
theorem of_string (he : e.type = .string) (h : x.type = .string) : e.Retypes x :=
  of_scalar (h.trans he.symm) (.inr (.inr he))

/-- An expression of nodes becomes another one. -/
theorem of_nodes (h : e.type = .nodeSet) (hx : x.Nodeless → e.Nodeless) : e.Retypes x :=
  ⟨hx, fun hn => absurd h hn⟩

theorem emptySet (h : e.type = .nodeSet) : e.Retypes emptySet :=
  of_nodes h fun hx => absurd hx (not_nodeless rfl rfl)

/-- Other parts of an expression that does not apply anything to nodes leave its type as it is. -/
theorem of_form (h : x.type = e.type) (hp : x.asksProperty = e.asksProperty)
    (hx : x.isApplied = false) : e.Retypes x := by
  refine ⟨fun hnode => ?_, fun _ _ => h⟩
  cases hnode with
  | plain hn ha => exact .plain (h ▸ hn) (h ▸ ha)
  | property hq => exact .property (hp ▸ hq)
  | filter | path | left | right => cases hx

end Retypes

/-- Whatever session a rule is tried in, the expression may become what it makes. -/
def Types (e : Expr) (m : StateM Session (Option Expr)) : Prop :=
  Always m fun o => ∀ x, o = some x → e.Retypes x

namespace Types

theorem option {o : Option Expr} (h : ∀ x, o = some x → e.Retypes x) : Types e (pure o) :=
  Always.pure h

theorem none : Types e (pure none) := by
  refine option fun x hx => ?_
  cases hx

theorem some (h : e.Retypes x) : Types e (pure (some x)) := by
  apply option
  rintro _ ⟨⟩
  exact h

theorem bind {m : StateM Session α} {f : α → StateM Session (Option Expr)}
    (hf : ∀ a, Types e (f a)) : Types e (m >>= f) := Always.bind_any hf

end Types

section rules

theorem type_truthOf (e : Expr) : (truthOf e).type = .boolean := by
  rw [truthOf]
  split
  · next h => exact h
  · rfl

theorem type_stringOf (e : Expr) : (stringOf e).type = .string := by
  rw [stringOf]
  split
  · next h => exact h
  · rfl

/-- Of what can be folded, only a property of the processor is of no certain type. -/
theorem asksProperty_of_isFoldable (h : e.isFoldable = true) (ha : e.type = .any) :
    e.asksProperty = true := by
  cases e with
  | call f args bound scope =>
    cases f with
    | systemProperty => rfl
    | _ => cases ha
  | value v => cases h
  | reference | extension | failure => simp [isFoldable] at h
  | _ => cases ha

/-- What an expression is folded to is one of its values. -/
theorem fold?_value {P : Value → Prop} (h : Returns (E.value e .blank) P) :
    Always (fold? E e) fun o =>
      ∀ x, o = some x → e.isFoldable = true ∧ ∃ v, x = .value v ∧ P v := by
  rw [fold?]
  cases hfold : e.isFoldable with
  | false =>
    refine .pure fun x hx => ?_
    cases hx
  | true =>
    refine Always.bind h fun result hresult => .pure fun x hx => ⟨rfl, ?_⟩
    obtain ⟨v, hv, rfl⟩ := Option.map_eq_some_iff.mp hx
    cases result with
    | ok w =>
      obtain rfl := Option.some.inj hv
      exact ⟨w, rfl, hresult w rfl⟩
    | error f => cases hv

theorem fold?_types (hE : E.Typed) : Types e (fold? E e) := by
  refine (fold?_value (hE e .blank)).imp fun o ho x hx => ?_
  obtain ⟨hfold, v, rfl, hv⟩ := ho x hx
  refine ⟨fun hnode => ?_, fun hn hp => ?_⟩
  · by_cases ha : e.type = .any
    · exact .property (asksProperty_of_isFoldable hfold ha)
    · exact .plain (hv ha ▸ nodeless_value_iff.mp hnode) ha
  · apply hv
    intro ha
    cases (asksProperty_of_isFoldable hfold ha).symm.trans hp

theorem compareWithZero?_boolean {op : Comparison} (h : compareWithZero? op l r = some x) :
    x.type = .boolean := by
  rw [compareWithZero?] at h
  split at h
  · split at h
    · cases h
    · obtain rfl := Option.some.inj h
      cases op with
      | unequal | greater => exact type_truthOf _
      | _ => rfl
  · cases h

theorem compareNumeric?_boolean {op : Comparison} (h : compareNumeric? op l r = some x) :
    x.type = .boolean := by
  rw [compareNumeric?, Option.or_eq_some_iff] at h
  rcases h with h | ⟨-, h⟩
  · rcases Option.or_eq_some_iff.mp h with h | ⟨-, h⟩
    · rcases Option.or_eq_some_iff.mp h with h | ⟨-, h⟩
      · exact compareWithZero?_boolean h
      · exact (comparePosition?_form h).1
    · split at h
      · rcases Option.or_eq_some_iff.mp h with h | ⟨-, h⟩
        · exact compareWithZero?_boolean h
        · exact (comparePosition?_form h).1
      · cases h
  · split at h
    · exact (comparePosition?_form h).1
    · cases h

theorem compareNodesTo?_boolean {op : Comparison} (h : compareNodesTo? op l r = some x) :
    x.type = .boolean := by
  rw [compareNodesTo?] at h
  split at h
  · split at h
    · exact Option.some.inj h ▸ rfl
    · split at h
      · exact Option.some.inj h ▸ rfl
      · cases h
  · split at h
    · exact Option.some.inj h ▸ rfl
    · cases h

theorem comparisonRule?_types (hE : E.Typed) (op : Comparison) :
    Types (.compare op l r) (comparisonRule? E op l r) := by
  rw [comparisonRule?]
  split
  · next x hx => exact .some (.of_boolean rfl (compareNodesTo?_boolean hx))
  · refine Always.bind (fold?_types hE) fun o ho => Types.option fun x hx => ?_
    rcases Option.or_eq_some_iff.mp hx with hx | ⟨-, hx⟩
    · exact ho x hx
    · exact .of_boolean rfl (compareNumeric?_boolean hx)

theorem logicalRule?_types (hE : E.Typed) (op : Connective) :
    Types (.logical op l r) (logicalRule? T E op l r) := by
  refine .bind fun known => ?_
  split
  · next known _ =>
    refine Types.some (.of_boolean rfl ?_)
    cases op <;> cases known <;> first | rfl | exact type_truthOf r
  · split
    · exact .some (.of_boolean rfl (type_positions _ _))
    · exact fold?_types hE

/-- Fewer conditions on nodes leave an expression nodeless that is. -/
theorem filterRule?_types : Types (.filter base predicate) (filterRule? T E base predicate) := by
  have hbase : (Expr.filter base predicate).Retypes base := .of_nodes rfl (.filter predicate)
  rw [filterRule?]
  split
  · exact .some hbase
  · refine .bind fun known => ?_
    split
    · exact .some hbase
    · exact .some (.emptySet rfl)
    · split
      · refine Types.some (.of_nodes rfl fun hx => ?_)
        exact .filter predicate (nodeless_filter_iff.mp hx)
      · refine .option fun x hx => .of_nodes rfl fun hnode => .filter predicate ?_
        rw [mergeRanges?.eq_def] at hx
        split at hx
        · split at hx
          · obtain rfl := Option.some.inj hx
            exact .filter _ (nodeless_filter_iff.mp hnode)
          · cases hx
        · cases hx

theorem stepRule?_nodeless (h : stepRule? start along test predicates = some x)
    (hx : x.Nodeless) : start.Nodeless := by
  rw [stepRule?.eq_def] at h
  split at h
  · obtain rfl := Option.some.inj h
    exact hx
  · exact absurd (Option.some.inj h ▸ hx) (not_nodeless rfl rfl)
  · exact absurd (Option.some.inj h ▸ hx) (not_nodeless rfl rfl)
  · split at h
    · cases h
    · obtain ⟨origin, horigin, rfl⟩ := Option.map_eq_some_iff.mp h
      have horiginNodeless := nodeless_path_iff.mp hx
      rw [descendantStart?.eq_def] at horigin
      split at horigin
      · obtain rfl := Option.some.inj horigin
        exact .path _ _ _ horiginNodeless
      · exact absurd (Option.some.inj horigin ▸ horiginNodeless) (not_nodeless rfl rfl)
      · cases horigin
  · cases h

theorem pathRule?_types :
    Types (.path start along test predicates) (pathRule? T E start along test predicates) := by
  rw [pathRule?]
  split
  · exact .some (.of_nodes rfl (.path along test predicates))
  · refine .bind fun o => ?_
    split
    · exact Types.some (.emptySet rfl)
    · refine Types.some (.of_nodes rfl fun hx => ?_)
      exact .path along test predicates (nodeless_path_iff.mp hx)
    · refine Types.option fun x hx => .of_nodes rfl fun hnode => ?_
      exact .path along test predicates (stepRule?_nodeless hx hnode)

theorem setRule?_retypes {op : SetOperator} (h : setRule? op l r = some x) :
    (Expr.set op l r).Retypes x := by
  have hleft : (Expr.set op l r).Retypes l := .of_nodes rfl (.left op r)
  have hright : (Expr.set op l r).Retypes r := .of_nodes rfl (.right op l)
  rw [setRule?.eq_def] at h
  split at h <;> split at h
  · exact Option.some.inj h ▸ hright
  · split at h
    · exact Option.some.inj h ▸ hleft
    · cases h
  · split at h
    · cases h
    · exact Option.some.inj h ▸ hleft
  · split at h
    · exact Option.some.inj h ▸ .emptySet rfl
    · cases h
  · exact Option.some.inj h ▸ .emptySet rfl
  · cases h

theorem applyRule?_types (hE : E.Typed) (e : Expr) : Types e (e.applyRule? T E) := by
  rw [applyRule?.eq_def]
  split
  · exact logicalRule?_types hE _
  · exact comparisonRule?_types hE _
  · exact filterRule?_types
  · exact pathRule?_types
  · exact .option fun x hx => setRule?_retypes hx
  · next b =>
    refine .option fun x hx => ?_
    obtain ⟨k, hk, rfl⟩ := Option.map_eq_some_iff.mp hx
    have htype : (Expr.reference b).type = k.toValue.type := by rw [type, hk]; rfl
    refine .of_scalar htype.symm ?_
    rw [htype]
    cases k with
    | boolean => exact .inl rfl
    | number => exact .inr (.inl rfl)
    | string => exact .inr (.inr rfl)
  · refine .option fun x hx => ?_
    split at hx
    · obtain rfl := Option.some.inj hx
      exact .of_boolean rfl rfl
    · cases hx
  · exact .some (.of_string rfl rfl)
  · next only => exact .some (.of_string rfl (type_stringOf only))
  · exact fold?_types hE

/-- The loop of rules keeps what each rule keeps. -/
theorem applyRules_retypes (hE : E.Typed) (e : Expr) (changed : Bool) :
    Always (applyRules T E e changed) (e.Retypes ·.1) :=
  applyRulesUpTo_keeps (fun x hx => (applyRule?_types hE x).imp fun _ ho y hy => hx.trans (ho y hy))
    (.refl e) _ changed

end rules

section parts

variable {β : Type} {m : StateM Session (α × Bool)} {n : StateM Session (β × Bool)} {P : α → Prop}
  {Q : β → Prop}

/-- An expression put together from one simplified part, or one list of parts. -/
theorem retypes_one (hE : E.Typed) {f : α → Expr} (hm : Always m (P ·.1))
    (hf : ∀ a, P a → e.Retypes (f a)) :
    Always (do let (x, c) ← m; applyRules T E (f x) c) (e.Retypes ·.1) :=
  hm.bind fun a ha => (applyRules_retypes hE _ _).imp fun _ hx => (hf a.1 ha).trans hx

/-- An expression put together from two. -/
theorem retypes_two (hE : E.Typed) {f : α → β → Expr} (hm : Always m (P ·.1))
    (hn : Always n (Q ·.1)) (hf : ∀ a b, P a → Q b → e.Retypes (f a b)) :
    Always (do
      let (x, c) ← m
      let (y, c') ← n
      applyRules T E (f x y) (c || c')) (e.Retypes ·.1) :=
  hm.bind fun a ha => hn.bind fun b hb =>
    (applyRules_retypes hE _ _).imp fun _ hx => (hf a.1 b.1 ha hb).trans hx

/-- An expression all of whose parts may be anything. -/
theorem retypes_form (hE : E.Typed) {f : α → Expr} (hf : ∀ a, e.Retypes (f a)) :
    Always (do let (x, c) ← m; applyRules T E (f x) c) (e.Retypes ·.1) :=
  retypes_one hE (P := fun _ => True) (fun _ => trivial) fun a _ => hf a

theorem retypes_form₂ (hE : E.Typed) {f : α → β → Expr} (hf : ∀ a b, e.Retypes (f a b)) :
    Always (do
      let (x, c) ← m
      let (y, c') ← n
      applyRules T E (f x y) (c || c')) (e.Retypes ·.1) :=
  retypes_two hE (P := fun _ => True) (Q := fun _ => True) (fun _ => trivial) (fun _ => trivial)
    fun a b _ _ => hf a b

end parts

/-- Simplification may do to the type of an expression what its rules do. -/
theorem simplify_retypes (hE : E.Typed) : ∀ e : Expr, Always (e.simplify T E) (e.Retypes ·.1)
  | .path start along test predicates =>
    retypes_two hE (f := fun x es => .path x along test es) (Q := fun _ => True)
      (simplify_retypes hE start) (fun _ => trivial) fun _ _ ha _ => .of_nodes rfl fun h =>
        .path along test predicates (ha.nodeless (nodeless_path_iff.mp h))
  | .filter base predicate =>
    retypes_two hE (Q := fun _ => True) (simplify_retypes hE base) (fun _ => trivial)
      fun _ _ ha _ => .of_nodes rfl fun h =>
        .filter predicate (ha.nodeless (nodeless_filter_iff.mp h))
  | .set _ l r =>
    retypes_two hE (simplify_retypes hE l) (simplify_retypes hE r) fun _ _ ha hb =>
      .of_nodes rfl fun h =>
        nodeless_set_iff.mpr ((nodeless_set_iff.mp h).imp ha.nodeless hb.nodeless)
  | .distinct _ => retypes_form hE fun _ => .of_form rfl rfl rfl
  | .distinctBy _ _ => retypes_form₂ hE fun _ _ => .of_form rfl rfl rfl
  | .logical _ _ _ => retypes_form₂ hE fun _ _ => .of_form rfl rfl rfl
  | .compare _ _ _ => retypes_form₂ hE fun _ _ => .of_form rfl rfl rfl
  | .arithmetic _ _ _ => retypes_form₂ hE fun _ _ => .of_form rfl rfl rfl
  | .compareNode op _ v =>
    retypes_form hE (f := fun n => .compareNode op n v) fun _ => .of_form rfl rfl rfl
  | .compareNodes op _ v =>
    retypes_form hE (f := fun n => .compareNodes op n v) fun _ => .of_form rfl rfl rfl
  | .negate _ => retypes_form hE fun _ => .of_form rfl rfl rfl
  | .call f _ bound scope =>
    retypes_form hE (f := fun es => .call f es bound scope) fun _ => .of_form rfl rfl rfl
  | .extension _ _ => retypes_form hE fun _ => .of_form rfl rfl rfl
  | .template _ => retypes_form hE fun _ => .of_form rfl rfl rfl
  | .sorted _ _ rules =>
    retypes_form₂ hE (f := fun x es => .sorted x es rules) fun _ _ => .of_form rfl rfl rfl
  | .value _ | .root | .contextNode | .parentNode | .currentNode | .attribute _ | .axis ..
  | .reference _ | .positionRange .. | .isLast _ | .failure _ => applyRules_retypes hE _ _

end Expr

end PathLanguage
