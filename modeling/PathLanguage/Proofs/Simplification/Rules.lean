/- The rules one by one: each comes to the same in every session, and what it makes of an expression
with inert parts has inert parts. -/
import PathLanguage.Proofs.Simplification.Inert

namespace PathLanguage.Expr

variable {T : Transformation} {E : Engine} {P : Leaf → Prop} {e l r x : Expr} {d n : Nat}

section comparisons

/-- The string of a constant. -/
theorem string_value {v : Value} (hv : v.IsConstant) (n : Nat) (c : Context) :
    (engine T (n + 2)).string (.value v) c = pure v.constantText := by
  change v.asString T (engine T (n + 1)) = _
  exact hv.asString T _

section held

variable {v : Value}

theorem stringLength_held (hv : v.AtHand) (scope : Option Scope) (n : Nat) (c : Context) :
    (engine T (n + 3)).value (.call .stringLength [.value v] none scope) c =
      (do return .number (.ofNat (← Action.ofExcept v.heldText).length)) := by
  change (v.asString T (engine T (n + 1)) >>= fun s => pure (.number (.ofNat s.length)) :
    Action Value) = _
  rw [hv.asString]

theorem string_held (hv : v.AtHand) (scope : Option Scope) (n : Nat) (c : Context) :
    (engine T (n + 3)).value (.call .string [.value v] none scope) c =
      (do return .string (← Action.ofExcept v.heldText)) := by
  change (v.asString T (engine T (n + 1)) >>= fun s => pure (.string s) : Action Value) = _
  rw [hv.asString]

/-- The string of a constant whose length cannot be folded cannot be folded either. -/
theorem inert_string_value {scope : Option Scope} (hv : v.AtHand)
    (h : Always (fold? (engine T (d + 3)) (.call .stringLength [.value v] none scope)) (· = none)) :
    Inert T (engine T (d + 3)) (callOf .string [.value v]) := by
  refine ⟨?_, List.forall_mem_singleton.mpr (inert_value v)⟩
  change Always (fold? (engine T (d + 3)) (callOf .string [.value v])) _
  have hlength : isFoldable (.call .stringLength [.value v] none scope) = true := rfl
  have hstring : isFoldable (callOf .string [.value v]) = true := rfl
  rw [fold?, hlength, stringLength_held hv] at h
  rw [fold?, hstring, callOf, string_held hv]
  cases htext : v.heldText with
  | ok text =>
    rw [htext] at h
    cases h {}
  | error f => exact .pure rfl

end held

/-- The text whose length an inert call asks for has no string that could be folded, or else the
call could be folded. -/
theorem inert_stringOf {text : Expr} {scope : Option Scope}
    (h : Inert T (engine T (d + 3)) (.call .stringLength [text] none scope))
    (heager : text.Eager) : Inert T (engine T (d + 3)) (callOf .string [text]) := by
  cases hvalue : text.isValue with
  | true =>
    cases text with
    | value v => exact inert_string_value heager.value h.rule
    | _ => cases hvalue
  | false =>
    refine ⟨always_fold?_none ?_, List.forall_mem_singleton.mpr (h.children text (.head _))⟩
    simp [isFoldable, callOf, children, hvalue]

/-- What takes the place of a count is inert. -/
theorem counted?_inert (hP : Leaf.Kind P) {thing : Expr} (h : l.counted? = some thing)
    (hl : l.Only P) (hi : Inert T (engine T (d + 3)) l) :
    thing.Only P ∧ Inert T (engine T (d + 3)) thing := by
  rw [counted?] at h
  split at h
  · next nodes _ hcount =>
    obtain rfl := Option.some.inj h
    obtain ⟨scope, rfl⟩ := operand?_eq_some.mp hcount
    exact ⟨hl.children (.head _), hi.children _ (.head _)⟩
  · next text _ hlength =>
    obtain rfl := Option.some.inj h
    obtain ⟨scope, rfl⟩ := operand?_eq_some.mp hlength
    have htext : text.Only P := hl.children (.head _)
    rw [stringOf]
    split
    · exact ⟨htext, hi.children _ (.head _)⟩
    · exact ⟨only_callOf hP (List.forall_mem_singleton.mpr htext),
        inert_stringOf hi (htext.isEager hP)⟩
  · split at h
    · obtain rfl := Option.some.inj h
      exact ⟨only_callOf hP (List.forall_mem_nil _), inert_plainString⟩
    · cases h

theorem compareWithZero?_improves (hP : Leaf.Kind P) {op : Comparison}
    (h : compareWithZero? op l r = some x) (hl : l.Only P)
    (hi : Inert T (engine T (d + 3)) l) : Improves P T (engine T (d + 3)) x := by
  rw [compareWithZero?] at h
  split at h
  · next thing _ hcounted =>
    obtain ⟨hthing, hinert⟩ := counted?_inert hP hcounted hl hi
    split at h
    · cases h
    · obtain rfl := Option.some.inj h
      cases op with
      | equal | atMost => exact improves_callOf hP hthing hinert
      | unequal | greater => exact improves_truthOf hP hthing hinert
      | atLeast | less => exact improves_ofBool _
  · cases h

theorem compareNumeric?_improves (hP : Leaf.Kind P) {op : Comparison}
    (h : compareNumeric? op l r = some x) (hl : l.Only P) (hr : r.Only P)
    (hil : Inert T (engine T (d + 3)) l) (hir : Inert T (engine T (d + 3)) r) :
    Improves P T (engine T (d + 3)) x := by
  rw [compareNumeric?, Option.or_eq_some_iff] at h
  rcases h with h | ⟨-, h⟩
  · rcases Option.or_eq_some_iff.mp h with h | ⟨-, h⟩
    · rcases Option.or_eq_some_iff.mp h with h | ⟨-, h⟩
      · exact compareWithZero?_improves hP h hl hil
      · exact (comparePosition?_atom h).improves
    · split at h
      · rcases Option.or_eq_some_iff.mp h with h | ⟨-, h⟩
        · exact compareWithZero?_improves hP h hr hir
        · exact (comparePosition?_atom h).improves
      · cases h
  · split at h
    · exact (comparePosition?_atom h).improves
    · cases h

theorem compareNodesTo?_improves {op : Comparison} (h : compareNodesTo? op l r = some x)
    (hl : l.Only P) (hr : r.Only P) (hil : Inert T E l) (hir : Inert T E r) :
    Improves P T E x := by
  rw [compareNodesTo?] at h
  split at h
  · next v hv =>
    obtain ⟨-, hleaves⟩ := scalar?_eq_some hv
    have honly : ∀ a ∈ l.leaves ++ v.leaves, P a := by
      rw [hleaves, List.append_nil]
      exact hl
    split at h
    · obtain rfl := Option.some.inj h
      exact ⟨honly, List.forall_mem_singleton.mpr hil⟩
    · split at h
      · obtain rfl := Option.some.inj h
        exact ⟨honly, List.forall_mem_singleton.mpr hil⟩
      · cases h
  · split at h
    · obtain rfl := Option.some.inj h
      exact ⟨List.forall_mem_append.mpr ⟨hr, hl⟩,
        List.forall_mem_cons.mpr ⟨hir, List.forall_mem_singleton.mpr hil⟩⟩
    · cases h

theorem comparisonRule?_decides (hP : Leaf.Kind P) (op : Comparison)
    (h : (Expr.compare op l r).Only P)
    (hi : ∀ c ∈ (Expr.compare op l r).children, Inert T (engine T (d + 3)) c) :
    Decides P T (engine T (d + 3)) (comparisonRule? (engine T (d + 3)) op l r) := by
  have hl : l.Only P := h.children (.head _)
  have hr : r.Only P := h.children (.tail _ (.head _))
  have hil := hi l (.head _)
  have hir := hi r (.tail _ (.head _))
  rw [comparisonRule?]
  split
  · next x hx => exact .some (compareNodesTo?_improves hx hl hr hil hir)
  · apply Decides.or (fold?_decides hP h _)
    intro x hx
    exact compareNumeric?_improves hP hx hl hr hil hir

end comparisons

section conditions

theorem logicalRule?_decides (hP : Leaf.Kind P) (op : Connective)
    (h : (Expr.logical op l r).Only P)
    (hi : ∀ c ∈ (Expr.logical op l r).children, Inert T (engine T (d + 3)) c) :
    Decides P T (engine T (d + 3)) (logicalRule? T (engine T (d + 3)) op l r) := by
  have hl : l.Only P := h.children (.head _)
  have hr : r.Only P := h.children (.tail _ (.head _))
  have htruth : Improves P T (engine T (d + 3)) (truthOf r) :=
    improves_truthOf hP hr (hi r (.tail _ (.head _)))
  apply Decides.bind (constantTruth_known (hl.isEager hP))
  split
  · next known _ =>
    apply Decides.some
    cases op <;> cases known <;> first | exact htruth | exact improves_ofBool _
  · split
    · exact .some (atom_positions _ _).improves
    · exact fold?_decides hP h _

theorem filterRule?_decides (hP : Leaf.Kind P) {base predicate : Expr}
    (h : (Expr.filter base predicate).Only P)
    (hi : ∀ c ∈ (Expr.filter base predicate).children, Inert T E c) :
    Decides P T E (filterRule? T E base predicate) := by
  have hb : base.Only P := h.children (.head _)
  have hp : predicate.Only P := h.children (.tail _ (.head _))
  have hib := hi base (.head _)
  have hbase : Improves P T E base := improves_part hb hib
  rw [filterRule?]
  split
  · exact .some hbase
  · apply Decides.bind (constantTruth_known (hp.isEager hP))
    split
    · exact .some hbase
    · exact .some improves_emptySet
    · split
      · apply Decides.some
        exact ⟨List.forall_mem_append.mpr ⟨hb, only_of_leaves rfl⟩,
          List.forall_mem_cons.mpr ⟨hib, List.forall_mem_singleton.mpr (inert_isLast true)⟩⟩
      · apply Decides.option
        intro x hx
        rw [mergeRanges?.eq_def] at hx
        split at hx
        · split at hx
          · obtain rfl := Option.some.inj hx
            exact ⟨List.forall_mem_append.mpr ⟨hb.children (.head _), only_of_leaves rfl⟩,
              List.forall_mem_cons.mpr ⟨hib.children _ (.head _),
                List.forall_mem_singleton.mpr (inert_positionRange _ _)⟩⟩
          · cases hx
        · cases hx

end conditions

section steps

/-- Predicates that are left: inert ones with leaves of the same kind, or the same predicates if none
was changed. -/
structure Left (P : Leaf → Prop) (T : Transformation) (E : Engine) (predicates left : List Expr)
    (changed : Bool) : Prop where
  only : ∀ p ∈ left, p.Only P
  inert : ∀ p ∈ left, Inert T E p
  same : changed = false → left = predicates

/-- One predicate in place of another, or left out. -/
theorem Left.change {p : Expr} {predicates left : List Expr} {changed : Bool}
    (h : Left P T E predicates left changed) (qs : List Expr) (honly : ∀ q ∈ qs, q.Only P)
    (hinert : ∀ q ∈ qs, Inert T E q) : Left P T E (p :: predicates) (qs ++ left) true where
  only := List.forall_mem_append.mpr ⟨honly, h.only⟩
  inert := List.forall_mem_append.mpr ⟨hinert, h.inert⟩
  same h := Bool.noConfusion h

theorem simplePredicates?_steady (hP : Leaf.Kind P) {predicates : List Expr}
    (h : ∀ p ∈ predicates, p.Only P) (hi : ∀ p ∈ predicates, Inert T E p) :
    ∃ o, Always (simplePredicates? T E predicates) (· = o) ∧
      ∀ left changed, o = some (left, changed) → Left P T E predicates left changed := by
  induction predicates with
  | nil =>
    refine ⟨some ([], false), .pure rfl, ?_⟩
    rintro _ _ ⟨⟩
    exact ⟨List.forall_mem_nil _, List.forall_mem_nil _, fun _ => rfl⟩
  | cons p predicates ih =>
    obtain ⟨hp, hrest⟩ := List.forall_mem_cons.mp h
    obtain ⟨hip, hirest⟩ := List.forall_mem_cons.mp hi
    obtain ⟨o, ho, hleft⟩ := ih hrest hirest
    -- what is made of the predicates behind the first one
    have hgo {f : List Expr × Bool → List Expr × Bool}
        (hf : ∀ left changed, Left P T E predicates left changed →
          Left P T E (p :: predicates) (f (left, changed)).1 (f (left, changed)).2) :
        Always (do return (← simplePredicates? T E predicates).map f) (· = o.map f) ∧
          ∀ left changed, o.map f = some (left, changed) →
            Left P T E (p :: predicates) left changed := by
      constructor
      · refine ho.bind ?_
        rintro _ rfl
        exact .pure rfl
      · intro left changed hmap
        obtain ⟨⟨qs, c⟩, rfl, heq⟩ := Option.map_eq_some_iff.mp hmap
        have hresult := hf qs c (hleft qs c rfl)
        rwa [heq] at hresult
    rw [simplePredicates?]
    have hknown := constantTruth_known (T := T) (E := E) (hp.isEager hP)
    cases htruth : p.knownTruth with
    | some known =>
      rw [htruth] at hknown
      cases known with
      | false =>
        refine ⟨none, hknown.bind ?_, ?_⟩
        · rintro _ rfl
          exact .pure rfl
        · intro left changed h
          cases h
      | true =>
        obtain ⟨hrun, hresult⟩ := hgo (f := fun q => (q.1, true)) fun left changed hl =>
          hl.change [] (List.forall_mem_nil _) (List.forall_mem_nil _)
        refine ⟨_, hknown.bind ?_, hresult⟩
        rintro _ rfl
        exact hrun
    | none =>
      rw [htruth] at hknown
      cases hlast : p.isPlainCall .last with
      | true =>
        obtain ⟨hrun, hresult⟩ := hgo (f := fun q => (.isLast true :: q.1, true))
          fun left changed hl => hl.change [.isLast true]
            (List.forall_mem_singleton.mpr (only_of_leaves rfl))
            (List.forall_mem_singleton.mpr (inert_isLast true))
        refine ⟨_, hknown.bind ?_, hresult⟩
        rintro _ rfl
        exact hrun
      | false =>
        obtain ⟨hrun, hresult⟩ := hgo (f := fun q => (p :: q.1, q.2)) fun left changed hl => {
          only := List.forall_mem_cons.mpr ⟨hp, hl.only⟩
          inert := List.forall_mem_cons.mpr ⟨hip, hl.inert⟩
          same := fun hc => congrArg (p :: ·) (hl.same hc) }
        refine ⟨_, hknown.bind ?_, hresult⟩
        rintro _ rfl
        exact hrun

/-- The start of a step `//` is inert if the step is. -/
theorem descendantStart?_inert {start origin : Expr} (h : start.descendantStart? = some origin)
    (honly : start.Only P) (hi : Inert T E start) : origin.Only P ∧ Inert T E origin := by
  rw [descendantStart?.eq_def] at h
  split at h
  · obtain rfl := Option.some.inj h
    exact ⟨honly.children (.head _), hi.children _ (.head _)⟩
  · obtain rfl := Option.some.inj h
    exact ⟨only_of_leaves rfl, inert_contextNode⟩
  · cases h

theorem stepRule?_improves {start : Expr} {along : Axis} {test : NodeTest}
    {predicates : List Expr} (h : stepRule? start along test predicates = some x)
    (honly : (Expr.path start along test predicates).Only P)
    (hi : ∀ c ∈ (Expr.path start along test predicates).children, Inert T E c) :
    Improves P T E x := by
  have hstart : start.Only P := honly.children (.head _)
  have histart := hi start (.head _)
  rw [stepRule?.eq_def] at h
  split at h
  · obtain rfl := Option.some.inj h
    exact improves_part hstart histart
  · obtain rfl := Option.some.inj h
    exact ⟨only_of_leaves rfl, List.forall_mem_nil _⟩
  · obtain rfl := Option.some.inj h
    exact ⟨only_of_leaves rfl, List.forall_mem_nil _⟩
  · split at h
    · cases h
    · obtain ⟨origin, horigin, rfl⟩ := Option.map_eq_some_iff.mp h
      obtain ⟨horigin, hinert⟩ := descendantStart?_inert horigin hstart histart
      refine ⟨List.forall_mem_append.mpr ⟨horigin, ?_⟩, List.forall_mem_cons.mpr ⟨hinert, ?_⟩⟩
      · exact fun l hl => honly l (List.mem_append_right _ hl)
      · exact fun p hp => hi p (.tail _ hp)
  · cases h

theorem pathRule?_decides (hP : Leaf.Kind P) {start : Expr} {along : Axis} {test : NodeTest}
    {predicates : List Expr} (h : (Expr.path start along test predicates).Only P)
    (hi : ∀ c ∈ (Expr.path start along test predicates).children, Inert T E c) :
    Decides P T E (pathRule? T E start along test predicates) := by
  have hstart : start.Only P := h.children (.head _)
  have histart := hi start (.head _)
  rw [pathRule?]
  split
  · exact .some (improves_part hstart histart)
  · obtain ⟨o, ho, hleft⟩ := simplePredicates?_steady (T := T) (E := E) hP
      (fun p hp => h.children (.tail _ hp)) fun p hp => hi p (.tail _ hp)
    apply Decides.bind ho
    split
    · exact .some improves_emptySet
    · next left =>
      have hl := hleft left true rfl
      apply Decides.some
      exact ⟨List.forall_mem_append.mpr ⟨hstart, only_leavesOfAll_iff.mpr hl.only⟩,
        List.forall_mem_cons.mpr ⟨histart, hl.inert⟩⟩
    · apply Decides.option
      intro x hx
      exact stepRule?_improves hx h hi

end steps

section rules

theorem setRule?_improves {op : SetOperator} (h : setRule? op l r = some x)
    (honly : (Expr.set op l r).Only P) (hi : ∀ c ∈ (Expr.set op l r).children, Inert T E c) :
    Improves P T E x := by
  have hleft : Improves P T E l := improves_part (honly.children (.head _)) (hi l (.head _))
  have hright : Improves P T E r :=
    improves_part (honly.children (.tail _ (.head _))) (hi r (.tail _ (.head _)))
  have hempty : Improves P T E emptySet := improves_emptySet
  cases op with
  | union =>
    rw [setRule?] at h
    split at h
    · exact Option.some.inj h ▸ hright
    · split at h
      · exact Option.some.inj h ▸ hleft
      · cases h
  | except =>
    rw [setRule?] at h
    split at h
    · split at h
      · cases h
      · exact Option.some.inj h ▸ hleft
    · split at h
      · exact Option.some.inj h ▸ hempty
      · cases h
  | intersect =>
    rw [setRule?] at h
    split at h
    · exact Option.some.inj h ▸ hempty
    · cases h

theorem reference_improves {b : Binding}
    (h : (b.constant.map fun c => Expr.value c.toValue) = some x) : Improves P T E x := by
  obtain ⟨c, -, rfl⟩ := Option.map_eq_some_iff.mp h
  cases c <;> exact ⟨only_of_leaves rfl, List.forall_mem_nil _⟩

/-- Any rule that applies to an expression with inert parts improves it. -/
theorem applyRule?_decides (hP : Leaf.Kind P) (h : e.Only P)
    (hi : ∀ c ∈ e.children, Inert T (engine T (d + 3)) c) :
    Decides P T (engine T (d + 3)) (e.applyRule? T (engine T (d + 3))) := by
  rw [applyRule?.eq_def]
  split
  · exact logicalRule?_decides hP _ h hi
  · exact comparisonRule?_decides hP _ h hi
  · exact filterRule?_decides hP h hi
  · exact pathRule?_decides hP h hi
  · exact .option fun x hx => setRule?_improves hx h hi
  · exact .option fun x hx => reference_improves hx
  · apply Decides.option
    intro x hx
    split at hx
    · exact Option.some.inj hx ▸ improves_ofBool true
    · cases hx
  · exact .some (improves_value (only_of_leaves rfl))
  · next only => exact .some (improves_stringOf hP (h.children (.head _)) (hi only (.head _)))
  · exact fold?_decides hP h _

end rules

end PathLanguage.Expr
