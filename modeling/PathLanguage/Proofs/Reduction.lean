/- Faults of reduction: it fails only where the context lacks a node that is asked for, since all
other faults are left to whoever evaluates the part they are met in. -/
import PathLanguage.Proofs.Agreement.Demand
import PathLanguage.Proofs.Simplification.Weight

namespace PathLanguage

/-- An engine whose reduced expressions weigh no more than the expressions themselves. -/
def Engine.ReducesWeight (E : Engine) : Prop :=
  ∀ mask e c, Returns (E.reduce mask e c) fun r => r.1.weight ≤ e.weight

namespace Expr

open Dependencies

variable {E : Engine} {mask : Dependencies} {c : Context} {w : Nat}

/-- What depends on something is no constant of a scalar type. -/
theorem two_le_weight_of_intersects {e : Expr} (h : e.dependencies.intersects mask = true) :
    2 ≤ e.weight := by
  obtain ⟨p, hp, -⟩ := exists_has_of_intersects h
  cases e with
  | value v => cases p <;> cases hp
  | _ =>
    simp only [weight]
    omega

theorem reduceAll_weight (hE : E.ReducesWeight) (es : List Expr) :
    Returns (reduceAll E mask c es) fun r =>
      r.1.length = es.length ∧ weights r.1 ≤ weights es := by
  induction es with
  | nil => exact .pure ⟨rfl, Nat.le_refl 0⟩
  | cons e es ih =>
    refine (hE mask e c).bind fun r hr => ih.bind fun rs hrs => .pure ?_
    exact ⟨congrArg (· + 1) hrs.1, Nat.add_le_add hr hrs.2⟩

theorem reduceToValue_weight {rebuilt : Expr} {changed : Bool} (hw : 2 ≤ w)
    (h : rebuilt.weight ≤ w) :
    Returns (reduceToValue E mask c rebuilt changed) fun r => r.1.weight ≤ w := by
  refine .ite (fun _ => .pure h) fun _ => .bind_any fun r => ?_
  split
  · exact .pure (Nat.le_trans (weight_value_le _) hw)
  · exact .throw
  · exact .pure h

theorem reduceOne_weight (hE : E.ReducesWeight) {m : Expr → Expr} {e : Expr} (hw : 2 ≤ w)
    (hm : ∀ k, k.weight ≤ e.weight → (m k).weight ≤ w) :
    Returns (reduceOne E mask c m e) fun r => r.1.weight ≤ w :=
  (hE mask e c).bind fun _ hr => reduceToValue_weight hw (hm _ hr)

theorem reduceTwo_weight (hE : E.ReducesWeight) {m : Expr → Expr → Expr} {l r : Expr}
    (hw : 2 ≤ w) (hm : ∀ k k', k.weight ≤ l.weight → k'.weight ≤ r.weight → (m k k').weight ≤ w) :
    Returns (reduceTwo E mask c m l r) fun k => k.1.weight ≤ w :=
  (hE mask l c).bind fun _ hl => (hE mask r c).bind fun _ hr =>
    reduceToValue_weight hw (hm _ _ hl hr)

theorem reduceMany_weight (hE : E.ReducesWeight) {m : List Expr → Expr} {es : List Expr}
    (hw : 2 ≤ w) (hm : ∀ ks, weights ks ≤ weights es → (m ks).weight ≤ w) :
    Returns (reduceMany E mask c m es) fun r => r.1.weight ≤ w :=
  (reduceAll_weight hE es).bind fun _ hrs => reduceToValue_weight hw (hm _ hrs.2)

theorem reduce_weight (hE : E.ReducesWeight) (e : Expr) :
    Returns (e.reduce E mask c) fun r => r.1.weight ≤ e.weight := by
  unfold reduce
  refine .ite (fun _ => .pure (Nat.le_refl _)) fun hm => ?_
  rw [Bool.not_eq_true', Bool.not_eq_false] at hm
  have hw := two_le_weight_of_intersects hm
  extract_lets inner
  have hone : Returns (do
      return (Expr.value (.nodeSet (.ofOption (← E.head (← E.cursor e c false)))), true))
      fun r => r.1.weight ≤ e.weight :=
    .bind_any fun _ => .bind_any fun _ => .pure (Nat.le_trans (weight_value_le _) hw)
  cases e with
  | root | contextNode | parentNode | currentNode | «attribute» => exact hone
  | axis along test origin => exact .bind_any fun n => .pure (Nat.le_refl _)
  | path start along test predicates =>
    refine (hE mask start c).bind fun r hr => .ite (fun _ => .pure hw) fun _ => ?_
    refine (reduceAll_weight hE predicates).bind fun ps hps => .pure ?_
    simp only [weight]
    omega
  | filter base predicate =>
    refine (hE mask base c).bind fun r hr => .ite (fun _ => .pure ?_) fun _ =>
      (hE inner predicate c).bind fun p hp => .pure ?_
    all_goals simp only [weight]; omega
  | distinct base =>
    exact (hE mask base c).bind fun r hr => .pure (Nat.add_le_add_left hr 2)
  | distinctBy base key =>
    refine (hE mask base c).bind fun r hr => (hE inner key c).bind fun k hk => .pure ?_
    simp only [weight]
    omega
  | sorted base keys rules =>
    refine (hE mask base c).bind fun r hr => (reduceAll_weight hE keys).bind fun ks hks => .pure ?_
    simp only [weight]
    omega
  | call function args bound scope =>
    refine (reduceAll_weight hE args).bind fun rs hrs => .bind_any fun b => ?_
    exact reduceToValue_weight hw (Nat.add_le_add_left hrs.2 3)
  | set op l r | logical op l r | compare op l r | arithmetic op l r =>
    refine reduceTwo_weight hE hw fun k k' hk hk' => ?_
    simp only [weight]
    omega
  | compareNode op k v | compareNodes op k v | negate k =>
    exact reduceOne_weight hE hw fun k hk => Nat.add_le_add_left hk 2
  | extension name args => exact reduceMany_weight hE hw fun ks h => Nat.add_le_add_left h 2
  | template parts => exact reduceMany_weight hE hw fun ks h => Nat.add_le_add_left h 4
  | _ => exact reduceToValue_weight hw (Nat.le_refl _)

end Expr

theorem engine_reducesWeight (T : Transformation) (n : Nat) : (engine T n).ReducesWeight := by
  induction n with
  | zero => exact fun _ _ _ => .fail
  | succ n ih => exact fun _ e _ => Expr.reduce_weight ih e

/-- What a context lacks of what it is asked for, by the fault that says so. -/
inductive Context.Lacks (c : Context) (asked : Dependencies) : Fault → Prop
  | node : c.node? = none → asked.contextNode = true ∨ asked.contextDocument = true →
      c.Lacks asked .noContextNode
  | current : c.current? = none → asked.currentNode = true → c.Lacks asked .noCurrentNode

/-- A session is left by an evaluation that is given up, although it is followed to a depth: of an
expression within a weight that reads no more than a mask covers. -/
def Transformation.GivesUp (T : Transformation) (mask : Dependencies) (c : Context)
    (weight depth : Nat) (t : Session) : Prop :=
  ∃ x n s, x.weight ≤ weight ∧ x.dependencies.Sub mask ∧ depth ≤ n ∧
    ((engine T n).value x c).attempt.run s = (.error .tooDeep, t)

/-- How the reduction of an expression fails that asks a context for some dependencies. -/
def Transformation.Hinders (T : Transformation) (c : Context) (asked mask : Dependencies)
    (weight depth : Nat) (f : Fault) (t : Session) : Prop :=
  c.Lacks asked f ∨ f = .tooDeep ∧ T.GivesUp mask c weight depth t

section hindrance

variable {T : Transformation} {c : Context} {asked asked' mask mask' : Dependencies}
  {v w m n : Nat} {f : Fault} {t : Session}

theorem Context.Lacks.mono (h : c.Lacks asked f) (ha : asked.Sub asked') : c.Lacks asked' f := by
  cases h with
  | node hc hn => exact .node hc (hn.imp (ha .contextNode) (ha .contextDocument))
  | current hc hn => exact .current hc (ha .currentNode hn)

theorem Transformation.GivesUp.mono (h : T.GivesUp mask c v n t) (hm : mask.Sub mask')
    (hw : v ≤ w) (hn : m ≤ n) : T.GivesUp mask' c w m t := by
  obtain ⟨x, k, s, hx, hd, hk, hs⟩ := h
  exact ⟨x, k, s, Nat.le_trans hx hw, hd.trans hm, Nat.le_trans hn hk, hs⟩

theorem Transformation.Hinders.mono (h : T.Hinders c asked mask v n f t) (ha : asked.Sub asked')
    (hm : mask.Sub mask') (hw : v ≤ w) (hn : m ≤ n) : T.Hinders c asked' mask' w m f t :=
  h.imp (·.mono ha) fun ⟨hf, hg⟩ => ⟨hf, hg.mono hm hw hn⟩

end hindrance

/-- The part of what a predicate or a key reads that is reduced with it. -/
theorem Dependencies.inter_fixed_sub (a b mask fixed : Dependencies) :
    (b ∩ (mask ∩ fixed)).Sub ((a ∪ (b ∩ fixed)) ∩ mask) := by
  intro p hp
  simp only [Dependencies.has_inter, has_union, Bool.and_eq_true, Bool.or_eq_true] at hp ⊢
  exact ⟨.inr ⟨hp.1, hp.2.2⟩, hp.2.1⟩

namespace Context

variable {c : Context} {asked : Dependencies}

theorem node_fails (h : asked.contextNode = true ∨ asked.contextDocument = true) :
    FailsOnly c.node fun f _ => c.Lacks asked f := by
  unfold Context.node
  cases hc : c.node? with
  | some n => exact .pure
  | none => exact .fail fun _ => .node hc h

theorem current_fails (h : asked.currentNode = true) :
    FailsOnly c.current fun f _ => c.Lacks asked f := by
  unfold Context.current
  cases hc : c.current? with
  | some n => exact .pure
  | none => exact .fail fun _ => .current hc h

end Context

/-- Reductions of lighter expressions by parts of a mask fail in one of some ways, as long as they
ask for no more than some dependencies. -/
def Engine.ReducesParts (E : Engine) (c : Context) (asked mask : Dependencies) (w : Nat)
    (P : Fault → Session → Prop) : Prop :=
  ∀ k part, k.weight < w → (k.dependencies ∩ part).Sub asked → part.Sub mask →
    FailsOnly (E.reduce part k c) P

namespace Expr

open Dependencies

variable {T : Transformation} {E : Engine} {n w : Nat} {mask part asked : Dependencies}
  {c : Context} {P : Fault → Session → Prop} {e : Expr}

/-- An expression of at most one node asks for one part of the context. -/
theorem exists_part_of_isSingleton (he : e.isSingleton = true) :
    ∃ p, ∀ q, e.dependencies.has q = true → q = p := by
  cases e with
  | root => exact ⟨.contextDocument, fun q hq => by cases q <;> first | rfl | cases hq⟩
  | currentNode => exact ⟨.currentNode, fun q hq => by cases q <;> first | rfl | cases hq⟩
  | contextNode | parentNode | «attribute» =>
    exact ⟨.contextNode, fun q hq => by cases q <;> first | rfl | cases hq⟩
  | _ => cases he

/-- An expression of at most one node fails only for what the context lacks. -/
theorem enumerate_fails (he : e.isSingleton = true) (hd : e.dependencies.Sub asked) :
    FailsOnly (e.enumerate T E c false) fun f _ => c.Lacks asked f := by
  cases e with
  | root => exact (Context.node_fails (.inr (hd .contextDocument rfl))).bind fun _ => .pure
  | contextNode => exact (Context.node_fails (.inl (hd .contextNode rfl))).bind fun _ => .pure
  | parentNode => exact (Context.node_fails (.inl (hd .contextNode rfl))).bind fun _ => .pure
  | currentNode => exact (Context.current_fails (hd .currentNode rfl)).bind fun _ => .pure
  | «attribute» name => exact (Context.node_fails (.inl (hd .contextNode rfl))).bind fun _ => .pure
  | _ => cases he

theorem enumerate_ofOption (he : e.isSingleton = true) :
    Returns (e.enumerate T E c false) fun k => ∃ o, k = .ofOption o := by
  cases e with
  | root | contextNode | parentNode | currentNode | «attribute» =>
    exact .bind_any fun n => .pure ⟨_, rfl⟩
  | _ => cases he

/-- What is found is read without a fault. -/
theorem head_ofOption_fails (o : Option Node) :
    FailsOnly ((engine T (n + 1)).head (.ofOption o)) P := by
  cases o with
  | none => exact fun _ _ h => by cases h
  | some n => exact fun _ _ h => by cases h

/-- A node of the context that a mask covers is asked for, and then read. -/
theorem oneNode_fails (he : e.isSingleton = true) (hm : e.dependencies.intersects mask = true)
    (hn : e.weight ≤ n + 1) (hl : ∀ f t, c.Lacks (e.dependencies ∩ mask) f → P f t) :
    FailsOnly (do
      return (Expr.value (.nodeSet (.ofOption
        (← (engine T n).head (← (engine T n).cursor e c false)))), true)) P := by
  have hw := two_le_weight_of_intersects hm
  obtain ⟨p, hp⟩ := exists_part_of_isSingleton he
  obtain ⟨m, rfl⟩ : ∃ m, n = m + 1 := ⟨n - 1, by omega⟩
  refine ((enumerate_fails he (sub_inter_of_intersects p hp hm)).imp hl).bind_of
    (enumerate_ofOption he) ?_
  rintro _ ⟨o, rfl⟩
  exact (head_ofOption_fails o).bind fun _ => .pure

theorem reduceAll_fails {es : List Expr} (hE : E.ReducesParts c asked mask w P)
    (hw : weights es < w) (ha : (dependenciesOfAll es ∩ part).Sub asked)
    (hp : part.Sub mask) : FailsOnly (reduceAll E part c es) P := by
  induction es with
  | nil => exact .pure
  | cons e es ih =>
    rw [weights] at hw
    have he := ((sub_union_left e.dependencies (dependenciesOfAll es)).inter part).trans ha
    have hes := ((sub_union_right e.dependencies (dependenciesOfAll es)).inter part).trans ha
    exact (hE e part (by omega) he hp).bind fun _ => (ih (by omega) hes).bind fun _ => .pure

/-- Of all faults of an evaluation, reduction passes on only that it is given up. -/
theorem reduceToValue_fails {rebuilt : Expr} (changed : Bool) (hw : rebuilt.weight ≤ w)
    (hg : ∀ t, T.GivesUp mask c w n t → P .tooDeep t) :
    FailsOnly (reduceToValue (engine T n) mask c rebuilt changed) P := by
  refine .ite (fun _ => .pure) fun hm => ?_
  rw [Bool.or_eq_true, not_or, Bool.not_eq_true', Bool.not_eq_false] at hm
  have hcovered : rebuilt.dependencies.Sub mask := by
    intro p hp
    have := sub_inter_of_contains hm.2 p hp
    rw [has_inter, Bool.and_eq_true] at this
    exact this.2
  refine .outcome_bind fun s r t hr f hf => ?_
  split at hf
  · cases hf
  · cases hf
    exact hg t ⟨rebuilt, n, s, hw, hcovered, Nat.le_refl n, hr⟩
  · cases hf

theorem reduceOne_fails {m : Expr → Expr} {k : Expr}
    (hE : (engine T n).ReducesParts c asked mask w P) (hk : k.weight < w)
    (hm : ∀ k', k'.weight ≤ k.weight → (m k').weight ≤ w)
    (ha : (k.dependencies ∩ mask).Sub asked)
    (hg : ∀ t, T.GivesUp mask c w n t → P .tooDeep t) :
    FailsOnly (reduceOne (engine T n) mask c m k) P :=
  (hE k mask hk ha (.refl _)).bind_of (engine_reducesWeight T n mask k c) fun r hr =>
    reduceToValue_fails r.2 (hm _ hr) hg

theorem reduceTwo_fails {m : Expr → Expr → Expr} {l r : Expr}
    (hE : (engine T n).ReducesParts c asked mask w P) (hw : l.weight + r.weight < w)
    (hm : ∀ k k', k.weight ≤ l.weight → k'.weight ≤ r.weight → (m k k').weight ≤ w)
    (ha : ((l.dependencies ∪ r.dependencies) ∩ mask).Sub asked)
    (hg : ∀ t, T.GivesUp mask c w n t → P .tooDeep t) :
    FailsOnly (reduceTwo (engine T n) mask c m l r) P := by
  have hl := hE l mask (by omega) (((sub_union_left _ _).inter mask).trans ha) (.refl _)
  have hr := hE r mask (by omega) (((sub_union_right _ _).inter mask).trans ha) (.refl _)
  refine hl.bind_of (engine_reducesWeight T n mask l c) fun k hk => ?_
  exact hr.bind_of (engine_reducesWeight T n mask r c) fun k' hk' =>
    reduceToValue_fails _ (hm _ _ hk hk') hg

theorem reduceMany_fails {m : List Expr → Expr} {es : List Expr}
    (hE : (engine T n).ReducesParts c asked mask w P) (hw : weights es < w)
    (hm : ∀ ks, weights ks ≤ weights es → (m ks).weight ≤ w)
    (ha : (dependenciesOfAll es ∩ mask).Sub asked)
    (hg : ∀ t, T.GivesUp mask c w n t → P .tooDeep t) :
    FailsOnly (reduceMany (engine T n) mask c m es) P :=
  (reduceAll_fails hE hw ha (.refl _)).bind_of
    (reduceAll_weight (engine_reducesWeight T n) es) fun r hr =>
      reduceToValue_fails r.2 (hm _ hr.2) hg

theorem boundNode_fails {f : SystemFunction} {arity : Nat} {bound : Option Node}
    (h : bound = Option.none → (f.intrinsic arity ∩ mask).Sub asked) :
    FailsOnly (boundNode mask f arity bound c) fun f _ => c.Lacks asked f := by
  unfold boundNode
  extract_lets own
  cases bound with
  | some n => exact .pure
  | none =>
    refine .ite (fun hm => ?_) fun _ => .pure
    rw [Bool.and_eq_true] at hm
    obtain ⟨p, hown, hp⟩ := exists_has_of_intersects hm.1
    rw [has_inter, Bool.and_eq_true] at hp
    have hasked := h rfl p (by rw [has_inter, hown, hp.1]; rfl)
    refine (Context.node_fails ?_).bind fun _ => .pure
    cases p with
    | contextNode => exact .inl hasked
    | contextDocument => exact .inr hasked
    | _ => cases hp.2

/-- One step of a reduction fails as the reductions of the parts do, or for what the context
lacks. -/
theorem reduce_fails (hE : (engine T n).ReducesParts c (e.dependencies ∩ mask) mask e.weight P)
    (hn : e.weight ≤ n + 1) (hl : ∀ f t, c.Lacks (e.dependencies ∩ mask) f → P f t)
    (hg : ∀ t, T.GivesUp mask c e.weight n t → P .tooDeep t) :
    FailsOnly (e.reduce (engine T n) mask c) P := by
  unfold reduce
  refine .ite (fun _ => .pure) fun hm => ?_
  rw [Bool.not_eq_true', Bool.not_eq_false] at hm
  extract_lets inner
  have hinner : inner.Sub mask := inter_sub_left mask .fixedInPredicates
  have hmask := Sub.refl mask
  cases e with
  | root | contextNode | parentNode | currentNode | «attribute» => exact oneNode_fails rfl hm hn hl
  | axis along test origin =>
    cases origin with
    | some n =>
      obtain ⟨p, hp, -⟩ := exists_has_of_intersects hm
      cases p <;> cases hp
    | none =>
      have hn := sub_inter_of_intersects .contextNode
        (fun q hq => by cases q <;> first | rfl | cases hq) hm
      exact ((Context.node_fails (.inl (hn .contextNode rfl))).imp hl).bind fun _ => .pure
  | path start along test predicates =>
    rw [weight] at hE
    refine (hE start mask (by omega) ((sub_union_left _ _).inter mask) hmask).bind fun r => ?_
    refine .ite (fun _ => .pure) fun _ => ?_
    exact (reduceAll_fails hE (by omega) (inter_fixed_sub _ _ _ _) hinner).bind fun _ => .pure
  | filter base predicate =>
    rw [weight] at hE
    refine (hE base mask (by omega) ((sub_union_left _ _).inter mask) hmask).bind fun r => ?_
    refine .ite (fun _ => .pure) fun _ => ?_
    exact (hE predicate inner (by omega) (inter_fixed_sub _ _ _ _) hinner).bind fun _ => .pure
  | distinct base =>
    rw [weight] at hE
    exact (hE base mask (by omega) (.refl _) hmask).bind fun _ => .pure
  | distinctBy base key =>
    rw [weight] at hE
    refine (hE base mask (by omega) ((sub_union_left _ _).inter mask) hmask).bind fun r => ?_
    exact (hE key inner (by omega) (inter_fixed_sub _ _ _ _) hinner).bind fun _ => .pure
  | sorted base keys rules =>
    rw [weight] at hE
    refine (hE base mask (by omega) ((sub_union_left _ _).inter mask) hmask).bind fun r => ?_
    exact (reduceAll_fails hE (by omega) (inter_fixed_sub _ _ _ _)
      (inter_sub_left mask .fixedInSortKeys)).bind fun _ => .pure
  | call function args bound scope =>
    rw [weight] at hE hg
    refine (reduceAll_fails hE (by omega) ((sub_union_right _ _).inter mask) hmask).bind_of
      (reduceAll_weight (engine_reducesWeight T n) args) fun r hr => ?_
    refine ((boundNode_fails fun hb => ?_).imp hl).bind fun b =>
      reduceToValue_fails true (Nat.add_le_add_left hr.2 3) hg
    rw [hr.1, hb]
    exact (sub_union_left _ _).inter mask
  | set op l r | logical op l r | compare op l r | arithmetic op l r =>
    refine reduceTwo_fails hE ?_ (fun k k' hk hk' => ?_) (.refl _) hg
    all_goals simp only [weight]; omega
  | compareNode op k v | compareNodes op k v | negate k =>
    refine reduceOne_fails hE ?_ (fun k' hk => Nat.add_le_add_left hk 2) (.refl _) hg
    rw [weight]
    omega
  | extension name args =>
    refine reduceMany_fails hE ?_ (fun ks h => Nat.add_le_add_left h 2)
      ((sub_union_right _ _).inter mask) hg
    rw [weight]
    omega
  | template parts =>
    refine reduceMany_fails hE ?_ (fun ks h => Nat.add_le_add_left h 4) (.refl _) hg
    rw [weight]
    omega
  | _ => exact reduceToValue_fails false (Nat.le_refl _) hg

end Expr

/-- Reduction leaves the faults of evaluation to evaluation. It fails only where the context lacks a
node that the expression asks for and the mask covers; and it is given up only with an evaluation
that it tries. -/
theorem engine_reduce_fails (T : Transformation) {depth : Nat} (mask : Dependencies) {e : Expr}
    (c : Context) (hd : e.weight ≤ depth) :
    FailsOnly ((engine T depth).reduce mask e c)
      (T.Hinders c (e.dependencies ∩ mask) mask e.weight (depth - e.weight)) := by
  induction depth generalizing mask e with
  | zero => exact absurd hd (Nat.not_le_of_gt e.weight_pos)
  | succ n ih =>
    have hpos := e.weight_pos
    refine Expr.reduce_fails ?_ hd (fun f t h => .inl h) fun t h => .inr ⟨rfl, ?_⟩
    · intro k part hk ha hp
      exact (ih part (by omega)).imp fun f t h => h.mono ha hp (by omega) (by omega)
    · exact h.mono (.refl mask) (Nat.le_refl _) (by omega)

/-- The operand that evaluation skips is reduced all the same, and a context without a current node
hinders that. -/
theorem engine_reduce_fails_unused : ∃ e : Expr, e.weight ≤ 9 ∧
    (((engine .bare 9).value e .blank).attempt.run {}).1 = .ok (.boolean false) ∧
    (((engine .bare 9).reduce .all e .blank).attempt.run {}).1 = .error .noCurrentNode ∧
    Context.blank.Lacks (e.dependencies ∩ .all) .noCurrentNode := by
  have hd : (Expr.logical .and (.positionRange 2 2) .currentNode).weight ≤ 9 := by decide
  refine ⟨_, hd, rfl, rfl, ?_⟩
  obtain h | ⟨h, -⟩ := engine_reduce_fails .bare .all .blank hd {} .noCurrentNode rfl
  · exact h
  · cases h

end PathLanguage
