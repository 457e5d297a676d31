/- What an expression asks of its context, down to the names of variables. A reduced expression asks
for no more than the expression itself. -/
import PathLanguage.Evaluation
import PathLanguage.Proofs.Session.Returns

namespace PathLanguage

namespace Dependencies

/-- The parts of a context. -/
inductive Part where
  | bindings
  | currentNode
  | contextNode
  | position
  | last
  | controller
  | contextDocument

def has (d : Dependencies) : Part → Bool
  | .bindings => d.bindings
  | .currentNode => d.currentNode
  | .contextNode => d.contextNode
  | .position => d.position
  | .last => d.last
  | .controller => d.controller
  | .contextDocument => d.contextDocument

/-- Every part named in one set is named in another. -/
def Sub (a b : Dependencies) : Prop := ∀ p, a.has p = true → b.has p = true

variable {a b d e : Dependencies}

@[simp] theorem has_union (p : Part) : (a ∪ b).has p = (a.has p || b.has p) := by cases p <;> rfl

@[simp] theorem has_inter (p : Part) : (a ∩ b).has p = (a.has p && b.has p) := by cases p <;> rfl

@[simp] theorem has_diff (p : Part) : (a \ b).has p = (a.has p && !b.has p) := by cases p <;> rfl

@[simp] theorem has_empty (p : Part) : (∅ : Dependencies).has p = false := by cases p <;> rfl

theorem Sub.refl (a : Dependencies) : a.Sub a := fun _ h => h

theorem Sub.trans (h : a.Sub b) (h' : b.Sub d) : a.Sub d := fun p hp => h' p (h p hp)

theorem empty_sub (a : Dependencies) : (∅ : Dependencies).Sub a := fun p h => by simp at h

theorem sub_union_left (a b : Dependencies) : a.Sub (a ∪ b) := fun p h => by simp [h]

theorem sub_union_right (a b : Dependencies) : b.Sub (a ∪ b) := fun p h => by simp [h]

theorem Sub.union (h : a.Sub d) (h' : b.Sub e) : (a ∪ b).Sub (d ∪ e) := by
  intro p hp
  rw [has_union, Bool.or_eq_true] at hp ⊢
  exact hp.imp (h p) (h' p)

theorem Sub.inter (h : a.Sub b) (d : Dependencies) : (a ∩ d).Sub (b ∩ d) := by
  intro p hp
  rw [has_inter, Bool.and_eq_true] at hp ⊢
  exact ⟨h p hp.1, hp.2⟩

theorem inter_sub_left (a b : Dependencies) : (a ∩ b).Sub a := fun p h => by simp_all

/-- What is wholly within a mask is its part within the mask. -/
theorem sub_inter_of_contains {mask : Dependencies} (h : mask.contains a = true) :
    a.Sub (a ∩ mask) := by
  intro p hp
  have hd : (a \ mask).has p = false := by
    rw [contains, isEmpty, beq_iff_eq] at h
    rw [h, has_empty]
  simp_all

theorem exists_has_of_intersects (h : a.intersects b = true) :
    ∃ p, a.has p = true ∧ b.has p = true := by
  refine Classical.byContradiction fun hno => ?_
  have hnone (p : Part) : (a ∩ b).has p = false := by
    rw [← Bool.not_eq_true, has_inter, Bool.and_eq_true]
    exact fun hp => hno ⟨p, hp⟩
  have hempty : a ∩ b = ∅ := by
    generalize a ∩ b = i at hnone
    obtain ⟨_, _, _, _, _, _, _⟩ := i
    simp only [EmptyCollection.emptyCollection, Dependencies.none, mk.injEq]
    exact ⟨hnone .bindings, hnone .currentNode, hnone .contextNode, hnone .position, hnone .last,
      hnone .controller, hnone .contextDocument⟩
  rw [intersects, isEmpty, hempty] at h
  exact absurd h (by simp)

/-- What names one part only and meets a mask is within it. -/
theorem sub_inter_of_intersects {mask : Dependencies} (p : Part)
    (ha : ∀ q, a.has q = true → q = p) (h : a.intersects mask = true) : a.Sub (a ∩ mask) := by
  obtain ⟨q, hq, hm⟩ := exists_has_of_intersects h
  obtain rfl := ha q hq
  intro r hr
  obtain rfl := ha r hr
  rw [has_inter, hr, hm]
  rfl

end Dependencies

mutual

/-- The names that an expression looks up among the variables of its context. -/
def Expr.variables : Expr → List ExpandedName
  | .value _ | .root | .contextNode | .parentNode | .currentNode | .attribute _ | .axis ..
  | .positionRange .. | .isLast _ | .failure _ => []
  | .path start _ _ predicates => start.variables ++ variablesOfAll predicates
  | .filter b e | .distinctBy b e => b.variables ++ e.variables
  | .set _ l r | .logical _ l r | .compare _ l r | .arithmetic _ l r => l.variables ++ r.variables
  | .distinct e | .compareNode _ e _ | .compareNodes _ e _ | .negate e => e.variables
  | .call _ args _ _ | .extension _ args => variablesOfAll args
  | .reference b => if b.constant.isSome then [] else [b.name]
  | .template parts => variablesOfAll parts
  | .sorted base keys _ => base.variables ++ variablesOfAll keys

def variablesOfAll : List Expr → List ExpandedName
  | [] => []
  | e :: rest => e.variables ++ variablesOfAll rest

end

/-- One expression asks its context for no more than another. -/
structure Expr.AsksWithin (e e' : Expr) : Prop where
  dependencies : e.dependencies.Sub e'.dependencies
  names : e.variables ⊆ e'.variables

/-- As many expressions as in another list ask for no more in all. -/
structure AskWithin (es es' : List Expr) : Prop where
  length_eq : es.length = es'.length
  dependencies : (dependenciesOfAll es).Sub (dependenciesOfAll es')
  names : variablesOfAll es ⊆ variablesOfAll es'

open Dependencies

theorem Expr.AsksWithin.refl (e : Expr) : e.AsksWithin e := ⟨.refl _, fun _ h => h⟩

theorem Expr.AsksWithin.trans {e k m : Expr} (h : e.AsksWithin k) (h' : k.AsksWithin m) :
    e.AsksWithin m :=
  ⟨h.dependencies.trans h'.dependencies, fun _ hx => h'.names (h.names hx)⟩

theorem Expr.asksWithin_value (v : Value) (e : Expr) : (Expr.value v).AsksWithin e :=
  ⟨empty_sub _, by simp [Expr.variables]⟩

theorem append_subset_append {α : Type} {a b c d : List α} (h : a ⊆ c) (h' : b ⊆ d) :
    a ++ b ⊆ c ++ d := by
  intro x hx
  rw [List.mem_append] at hx ⊢
  exact hx.imp (@h x) (@h' x)

theorem Expr.AsksWithin.cons {e k : Expr} {es ks : List Expr} (h : e.AsksWithin k)
    (hs : AskWithin es ks) : AskWithin (e :: es) (k :: ks) :=
  ⟨congrArg (· + 1) hs.length_eq, h.dependencies.union hs.dependencies,
    append_subset_append h.names hs.names⟩

/-- An engine whose reduced expressions ask for no more than the expressions themselves. -/
def Engine.ReducesWithin (E : Engine) : Prop :=
  ∀ mask e c, Returns (E.reduce mask e c) fun r => r.1.AsksWithin e

namespace Expr

variable {E : Engine} {mask : Dependencies} {c : Context}

theorem reduceAll_within (hE : E.ReducesWithin) (es : List Expr) :
    Returns (reduceAll E mask c es) fun r => AskWithin r.1 es := by
  induction es with
  | nil => exact .pure ⟨rfl, .refl _, fun _ h => h⟩
  | cons e es ih =>
    exact (hE mask e c).bind fun r hr => ih.bind fun rs hrs => .pure (hr.cons hrs)

theorem reduceToValue_within {rebuilt e : Expr} {changed : Bool} (h : rebuilt.AsksWithin e) :
    Returns (reduceToValue E mask c rebuilt changed) fun r => r.1.AsksWithin e := by
  refine .ite (fun _ => .pure h) fun _ => .bind_any fun r => ?_
  split
  · exact .pure (asksWithin_value _ _)
  · exact .throw
  · exact .pure h

theorem reduceOne_within (hE : E.ReducesWithin) {m : Expr → Expr} {e : Expr}
    (hm : ∀ k, k.AsksWithin e → (m k).AsksWithin (m e)) :
    Returns (reduceOne E mask c m e) fun r => r.1.AsksWithin (m e) :=
  (hE mask e c).bind fun _ hr => reduceToValue_within (hm _ hr)

theorem reduceTwo_within (hE : E.ReducesWithin) {m : Expr → Expr → Expr} {l r : Expr}
    (hd : ∀ l r, (m l r).dependencies = l.dependencies ∪ r.dependencies)
    (hv : ∀ l r, (m l r).variables = l.variables ++ r.variables) :
    Returns (reduceTwo E mask c m l r) fun k => k.1.AsksWithin (m l r) := by
  refine (hE mask l c).bind fun k hl => (hE mask r c).bind fun k' hr => reduceToValue_within ?_
  refine ⟨?_, ?_⟩
  · rw [hd, hd]
    exact hl.dependencies.union hr.dependencies
  · rw [hv, hv]
    exact append_subset_append hl.names hr.names

theorem reduceMany_within (hE : E.ReducesWithin) {m : List Expr → Expr} {es : List Expr}
    (hm : ∀ ks, AskWithin ks es → (m ks).AsksWithin (m es)) :
    Returns (reduceMany E mask c m es) fun r => r.1.AsksWithin (m es) :=
  (reduceAll_within hE es).bind fun _ hrs => reduceToValue_within (hm _ hrs)

/-- A bound node only takes away from what a call asks for. -/
theorem call_within {f : SystemFunction} {args args' : List Expr} {bound bound' : Option Node}
    {scope : Option Scope} (ha : AskWithin args' args) (hb : bound.isSome = true → bound'.isSome) :
    (Expr.call f args' bound' scope).AsksWithin (Expr.call f args bound scope) := by
  refine ⟨?_, ha.names⟩
  simp only [Expr.dependencies, ha.length_eq]
  refine Sub.union ?_ ha.dependencies
  cases h : bound.isSome with
  | true => simpa [hb h] using Sub.refl _
  | false =>
    intro p hp
    simp only [Bool.false_eq_true, if_false]
    split at hp
    · rw [has_diff, Bool.and_eq_true] at hp
      exact hp.1
    · exact hp

theorem boundNode_isSome (f : SystemFunction) (arity : Nat) (bound : Option Node) :
    Returns (boundNode mask f arity bound c) fun b => bound.isSome = true → b.isSome = true := by
  unfold boundNode
  extract_lets own
  split
  · exact .pure fun _ => rfl
  · exact .ite (fun _ => .bind_any fun _ => .pure fun _ => rfl) fun _ => .pure nofun

theorem reduce_within (hE : E.ReducesWithin) (e : Expr) :
    Returns (e.reduce E mask c) fun r => r.1.AsksWithin e := by
  unfold reduce
  refine .ite (fun _ => .pure (.refl _)) fun _ => ?_
  extract_lets inner
  have hone : Returns (do
      return (Expr.value (.nodeSet (.ofOption (← E.head (← E.cursor e c false)))), true))
      fun r => r.1.AsksWithin e :=
    .bind_any fun _ => .bind_any fun _ => .pure (asksWithin_value _ _)
  split
  · exact hone
  · exact hone
  · exact hone
  · exact hone
  · exact hone
  · exact .bind_any fun n => .pure ⟨empty_sub _, by simp [Expr.variables]⟩
  · next start along test predicates _ =>
    refine (hE mask start c).bind fun r hr => .ite (fun _ => .pure (asksWithin_value _ _))
      fun _ => ?_
    refine (reduceAll_within hE predicates).bind fun ps hps => .pure ?_
    exact ⟨hr.dependencies.union (hps.dependencies.inter _),
      append_subset_append hr.names hps.names⟩
  · next base predicate _ =>
    refine (hE mask base c).bind fun r hr => .ite (fun _ => .pure ?_) fun _ => ?_
    · exact hr.trans ⟨sub_union_left _ _, List.subset_append_left _ _⟩
    · exact (hE inner predicate c).bind fun p hp => .pure
        ⟨hr.dependencies.union (hp.dependencies.inter _),
          append_subset_append hr.names hp.names⟩
  · exact (hE mask _ c).bind fun r hr => .pure ⟨hr.dependencies, hr.names⟩
  · exact (hE mask _ c).bind fun r hr => (hE inner _ c).bind fun k hk => .pure
      ⟨hr.dependencies.union (hk.dependencies.inter _),
        append_subset_append hr.names hk.names⟩
  · exact (hE mask _ c).bind fun r hr => (reduceAll_within hE _).bind fun ks hks => .pure
      ⟨hr.dependencies.union (hks.dependencies.inter _),
        append_subset_append hr.names hks.names⟩
  · next f args bound scope _ =>
    exact (reduceAll_within hE args).bind fun rs hrs =>
      (boundNode_isSome f rs.1.length bound).bind fun b hb =>
        reduceToValue_within (call_within hrs hb)
  · exact reduceTwo_within hE (fun _ _ => rfl) fun _ _ => rfl
  · exact reduceTwo_within hE (fun _ _ => rfl) fun _ _ => rfl
  · exact reduceTwo_within hE (fun _ _ => rfl) fun _ _ => rfl
  · exact reduceTwo_within hE (fun _ _ => rfl) fun _ _ => rfl
  · exact reduceOne_within hE fun _ h => ⟨h.dependencies, h.names⟩
  · exact reduceOne_within hE fun _ h => ⟨h.dependencies, h.names⟩
  · exact reduceOne_within hE fun _ h => ⟨h.dependencies, h.names⟩
  · exact reduceMany_within hE fun _ h => ⟨(Sub.refl _).union h.dependencies, h.names⟩
  · exact reduceMany_within hE fun _ h => ⟨h.dependencies, h.names⟩
  all_goals exact reduceToValue_within (.refl _)

end Expr

theorem engine_reducesWithin (T : Transformation) (n : Nat) : (engine T n).ReducesWithin := by
  induction n with
  | zero => exact fun _ _ _ => .fail
  | succ n ih => exact fun _ e _ => Expr.reduce_within ih e

end PathLanguage
