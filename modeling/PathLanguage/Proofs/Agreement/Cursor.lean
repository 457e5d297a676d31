/- Cursors that are alike deliver alike: what they hold is alike, in contexts that agree on it. -/
import PathLanguage.Evaluation.Reading
import PathLanguage.Proofs.Agreement.Context

namespace PathLanguage

/-- Contexts of predicates and keys agree on what stays fixed for these. -/
structure FixedAlike (T : Transformation) (e e' : Expr) (c c' : Context) : Prop where
  alike : e.Alike e'
  agrees : c.Agrees T (e.dependencies ∩ .fixedInPredicates) e.variables c'

structure AllFixedAlike (T : Transformation) (es es' : List Expr) (c c' : Context) : Prop where
  alike : AllAlike es es'
  agrees : c.Agrees T (dependenciesOfAll es ∩ .fixedInPredicates) (variablesOfAll es) c'

namespace FixedAlike

variable {T : Transformation} {e e' : Expr} {c c' : Context}

theorem withFocus (h : FixedAlike T e e' c c') (n : Node) (position last : Nat) :
    AskAlike T e e' (c.withFocus n position last) (c'.withFocus n position last) :=
  ⟨h.alike, h.agrees.withFocus n position last⟩

theorem withNode (h : FixedAlike T e e' c c') (n : Node) :
    AskAlike T e e' (c.withNode n) (c'.withNode n) :=
  h.withFocus n 1 1

theorem ambient (h : FixedAlike T e e' c c') : FixedAlike T e e' c.ambient c'.ambient :=
  ⟨h.alike, h.agrees.ambient⟩

end FixedAlike

namespace AllFixedAlike

open Dependencies

variable {T : Transformation} {e e' : Expr} {es es' : List Expr} {c c' : Context}

theorem head (h : AllFixedAlike T (e :: es) (e' :: es') c c') : FixedAlike T e e' c c' := by
  obtain ⟨_ | ⟨he, -⟩, hc⟩ := h
  exact ⟨he, hc.mono ((sub_union_left _ _).inter _) (List.subset_append_left _ _)⟩

theorem tail (h : AllFixedAlike T (e :: es) (e' :: es') c c') : AllFixedAlike T es es' c c' := by
  obtain ⟨_ | ⟨-, hs⟩, hc⟩ := h
  exact ⟨hs, hc.mono ((sub_union_right _ _).inter _) (List.subset_append_right _ _)⟩

theorem ambient (h : AllFixedAlike T es es' c c') : AllFixedAlike T es es' c.ambient c'.ambient :=
  ⟨h.alike, h.agrees.ambient⟩

end AllFixedAlike

structure Selection.Alike (T : Transformation) (s s' : Selection) : Prop where
  judged : FixedAlike T s.predicate s'.predicate s.context s'.context
  strategy : s.strategy = s'.strategy
  usesLast : s.usesLast = s'.usesLast
  stopsAtReject : s.stopsAtReject = s'.stopsAtReject

structure StepPlan.Alike (T : Transformation) (p p' : StepPlan) (c c' : Context) : Prop where
  axis : p.axis = p'.axis
  test : p.test = p'.test
  predicates : AllFixedAlike T p.predicates p'.predicates c c'

inductive Cursor.Alike (T : Transformation) : Cursor → Cursor → Prop
  | listed (f : Flags) (size : Option Nat) (rest : List Node) :
      Cursor.Alike T (.listed f size rest) (.listed f size rest)
  | lookahead {base base' : Cursor} (buffer : List Node) (delivered : Nat) (exhausted : Bool) :
      base.Alike T base' → Cursor.Alike T (.lookahead base buffer delivered exhausted)
        (.lookahead base' buffer delivered exhausted)
  | filter {base base' : Cursor} {s s' : Selection} (last : Option Nat) (position : Nat)
      (finished : Bool) : base.Alike T base' → s.Alike T s' →
      Cursor.Alike T (.filter base s last position finished)
        (.filter base' s' last position finished)
  | merge (op : SetOperator) {left left' right right' : Cursor} (leftHead rightHead : Option Node) :
      left.Alike T left' → right.Alike T right' →
      Cursor.Alike T (.merge op left leftHead right rightHead)
        (.merge op left' leftHead right' rightHead)
  | distinct {base base' : Cursor} {key key' : Option (Expr × Context)} (seen : List String) :
      base.Alike T base' →
      Option.Rel (fun k k' => FixedAlike T k.1 k'.1 k.2 k'.2) key key' →
      Cursor.Alike T (.distinct base key seen) (.distinct base' key' seen)
  | steps {start start' : Cursor} {plan plan' : StepPlan} {c c' : Context}
      {current current' : Cursor} (sorted : Bool) : start.Alike T start' → plan.Alike T plan' c c' →
      current.Alike T current' →
      Cursor.Alike T (.steps start plan c current sorted) (.steps start' plan' c' current' sorted)

structure Pull.Alike {α : Type} (T : Transformation) (p p' : Pull α) : Prop where
  outcome : p.outcome = p'.outcome
  rest : p.rest.Alike T p'.rest

/-- An engine whose evaluations stay in step as long as they ask alike. -/
structure Engine.Steady (T : Transformation) (E : Engine) : Prop where
  value {e e' : Expr} {c c' : Context} :
    AskAlike T e e' c c' → Action.InStep Value.Alike (E.value e c) (E.value e' c')
  boolean {e e' : Expr} {c c' : Context} :
    AskAlike T e e' c c' → Action.InStep Eq (E.boolean e c) (E.boolean e' c')
  number {e e' : Expr} {c c' : Context} :
    AskAlike T e e' c c' → Action.InStep Eq (E.number e c) (E.number e' c')
  string {e e' : Expr} {c c' : Context} :
    AskAlike T e e' c c' → Action.InStep Eq (E.string e c) (E.string e' c')
  nodeSet {e e' : Expr} {c c' : Context} :
    AskAlike T e e' c c' → Action.InStep NodeSet.Alike (E.nodeSet e c) (E.nodeSet e' c')
  cursor {e e' : Expr} {c c' : Context} (sort : Bool) :
    AskAlike T e e' c c' → Action.InStep (Cursor.Alike T) (E.cursor e c sort) (E.cursor e' c' sort)
  reduce {e e' : Expr} {c c' : Context} (mask : Dependencies) :
    e.Alike e' → c.Agrees T (e.dependencies ∩ mask) e.variables c' →
    Action.InStep (fun r r' => r.1.Alike r'.1 ∧ r.2 = r'.2) (E.reduce mask e c) (E.reduce mask e' c')
  next {k k' : Cursor} : k.Alike T k' → InStep (Pull.Alike T) (E.next k) (E.next k')
  size {k k' : Cursor} : k.Alike T k' → InStep (Pull.Alike T) (E.size k) (E.size k')
  drain {k k' : Cursor} : k.Alike T k' → Action.InStep Eq (E.drain k) (E.drain k')
  find {k k' : Cursor} (test : Node → Bool) :
    k.Alike T k' → Action.InStep Eq (E.find test k) (E.find test k')
  search {c c' : Context} (name : ExpandedName) (value : String) (root : Node) :
    c.Agrees T ∅ [] c' → Action.InStep Eq (E.search name value root c) (E.search name value root c')

theorem Strategy.ofPredicate_eq {p p' : Expr} (h : p.Alike p') :
    Strategy.ofPredicate p = Strategy.ofPredicate p' := by
  cases h with
  | value h => cases h <;> rfl
  | _ => rfl

namespace Cursor

variable {T : Transformation} {E : Engine} {k k' : Cursor}

theorem Alike.flags (h : k.Alike T k') : k.flags = k'.flags := by
  induction h with
  | listed | merge | distinct => rfl
  | lookahead _ _ _ _ ih | filter _ _ _ _ _ ih => exact ih
  | steps sorted _ hp _ => simp only [Cursor.flags, hp.axis]

theorem Alike.counts (h : k.Alike T k') : k.counts = k'.counts := by
  cases h <;> rfl

theorem Alike.refl_ofOption (n : Option Node) : (ofOption n).Alike T (ofOption n) := .listed ..

theorem Alike.refl_ofExtent (e : Extent) : (ofExtent e).Alike T (ofExtent e) := .listed ..

theorem Alike.refl_empty : Cursor.empty.Alike T .empty := .listed ..

theorem select_alike (h : k.Alike T k') {p p' : Expr} {c c' : Context} (hp : FixedAlike T p p' c c')
    (stopsAtReject : Bool) :
    (k.select p c stopsAtReject).Alike T (k'.select p' c' stopsAtReject) := by
  unfold select
  extract_lets usesLast usesLast'
  have hu : usesLast = usesLast' := congrArg Dependencies.last hp.alike.dependencies
  rw [← h.counts, ← hu]
  refine .filter _ _ _ ?_ ⟨hp.ambient, Strategy.ofPredicate_eq hp.alike, rfl, rfl⟩
  split
  · exact .lookahead _ _ _ h
  · exact h

theorem selectAll_alike {ps ps' : List Expr} {c c' : Context} (hp : AllFixedAlike T ps ps' c c')
    (h : k.Alike T k') :
    (ps.foldl (fun k p => k.select p c false) k).Alike T
      (ps'.foldl (fun k p => k.select p c' false) k') := by
  induction ps generalizing ps' k k' with
  | nil =>
    cases hp.alike
    exact h
  | cons p ps ih =>
    match ps', hp.alike with
    | _ :: _, .cons .. =>
      rw [List.foldl_cons, List.foldl_cons]
      exact ih hp.tail (select_alike h hp.head false)

theorem ofStep_alike {plan plan' : StepPlan} {c c' : Context} (h : plan.Alike T plan' c c')
    (origin : Node) : (ofStep plan origin c).Alike T (ofStep plan' origin c') := by
  unfold ofStep
  rw [← h.axis, ← h.test]
  exact selectAll_alike h.predicates (.listed ..)

end Cursor

end PathLanguage
