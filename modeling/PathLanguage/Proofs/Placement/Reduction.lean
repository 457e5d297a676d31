/- A reduced expression asks for the position or the size only if the expression itself does. -/
import PathLanguage.Evaluation
import PathLanguage.Proofs.Session.Returns

namespace PathLanguage

namespace Dependencies

/-- One set of dependencies asks for the position or the size only if another does. -/
structure PlacedIn (a b : Dependencies) : Prop where
  position : a.position = true → b.position = true
  last : a.last = true → b.last = true

variable {a b d e : Dependencies}

@[simp] theorem position_union : (a ∪ b).position = (a.position || b.position) := rfl

@[simp] theorem last_union : (a ∪ b).last = (a.last || b.last) := rfl

@[simp] theorem position_inter : (a ∩ b).position = (a.position && b.position) := rfl

@[simp] theorem last_inter : (a ∩ b).last = (a.last && b.last) := rfl

theorem PlacedIn.refl (a : Dependencies) : a.PlacedIn a := ⟨id, id⟩

theorem PlacedIn.trans (h : a.PlacedIn b) (h' : b.PlacedIn d) : a.PlacedIn d :=
  ⟨fun hp => h'.position (h.position hp), fun hl => h'.last (h.last hl)⟩

theorem placedIn_empty : (∅ : Dependencies).PlacedIn a := ⟨nofun, nofun⟩

/-- What is fixed in predicates is neither the position nor the size. -/
theorem placedIn_fixed : (a ∩ .fixedInPredicates).PlacedIn b :=
  ⟨by simp [fixedInPredicates], by simp [fixedInPredicates]⟩

theorem placedIn_fixedInSortKeys : (a ∩ .fixedInSortKeys).PlacedIn b :=
  ⟨by simp [fixedInSortKeys], by simp [fixedInSortKeys]⟩

theorem placedIn_union_left : a.PlacedIn (a ∪ b) :=
  ⟨fun h => by simp [h], fun h => by simp [h]⟩

theorem placedIn_union_right : b.PlacedIn (a ∪ b) :=
  ⟨fun h => by simp [h], fun h => by simp [h]⟩

theorem union_placedIn (ha : a.PlacedIn d) (hb : b.PlacedIn d) : (a ∪ b).PlacedIn d := by
  refine ⟨fun h => ?_, fun h => ?_⟩
  · rw [position_union, Bool.or_eq_true] at h
    exact h.elim ha.position hb.position
  · rw [last_union, Bool.or_eq_true] at h
    exact h.elim ha.last hb.last

theorem PlacedIn.inter (h : a.PlacedIn b) (d : Dependencies) : (a ∩ d).PlacedIn (b ∩ d) := by
  refine ⟨fun hp => ?_, fun hl => ?_⟩
  · rw [position_inter, Bool.and_eq_true] at hp ⊢
    exact ⟨h.position hp.1, hp.2⟩
  · rw [last_inter, Bool.and_eq_true] at hl ⊢
    exact ⟨h.last hl.1, hl.2⟩

theorem inter_placedIn : (a ∩ b).PlacedIn a :=
  ⟨fun h => by simp_all, fun h => by simp_all⟩

/-- What is wholly within a mask asks for no other place than with the mask. -/
theorem placedIn_inter_of_contains {mask : Dependencies} (h : mask.contains a = true) :
    a.PlacedIn (a ∩ mask) := by
  have hp : (a \ mask).position = false ∧ (a \ mask).last = false := by
    rw [contains, isEmpty, beq_iff_eq] at h
    rw [h]
    exact ⟨rfl, rfl⟩
  have hdiff : (a \ mask).position = (a.position && !mask.position) ∧
      (a \ mask).last = (a.last && !mask.last) := ⟨rfl, rfl⟩
  rw [hdiff.1, hdiff.2] at hp
  exact ⟨fun h => by simp_all, fun h => by simp_all⟩

theorem PlacedIn.union (ha : a.PlacedIn d) (hb : b.PlacedIn e) : (a ∪ b).PlacedIn (d ∪ e) :=
  union_placedIn (ha.trans placedIn_union_left) (hb.trans placedIn_union_right)

theorem placedIn_of_mem {es : List Expr} {e : Expr} (h : e ∈ es) :
    e.dependencies.PlacedIn (dependenciesOfAll es) := by
  induction es with
  | nil => cases h
  | cons k es ih =>
    rcases List.mem_cons.mp h with rfl | h
    · exact placedIn_union_left
    · exact (ih h).trans placedIn_union_right

end Dependencies

open Dependencies

/-- An engine whose reduced expressions ask for no place that the expressions did not ask for. -/
def Engine.ReducesPlaces (E : Engine) : Prop :=
  ∀ mask e c, Returns (E.reduce mask e c) fun r => r.1.dependencies.PlacedIn e.dependencies

namespace Expr

variable {E : Engine} {mask : Dependencies} {c : Context}

theorem reduceAll_places (hE : E.ReducesPlaces) (es : List Expr) :
    Returns (reduceAll E mask c es) fun r =>
      (dependenciesOfAll r.1).PlacedIn (dependenciesOfAll es) := by
  induction es with
  | nil => exact .pure (.refl _)
  | cons e es ih =>
    exact (hE mask e c).bind fun r hr => ih.bind fun rs hrs => .pure (hr.union hrs)

theorem reduceToValue_places {rebuilt : Expr} {changed : Bool} {d : Dependencies}
    (h : rebuilt.dependencies.PlacedIn d) :
    Returns (reduceToValue E mask c rebuilt changed) fun r => r.1.dependencies.PlacedIn d := by
  refine .ite (fun _ => .pure h) fun _ => .bind_any fun r => ?_
  split
  · exact .pure placedIn_empty
  · exact .throw
  · exact .pure h

theorem reduceOne_places (hE : E.ReducesPlaces) {m : Expr → Expr} {e : Expr}
    (hm : ∀ e, (m e).dependencies = e.dependencies) :
    Returns (reduceOne E mask c m e) fun r =>
      r.1.dependencies.PlacedIn (m e).dependencies :=
  (hE mask e c).bind fun r hr => reduceToValue_places (by simpa [hm] using hr)

theorem reduceTwo_places (hE : E.ReducesPlaces) {m : Expr → Expr → Expr} {l r : Expr}
    (hm : ∀ l r, (m l r).dependencies = l.dependencies ∪ r.dependencies) :
    Returns (reduceTwo E mask c m l r) fun k =>
      k.1.dependencies.PlacedIn (m l r).dependencies :=
  (hE mask l c).bind fun a ha => (hE mask r c).bind fun b hb =>
    reduceToValue_places (by simpa [hm] using ha.union hb)

theorem reduceMany_places (hE : E.ReducesPlaces) {m : List Expr → Expr} {es : List Expr}
    {d : Dependencies} (hm : ∀ es, (m es).dependencies = d ∪ dependenciesOfAll es) :
    Returns (reduceMany E mask c m es) fun r =>
      r.1.dependencies.PlacedIn (m es).dependencies :=
  (reduceAll_places hE es).bind fun rs hrs =>
    reduceToValue_places (by simpa [hm] using (PlacedIn.refl d).union hrs)

theorem intrinsic_places (f : SystemFunction) (m n : Nat) :
    (f.intrinsic m).PlacedIn (f.intrinsic n) := by
  cases f <;> simp only [SystemFunction.intrinsic] <;> first | exact .refl _ | skip
  all_goals split <;> first | exact placedIn_empty | exact ⟨nofun, nofun⟩

/-- A bound node stands in for the context node only. -/
theorem call_places {f : SystemFunction} {args args' : List Expr} {bound bound' : Option Node}
    {scope : Option Scope} (ha : (dependenciesOfAll args').PlacedIn (dependenciesOfAll args)) :
    (Expr.call f args' bound' scope).dependencies.PlacedIn
      (Expr.call f args bound scope).dependencies := by
  have hown : ∀ (d : Dependencies) (b b' : Bool),
      (if b = true then d \ focusNode else d).PlacedIn
        (if b' = true then d \ focusNode else d) := by
    rintro ⟨_, _, _, _, _, _, _⟩ (_ | _) (_ | _) <;>
      exact ⟨fun h => by simpa [SDiff.sdiff, diff, zip, focusNode] using h,
        fun h => by simpa [SDiff.sdiff, diff, zip, focusNode] using h⟩
  have hsame : ∀ b : Bool, (if b = true then f.intrinsic args'.length \ focusNode
      else f.intrinsic args'.length).PlacedIn
        (if b = true then f.intrinsic args.length \ focusNode else f.intrinsic args.length) := by
    have h := intrinsic_places f args'.length args.length
    rintro (_ | _)
    · exact h
    · refine ⟨fun hp => ?_, fun hl => ?_⟩
      · simpa [SDiff.sdiff, diff, zip, focusNode] using
          h.position (by simpa [SDiff.sdiff, diff, zip, focusNode] using hp)
      · simpa [SDiff.sdiff, diff, zip, focusNode] using
          h.last (by simpa [SDiff.sdiff, diff, zip, focusNode] using hl)
  exact ((hown _ _ _).trans (hsame bound.isSome)).union ha

theorem reduce_places (hE : E.ReducesPlaces) (e : Expr) :
    Returns (e.reduce E mask c) fun r => r.1.dependencies.PlacedIn e.dependencies := by
  unfold reduce
  refine .ite (fun _ => .pure (.refl _)) fun _ => ?_
  extract_lets inner
  have hone : Returns (do
      return (Expr.value (.nodeSet (.ofOption (← E.head (← E.cursor e c false)))), true))
      fun r => r.1.dependencies.PlacedIn e.dependencies :=
    .bind_any fun _ => .bind_any fun _ => .pure placedIn_empty
  have hplain : e.dependencies.PlacedIn e.dependencies := .refl _
  split
  · exact hone
  · exact hone
  · exact hone
  · exact hone
  · exact hone
  · exact .bind_any fun n => .pure placedIn_empty
  · next start along test predicates _ =>
    refine (hE mask start c).bind fun r hr => .ite (fun _ => .pure placedIn_empty) fun _ => ?_
    refine (reduceAll_places hE predicates).bind fun ps _ => .pure ?_
    exact hr.union placedIn_fixed
  · next base predicate _ =>
    refine (hE mask base c).bind fun r hr => .ite (fun _ => .pure ?_) fun _ => ?_
    · exact hr.trans placedIn_union_left
    · exact .bind_any fun p => .pure (hr.union placedIn_fixed)
  · exact (hE mask _ c).bind fun r hr => .pure hr
  · exact (hE mask _ c).bind fun r hr => .bind_any fun k => .pure (hr.union placedIn_fixed)
  · refine (hE mask _ c).bind fun r hr => .bind_any fun ks => .pure ?_
    exact hr.union placedIn_fixedInSortKeys
  · next f args bound scope _ =>
    refine (reduceAll_places hE args).bind fun rs hrs => .bind_any fun b => ?_
    exact reduceToValue_places (call_places hrs)
  · exact reduceTwo_places hE fun _ _ => rfl
  · exact reduceTwo_places hE fun _ _ => rfl
  · exact reduceTwo_places hE fun _ _ => rfl
  · exact reduceTwo_places hE fun _ _ => rfl
  · exact reduceOne_places hE fun _ => rfl
  · exact reduceOne_places hE fun _ => rfl
  · exact reduceOne_places hE fun _ => rfl
  · exact reduceMany_places hE fun _ => rfl
  · refine reduceMany_places (d := ∅) hE fun es => ?_
    rw [dependencies]
    cases dependenciesOfAll es
    rfl
  all_goals exact reduceToValue_places hplain

end Expr

theorem engine_reducesPlaces (T : Transformation) (n : Nat) : (engine T n).ReducesPlaces := by
  induction n with
  | zero => exact fun _ _ _ => .fail
  | succ n ih => exact fun _ e _ => Expr.reduce_places ih e

end PathLanguage
