/- A position or a size that an expression does not ask for makes no difference to its
evaluation. -/
import PathLanguage.Proofs.Placement.Call

namespace PathLanguage

open Dependencies
open Context (Like)

variable {T : Transformation} {E : Engine}

namespace Cursor

theorem select_like {c c' : Context} (h : c.ambient = c'.ambient) (base : Cursor) (p : Expr)
    (stop : Bool) : base.select p c stop = base.select p c' stop := by
  simp only [select, h]

theorem startDistinct_like {c c' : Context} (h : c.ambient = c'.ambient) (base : Cursor)
    (key : Option Expr) : startDistinct E base key c = startDistinct E base key c' := by
  simp only [startDistinct, h]

end Cursor

theorem Sorting.sortNodes_like {c c' : Context} {d : Dependencies} (h : Like d c c')
    (nodes : List Node) (keys : List (Expr × SortRule)) :
    sortNodes E nodes keys c = sortNodes E nodes keys c' := by
  have hrecords : ∀ (ns : List Node) (last position : Nat),
      records E keys c last position ns = records E keys c' last position ns := by
    intro ns last
    induction ns with
    | nil => exact fun _ => rfl
    | cons n ns ih =>
      intro position
      simp only [records, h.withFocus n position last, ih]
  simp only [sortNodes, hrecords]

namespace Expr

variable {c c' : Context}

theorem evaluate_like (hE : E.Unplaced) {e : Expr} (h : Like e.dependencies c c') :
    e.evaluate T E c = e.evaluate T E c' := by
  have hb := hE.boolean h
  have hn := hE.number h
  have hs := hE.string h
  have hns := hE.nodeSet h
  cases e with
  | call f args bound scope =>
    exact Function.Call.run_like hE ⟨rfl, rfl, rfl, rfl, h⟩
  | extension name args =>
    obtain rfl := h.eq rfl rfl
    rfl
  | reference b =>
    have hl : c.valueOf T E b = c'.valueOf T E b := by simp only [Context.valueOf, h.locals]
    simp only [evaluate, hl]
  | value | failure => rfl
  | _ => simp only [evaluate, hb, hn, hs, hns]

theorem evaluateBoolean_like (hE : E.Unplaced) {e : Expr} (h : Like e.dependencies c c') :
    e.evaluateBoolean T E c = e.evaluateBoolean T E c' := by
  have hv := hE.value h
  have hc := hE.cursor false h
  cases e with
  | logical op l r =>
    have hl := hE.boolean (h.mono (placedIn_union_left (a := l.dependencies)))
    have hr := hE.boolean (h.mono (placedIn_union_right (b := r.dependencies)))
    cases op <;> simp only [evaluateBoolean, hl, hr]
  | compare op l r =>
    have hl := hE.value (h.mono (placedIn_union_left (a := l.dependencies)))
    have hr := hE.value (h.mono (placedIn_union_right (b := r.dependencies)))
    simp only [evaluateBoolean, hl, hr]
  | compareNode op n v => simp only [evaluateBoolean, hE.nodeSet (e := n) h]
  | compareNodes op n v => simp only [evaluateBoolean, hE.nodeSet (e := n) h]
  | positionRange least most => simp only [evaluateBoolean, h.position rfl]
  | isLast wanted => simp only [evaluateBoolean, h.position rfl, h.last rfl]
  | _ => simp only [evaluateBoolean, hv, hc]

theorem evaluateNumber_like (hE : E.Unplaced) {e : Expr} (h : Like e.dependencies c c') :
    e.evaluateNumber T E c = e.evaluateNumber T E c' := by
  have hv := hE.value h
  cases e with
  | arithmetic op l r =>
    have hl := hE.number (h.mono (placedIn_union_left (a := l.dependencies)))
    have hr := hE.number (h.mono (placedIn_union_right (b := r.dependencies)))
    simp only [evaluateNumber, hl, hr]
  | negate operand => simp only [evaluateNumber, hE.number (e := operand) h]
  | _ => simp only [evaluateNumber, hv]

theorem evaluateString_like (hE : E.Unplaced) {e : Expr} (h : Like e.dependencies c c') :
    e.evaluateString T E c = e.evaluateString T E c' := by
  have hv := hE.value h
  have hc := hE.cursor true h
  cases e with
  | template parts =>
    simp only [evaluateString, Function.Call.joinedArgs_like hE fun p hp => 
      h.mono (placedIn_of_mem hp)]
  | _ => simp only [evaluateString, hv, hc]

theorem evaluateNodeSet_like (hE : E.Unplaced) (hR : E.ReducesPlaces) {e : Expr}
    (h : Like e.dependencies c c') : e.evaluateNodeSet E c = e.evaluateNodeSet E c' := by
  unfold evaluateNodeSet
  split
  · rfl
  · rw [hE.value h, hE.reduce (h.mono inter_placedIn)]
    split
    · rfl
    · refine (hR .all e c').bind_congr fun r hr => ?_
      simp only [hE.cursor false (h.mono hr)]

theorem pathCursor_like (hE : E.Unplaced) {start : Expr} (h : Like start.dependencies c c')
    (plan : StepPlan) : pathCursor E start plan c = pathCursor E start plan c' := by
  simp only [pathCursor, hE.cursor true h, h.ambient]

theorem enumerate_like (hE : E.Unplaced) {e : Expr} (h : Like e.dependencies c c') (sort : Bool) :
    e.enumerate T E c sort = e.enumerate T E c' sort := by
  have hns := hE.nodeSet h
  have hnode := h.node
  have hcurrent := h.current
  have hambient := h.ambient
  cases e with
  | path start along test predicates =>
    exact pathCursor_like hE (h.mono (placedIn_union_left (a := start.dependencies))) _
  | filter base predicate =>
    have hb := fun b => hE.cursor b (h.mono (placedIn_union_left (a := base.dependencies)))
    simp only [enumerate, hb, Cursor.select_like hambient]
  | set op l r =>
    have hl := hE.cursor true (h.mono (placedIn_union_left (a := l.dependencies)))
    have hr := hE.cursor true (h.mono (placedIn_union_right (b := r.dependencies)))
    simp only [enumerate, hl, hr]
  | distinct base =>
    simp only [enumerate, hE.cursor (e := base) true h, Cursor.startDistinct_like hambient]
  | distinctBy base key =>
    have hb := hE.cursor true (h.mono (placedIn_union_left (a := base.dependencies)))
    simp only [enumerate, hb, Cursor.startDistinct_like hambient]
  | sorted base keys rules =>
    have hb := hE.cursor true (h.mono (placedIn_union_left (a := base.dependencies)))
    simp only [enumerate, hb, Sorting.sortNodes_like h]
  | value v => cases v <;> simp only [enumerate, hns]
  | _ => simp only [enumerate, hns, hnode, hcurrent]

theorem reduceAll_like (hE : E.Unplaced) {mask : Dependencies} {es : List Expr}
    (h : ∀ e ∈ es, Like (e.dependencies ∩ mask) c c') :
    reduceAll E mask c es = reduceAll E mask c' es := by
  induction es with
  | nil => rfl
  | cons e es ih =>
    rw [List.forall_mem_cons] at h
    simp only [reduceAll, hE.reduce h.1, ih h.2]

theorem reduceToValue_like (hE : E.Unplaced) {mask : Dependencies} {rebuilt : Expr}
    (h : Like (rebuilt.dependencies ∩ mask) c c') (changed : Bool) :
    reduceToValue E mask c rebuilt changed = reduceToValue E mask c' rebuilt changed := by
  unfold reduceToValue
  split
  · rfl
  · next hc =>
    rw [Bool.or_eq_true, not_or, Bool.not_eq_true', Bool.not_eq_false] at hc
    rw [hE.value (h.mono (placedIn_inter_of_contains hc.2))]

theorem reduceOne_like (hE : E.Unplaced) (hR : E.ReducesPlaces) {mask : Dependencies}
    {m : Expr → Expr} {e : Expr} (hm : ∀ e, (m e).dependencies = e.dependencies)
    (h : Like ((m e).dependencies ∩ mask) c c') :
    reduceOne E mask c m e = reduceOne E mask c' m e := by
  rw [hm] at h
  rw [reduceOne, reduceOne, hE.reduce h]
  refine (hR mask e c').bind_congr fun r hr => reduceToValue_like hE ?_ _
  rw [hm]
  exact h.mono (hr.inter mask)

theorem reduceTwo_like (hE : E.Unplaced) (hR : E.ReducesPlaces) {mask : Dependencies}
    {m : Expr → Expr → Expr} {l r : Expr}
    (hm : ∀ l r, (m l r).dependencies = l.dependencies ∪ r.dependencies)
    (h : Like ((m l r).dependencies ∩ mask) c c') :
    reduceTwo E mask c m l r = reduceTwo E mask c' m l r := by
  rw [hm] at h
  rw [reduceTwo, reduceTwo, hE.reduce (h.mono (placedIn_union_left.inter mask)),
    hE.reduce (h.mono (placedIn_union_right.inter mask))]
  refine (hR mask l c').bind_congr fun a ha => (hR mask r c').bind_congr fun b hb => ?_
  refine reduceToValue_like hE ?_ _
  rw [hm]
  exact h.mono ((ha.union hb).inter mask)

theorem reduceMany_like (hE : E.Unplaced) (hR : E.ReducesPlaces) {mask : Dependencies}
    {m : List Expr → Expr} {es : List Expr} {d : Dependencies}
    (hm : ∀ es, (m es).dependencies = d ∪ dependenciesOfAll es)
    (h : Like ((m es).dependencies ∩ mask) c c') :
    reduceMany E mask c m es = reduceMany E mask c' m es := by
  rw [hm] at h
  rw [reduceMany, reduceMany, reduceAll_like hE fun e he =>
    h.mono (((placedIn_of_mem he).trans placedIn_union_right).inter mask)]
  refine (reduceAll_places hR es).bind_congr fun rs hrs => reduceToValue_like hE ?_ _
  rw [hm]
  exact h.mono (((PlacedIn.refl d).union hrs).inter mask)

/-- Contexts are alike for what is fixed in predicates whatever their places are. -/
theorem like_fixed {d e m : Dependencies} (h : Like d c c') :
    Like (e ∩ (m ∩ fixedInPredicates)) c c' :=
  ⟨h.node?, h.current?, h.locals, by simp [fixedInPredicates], by simp [fixedInPredicates]⟩

theorem like_fixedInSortKeys {d e m : Dependencies} (h : Like d c c') :
    Like (e ∩ (m ∩ fixedInSortKeys)) c c' :=
  ⟨h.node?, h.current?, h.locals, by simp [fixedInSortKeys], by simp [fixedInSortKeys]⟩

theorem reduce_like (hE : E.Unplaced) (hR : E.ReducesPlaces) {mask : Dependencies} {e : Expr}
    (h : Like (e.dependencies ∩ mask) c c') : e.reduce E mask c = e.reduce E mask c' := by
  have hcursor : e.dependencies.PlacedIn ∅ → E.cursor e c false = E.cursor e c' false :=
    fun he => hE.cursor false (h.mono (he.trans placedIn_empty))
  have hnode := h.node
  have hpredicate : ∀ p : Expr, E.reduce (mask ∩ fixedInPredicates) p c =
      E.reduce (mask ∩ fixedInPredicates) p c' := fun p => hE.reduce (like_fixed h)
  have hpredicates : ∀ ps, reduceAll E (mask ∩ fixedInPredicates) c ps =
      reduceAll E (mask ∩ fixedInPredicates) c' ps := fun ps =>
    reduceAll_like hE fun _ _ => like_fixed h
  have hkeys : ∀ ks, reduceAll E (mask ∩ fixedInSortKeys) c ks =
      reduceAll E (mask ∩ fixedInSortKeys) c' ks := fun ks =>
    reduceAll_like hE fun _ _ => like_fixedInSortKeys h
  have hwhole : ∀ b, reduceToValue E mask c e b = reduceToValue E mask c' e b :=
    reduceToValue_like hE h
  cases e with
  | root | contextNode | parentNode | currentNode | «attribute» =>
    simp only [reduce, hcursor ⟨nofun, nofun⟩]
  | axis along test origin => simp only [reduce, hnode]
  | path start along test predicates =>
    simp only [reduce, hE.reduce (h.mono (placedIn_union_left.inter mask)), hpredicates]
  | filter base predicate =>
    simp only [reduce, hE.reduce (h.mono (placedIn_union_left.inter mask)), hpredicate]
  | distinct base => simp only [reduce, hE.reduce (e := base) h]
  | distinctBy base key =>
    simp only [reduce, hE.reduce (h.mono (placedIn_union_left.inter mask)), hpredicate]
  | sorted base keys rules =>
    simp only [reduce, hE.reduce (h.mono (placedIn_union_left.inter mask)), hkeys]
  | call f args bound scope =>
    have hargs : reduceAll E mask c args = reduceAll E mask c' args :=
      reduceAll_like hE fun e he =>
        h.mono (((placedIn_of_mem he).trans placedIn_union_right).inter mask)
    have hbound : ∀ n, boundNode mask f n bound c = boundNode mask f n bound c' := fun n => by
      simp only [boundNode, hnode]
    simp only [reduce, hargs]
    split
    · rfl
    · refine (reduceAll_places hR args).bind_congr fun rs hrs => ?_
      rw [hbound]
      refine Returns.bind_congr (P := fun _ => True) (fun _ _ _ => trivial) fun b _ => ?_
      exact reduceToValue_like hE (h.mono ((call_places hrs).inter mask)) _
  | set op l r => simp only [reduce, reduceTwo_like hE hR (m := .set op) (fun _ _ => rfl) h]
  | logical op l r =>
    simp only [reduce, reduceTwo_like hE hR (m := .logical op) (fun _ _ => rfl) h]
  | compare op l r =>
    simp only [reduce, reduceTwo_like hE hR (m := .compare op) (fun _ _ => rfl) h]
  | arithmetic op l r =>
    simp only [reduce, reduceTwo_like hE hR (m := .arithmetic op) (fun _ _ => rfl) h]
  | compareNode op n v =>
    simp only [reduce, reduceOne_like hE hR (m := (.compareNode op · v)) (fun _ => rfl) h]
  | compareNodes op n v =>
    simp only [reduce, reduceOne_like hE hR (m := (.compareNodes op · v)) (fun _ => rfl) h]
  | negate operand => simp only [reduce, reduceOne_like hE hR (m := .negate) (fun _ => rfl) h]
  | extension name args =>
    simp only [reduce, reduceMany_like hE hR (m := .extension name) (fun _ => rfl) h]
  | template parts =>
    have hm : ∀ es, (Expr.template es).dependencies = ∅ ∪ dependenciesOfAll es := fun es => by
      rw [dependencies]
      cases dependenciesOfAll es
      rfl
    simp only [reduce, reduceMany_like hE hR (m := .template) hm h]
  | reference | positionRange | isLast | value | failure => simp only [reduce, hwhole]

end Expr

/-- At every depth the position and the size do not matter where they are not asked for. -/
theorem engine_unplaced (T : Transformation) (n : Nat) : (engine T n).Unplaced := by
  induction n with
  | zero => exact ⟨fun _ => rfl, fun _ => rfl, fun _ => rfl, fun _ => rfl, fun _ => rfl,
      fun _ _ => rfl, fun _ => rfl, fun _ _ _ _ => rfl⟩
  | succ n ih =>
    have hR := engine_reducesPlaces T n
    exact {
      value := fun h => Expr.evaluate_like ih h
      boolean := fun h => Expr.evaluateBoolean_like ih h
      number := fun h => Expr.evaluateNumber_like ih h
      string := fun h => Expr.evaluateString_like ih h
      nodeSet := fun h => Expr.evaluateNodeSet_like ih hR h
      cursor := fun sort h => Expr.enumerate_like ih h sort
      reduce := fun h => Expr.reduce_like ih hR h
      search := fun name value root c =>
        Key.search_ambient c (fun name value root => ih.search name value root c) name value root }

end PathLanguage
