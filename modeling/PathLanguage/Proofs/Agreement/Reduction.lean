/- Reductions in step: what remains of expressions that are alike is alike, in contexts that agree on
what the mask covers of them. -/
import PathLanguage.Proofs.Agreement.Evaluation

namespace PathLanguage

open Dependencies

variable {T : Transformation} {E : Engine} {e e' : Expr} {c c' : Context} {mask : Dependencies}

/-- What stays fixed for a predicate within a mask is among what the whole asks for within it. -/
theorem Dependencies.fixed_sub (a b d mask : Dependencies) :
    (a ∩ (mask ∩ d)).Sub ((b ∪ (a ∩ d)) ∩ mask) := by
  intro p hp
  simp only [has_inter, has_union, Bool.and_eq_true, Bool.or_eq_true] at hp ⊢
  exact ⟨.inr ⟨hp.1, hp.2.2⟩, hp.2.1⟩

namespace Context.Agrees

variable {d : Dependencies} {names more : List ExpandedName}

theorem leftWithin {e : Dependencies} (h : c.Agrees T ((d ∪ e) ∩ mask) (names ++ more) c') :
    c.Agrees T (d ∩ mask) names c' :=
  h.mono ((sub_union_left _ _).inter _) (List.subset_append_left _ _)

theorem rightWithin {e : Dependencies} (h : c.Agrees T ((d ∪ e) ∩ mask) (names ++ more) c') :
    c.Agrees T (e ∩ mask) more c' :=
  h.mono ((sub_union_right _ _).inter _) (List.subset_append_right _ _)

/-- Contexts that agree on a whole within a mask agree on a predicate of it within the part of the
mask that stays fixed. -/
theorem fixedWithin {e fixed : Dependencies}
    (h : c.Agrees T ((d ∪ (e ∩ fixed)) ∩ mask) (names ++ more) c') :
    c.Agrees T (e ∩ (mask ∩ fixed)) more c' :=
  h.mono (fixed_sub _ _ _ _) (List.subset_append_right _ _)

theorem within {k : Expr} (h : c.Agrees T (e.dependencies ∩ mask) e.variables c')
    (hk : k.AsksWithin e) : c.Agrees T (k.dependencies ∩ mask) k.variables c' :=
  h.mono (hk.dependencies.inter mask) hk.names

end Context.Agrees

/-- Reduced expressions that are alike, both replaced or both not. -/
def ReducedAlike (r r' : Expr × Bool) : Prop := r.1.Alike r'.1 ∧ r.2 = r'.2

namespace Expr

theorem reduceAll_inStep (hE : E.Steady T) {es es' : List Expr} (ha : AllAlike es es')
    (hc : c.Agrees T (dependenciesOfAll es ∩ mask) (variablesOfAll es) c') :
    Action.InStep (fun r r' => AllAlike r.1 r'.1 ∧ r.2 = r'.2) (reduceAll E mask c es)
      (reduceAll E mask c' es') := by
  induction es generalizing es' with
  | nil =>
    cases ha
    exact .pure ⟨.nil, rfl⟩
  | cons e es ih =>
    match es', ha with
    | _ :: _, .cons ha has =>
      refine (hE.reduce mask ha hc.leftWithin).bind ?_
      rintro ⟨r, changed⟩ ⟨r', _⟩ ⟨hr, rfl⟩
      refine (ih has hc.rightWithin).bind ?_
      rintro ⟨rs, more⟩ ⟨rs', _⟩ ⟨hrs, rfl⟩
      exact .pure ⟨.cons hr hrs, rfl⟩

/-- A function to which a node is bound reads the node in focus or no more than its document. -/
theorem bound_reads {f : SystemFunction} {arity : Nat}
    (h : (f.intrinsic arity).intersects (mask ∩ .focusNode) = true)
    (hf : Dependencies.focusNode.contains (f.intrinsic arity) = true) :
    (f.intrinsic arity ∩ mask).contextNode = true ∨
      f.readsDocument = true ∧ (f.intrinsic arity ∩ mask).contextDocument = true := by
  obtain ⟨p, hp, hm⟩ := exists_has_of_intersects h
  rw [has_inter, Bool.and_eq_true] at hm
  have hboth : (f.intrinsic arity ∩ mask).has p = true := by rw [has_inter, hp, hm.1]; rfl
  cases p with
  | contextNode => exact .inl hboth
  | contextDocument =>
    refine .inr ⟨?_, hboth⟩
    cases f with
    | id | unparsedEntityUri => rfl
    | key => cases hf
    | localName | namespaceUri | name | generateId | number | string | stringLength
    | normalizeSpace => cases arity <;> cases hp
    | _ => cases hp
  | bindings | currentNode | position | last | controller => cases hm.2

theorem boundNode_inStep {f : SystemFunction} {arity : Nat} {b b' : Option Node}
    (hb : BoundAlike f b b') {names : List ExpandedName}
    (hc : c.Agrees T ((if b.isSome then f.intrinsic arity \ .focusNode else f.intrinsic arity) ∩ mask)
      names c') :
    Action.InStep (BoundAlike f) (boundNode mask f arity b c) (boundNode mask f arity b' c') := by
  unfold boundNode
  extract_lets own
  cases hb with
  | document hf hn => exact .pure (.document hf hn)
  | same b =>
    cases b with
    | some n => exact .pure (.same _)
    | none =>
      refine .ite (fun h => ?_) fun _ => .pure (.same _)
      rw [Bool.and_eq_true] at h
      rcases bound_reads h.1 h.2 with hn | ⟨hf, hd⟩
      · exact (hc.get_node hn).bind_eq fun n => .pure (.same _)
      · exact (hc.get_document hd).map fun _ _ hn => .document hf hn

theorem reduceToValue_inStep (hE : E.Steady T) (ha : e.Alike e')
    (hc : c.Agrees T (e.dependencies ∩ mask) e.variables c') (changed : Bool) :
    Action.InStep ReducedAlike (reduceToValue E mask c e changed)
      (reduceToValue E mask c' e' changed) := by
  unfold reduceToValue
  rw [← ha.isNodeSetExpr, ← ha.dependencies]
  refine .ite (fun _ => .pure ⟨ha, rfl⟩) fun hm => ?_
  have hm : mask.contains e.dependencies = true := by
    simp only [Bool.or_eq_true, Bool.not_eq_true', not_or, Bool.not_eq_false] at hm
    exact hm.2
  refine (hE.value ⟨ha, hc.mono (sub_inter_of_contains hm) fun _ hv => hv⟩).outcome.bind ?_
  rintro _ _ (hv | f)
  · exact .pure ⟨.value hv, rfl⟩
  · cases f with
    | tooDeep => exact .throw _
    | _ => exact .pure ⟨ha, rfl⟩

theorem reduceOne_inStep (hE : E.Steady T) (hw : E.ReducesWithin) {m m' : Expr → Expr}
    (hm : ∀ {k k'}, k.Alike k' → (m k).Alike (m' k'))
    (hin : ∀ {k}, k.AsksWithin e → (m k).AsksWithin (m e)) (ha : e.Alike e')
    (hc : c.Agrees T (e.dependencies ∩ mask) e.variables c')
    (hc' : c.Agrees T ((m e).dependencies ∩ mask) (m e).variables c') :
    Action.InStep ReducedAlike (reduceOne E mask c m e) (reduceOne E mask c' m' e') := by
  refine (hE.reduce mask ha hc).bind_returns (hw mask e c) ?_
  rintro ⟨r, changed⟩ ⟨r', _⟩ ⟨hr, rfl⟩ hk
  exact reduceToValue_inStep hE (hm hr) (hc'.within (hin hk)) changed

theorem reduceTwo_inStep (hE : E.Steady T) (hw : E.ReducesWithin) {m : Expr → Expr → Expr}
    (hm : ∀ {k k' j j'}, k.Alike k' → j.Alike j' → (m k j).Alike (m k' j'))
    (hd : ∀ k j, (m k j).dependencies = k.dependencies ∪ j.dependencies)
    (hv : ∀ k j, (m k j).variables = k.variables ++ j.variables) {l l' r r' : Expr}
    (hl : l.Alike l') (hr : r.Alike r')
    (hc : c.Agrees T ((m l r).dependencies ∩ mask) (m l r).variables c') :
    Action.InStep ReducedAlike (reduceTwo E mask c m l r) (reduceTwo E mask c' m l' r') := by
  have hc' := hc
  rw [hd, hv] at hc'
  refine (hE.reduce mask hl hc'.leftWithin).bind_returns (hw mask l c) ?_
  rintro ⟨k, changed⟩ ⟨k', _⟩ ⟨hk, rfl⟩ hkl
  refine (hE.reduce mask hr hc'.rightWithin).bind_returns (hw mask r c) ?_
  rintro ⟨j, more⟩ ⟨j', _⟩ ⟨hj, rfl⟩ hjr
  refine reduceToValue_inStep hE (hm hk hj) (hc.within ⟨?_, ?_⟩) _
  · rw [hd, hd]
    exact hkl.dependencies.union hjr.dependencies
  · rw [hv, hv]
    exact append_subset_append hkl.names hjr.names

theorem reduceMany_inStep (hE : E.Steady T) (hw : E.ReducesWithin) {m : List Expr → Expr}
    {es es' : List Expr} (hm : ∀ {ks ks'}, AllAlike ks ks' → (m ks).Alike (m ks'))
    (hin : ∀ {ks}, AskWithin ks es → (m ks).AsksWithin (m es)) (ha : AllAlike es es')
    (hc : c.Agrees T (dependenciesOfAll es ∩ mask) (variablesOfAll es) c')
    (hc' : c.Agrees T ((m es).dependencies ∩ mask) (m es).variables c') :
    Action.InStep ReducedAlike (reduceMany E mask c m es) (reduceMany E mask c' m es') := by
  refine (reduceAll_inStep hE ha hc).bind_returns (reduceAll_within hw es) ?_
  rintro ⟨rs, changed⟩ ⟨rs', _⟩ ⟨hrs, rfl⟩ hk
  exact reduceToValue_inStep hE (hm hrs) (hc'.within (hin hk)) changed

theorem reduce_inStep (hE : E.Steady T) (hw : E.ReducesWithin) (ha : e.Alike e')
    (hc : c.Agrees T (e.dependencies ∩ mask) e.variables c') :
    Action.InStep ReducedAlike (e.reduce E mask c) (e'.reduce E mask c') := by
  unfold reduce
  rw [← ha.dependencies]
  refine .ite (fun _ => .pure ⟨ha, rfl⟩) fun hm => ?_
  extract_lets inner
  rw [Bool.not_eq_true', Bool.not_eq_false] at hm
  -- a node-set of one part of the context, which the mask covers
  have hone (p : Part) (hp : ∀ q, e.dependencies.has q = true → q = p) :
      Action.InStep ReducedAlike
        (do return (.value (.nodeSet (.ofOption (← E.head (← E.cursor e c false)))), true))
        (do return (.value (.nodeSet (.ofOption (← E.head (← E.cursor e' c' false)))), true)) :=
    (hE.cursor false ⟨ha, hc.mono (sub_inter_of_intersects p hp hm) fun _ hv => hv⟩).bind
      fun _ _ hk => (hE.head hk).bind_eq fun n => .pure ⟨.refl _, rfl⟩
  cases ha with
  | root => exact hone .contextDocument fun q hq => by cases q <;> first | rfl | cases hq
  | contextNode => exact hone .contextNode fun q hq => by cases q <;> first | rfl | cases hq
  | parentNode => exact hone .contextNode fun q hq => by cases q <;> first | rfl | cases hq
  | currentNode => exact hone .currentNode fun q hq => by cases q <;> first | rfl | cases hq
  | «attribute» name => exact hone .contextNode fun q hq => by cases q <;> first | rfl | cases hq
  | axis along test origin =>
    cases origin with
    | some n =>
      obtain ⟨p, hp, -⟩ := exists_has_of_intersects hm
      cases p <;> cases hp
    | none =>
      have hn := sub_inter_of_intersects .contextNode
        (fun q hq => by cases q <;> first | rfl | cases hq) hm
      exact (hc.get_node (hn .contextNode rfl)).bind_eq fun n => .pure ⟨.refl _, rfl⟩
  | call f scope hargs hb =>
    have hargs' : c.Agrees T (dependenciesOfAll _ ∩ mask) (variablesOfAll _) c' :=
      hc.mono ((sub_union_right _ _).inter mask) fun _ hv => hv
    refine (reduceAll_inStep hE hargs hargs').bind_returns (reduceAll_within hw _) ?_
    rintro ⟨rs, _⟩ ⟨rs', _⟩ ⟨hrs, rfl⟩ hin
    have hown := hc.mono ((sub_union_left _ _).inter mask) fun _ hv => hv
    rw [← hin.length_eq] at hown
    dsimp only
    rw [← hrs.length_eq]
    refine (boundNode_inStep hb hown).bind_returns (boundNode_isSome f _ _) fun b b' hb hsome => ?_
    exact reduceToValue_inStep hE (.call f scope hrs hb) (hc.within (call_within hin hsome)) true
  | path along test hs hps =>
    refine (hE.reduce mask hs hc.leftWithin).bind ?_
    rintro ⟨start, _⟩ ⟨start', _⟩ ⟨hs, rfl⟩
    dsimp only
    rw [← hs.isEmptyNodeSet]
    refine .ite (fun _ => .pure ⟨.refl _, rfl⟩) fun _ => ?_
    exact (reduceAll_inStep hE hps hc.fixedWithin).bind fun _ _ hr =>
      .pure ⟨.path along test hs hr.1, rfl⟩
  | filter hb hp =>
    refine (hE.reduce mask hb hc.leftWithin).bind ?_
    rintro ⟨base, _⟩ ⟨base', _⟩ ⟨hb, rfl⟩
    dsimp only
    rw [← hb.isEmptyNodeSet]
    refine .ite (fun _ => .pure ⟨hb, rfl⟩) fun _ => ?_
    exact (hE.reduce inner hp hc.fixedWithin).bind fun _ _ hr => .pure ⟨.filter hb hr.1, rfl⟩
  | distinct hb => exact (hE.reduce mask hb hc).bind fun _ _ hr => .pure ⟨.distinct hr.1, rfl⟩
  | distinctBy hb hk =>
    exact (hE.reduce mask hb hc.leftWithin).bind fun _ _ hb =>
      (hE.reduce inner hk hc.fixedWithin).bind fun _ _ hk => .pure ⟨.distinctBy hb.1 hk.1, rfl⟩
  | sorted rules hb hks =>
    exact (hE.reduce mask hb hc.leftWithin).bind fun _ _ hb =>
      (reduceAll_inStep hE hks hc.fixedWithin).bind fun _ _ hks =>
        .pure ⟨.sorted rules hb.1 hks.1, rfl⟩
  | set op hl hr => exact reduceTwo_inStep hE hw (.set op) (fun _ _ => rfl) (fun _ _ => rfl) hl hr hc
  | logical op hl hr =>
    exact reduceTwo_inStep hE hw (.logical op) (fun _ _ => rfl) (fun _ _ => rfl) hl hr hc
  | compare op hl hr =>
    exact reduceTwo_inStep hE hw (.compare op) (fun _ _ => rfl) (fun _ _ => rfl) hl hr hc
  | arithmetic op hl hr =>
    exact reduceTwo_inStep hE hw (.arithmetic op) (fun _ _ => rfl) (fun _ _ => rfl) hl hr hc
  | compareNode op hn hv =>
    exact reduceOne_inStep hE hw (.compareNode op · hv) (fun h => ⟨h.dependencies, h.names⟩)
      hn hc hc
  | compareNodes op hn hv =>
    exact reduceOne_inStep hE hw (.compareNodes op · hv) (fun h => ⟨h.dependencies, h.names⟩)
      hn hc hc
  | negate he =>
    exact reduceOne_inStep hE hw .negate (fun h => ⟨h.dependencies, h.names⟩) he hc hc
  | extension name hargs =>
    exact reduceMany_inStep hE hw (.extension name)
      (fun h => ⟨(Sub.refl _).union h.dependencies, h.names⟩) hargs
      (hc.mono ((sub_union_right _ _).inter mask) fun _ hv => hv) hc
  | template hes =>
    exact reduceMany_inStep hE hw .template (fun h => ⟨h.dependencies, h.names⟩) hes hc hc
  | reference b => exact reduceToValue_inStep hE (.reference b) hc false
  | positionRange least most => exact reduceToValue_inStep hE (.positionRange least most) hc false
  | isLast wanted => exact reduceToValue_inStep hE (.isLast wanted) hc false
  | value hv => exact reduceToValue_inStep hE (.value hv) hc false
  | failure f => exact reduceToValue_inStep hE (.failure f) hc false

end Expr

end PathLanguage
