/- Evaluations in step: expressions that are alike, in contexts that agree on what these ask for, come
to values that are alike or to the same fault. -/
import PathLanguage.Evaluation
import PathLanguage.Proofs.Agreement.Function

namespace PathLanguage

/-- Calls of a host function that agree on the focus it may read. -/
structure HostCall.Alike (k k' : HostCall) : Prop where
  node : k.context.node? = k'.context.node?
  position : k.context.position = k'.context.position
  last : k.context.last = k'.context.last
  number : k.number = k'.number
  asString : ∀ {v v'}, v.Alike v' → Action.InStep Eq (k.asString v) (k'.asString v')
  asNumber : ∀ {v v'}, v.Alike v' → Action.InStep Eq (k.asNumber v) (k'.asNumber v')
  asBoolean : ∀ {v v'}, v.Alike v' → Action.InStep Eq (k.asBoolean v) (k'.asBoolean v')
  firstNode : ∀ {ns ns'}, ns.Alike ns' → Action.InStep Eq (k.firstNode ns) (k'.firstNode ns')

/-- A host function that reads nothing but its arguments and the focus of its caller. -/
def HostFunction.ReadsFocus (f : HostFunction) : Prop :=
  ∀ {k k' : HostCall} {vs vs' : List Value}, k.Alike k' → List.Forall₂ Value.Alike vs vs' →
    Action.InStep Value.Alike (f k vs) (f k' vs')

/-- No host function reads more of its caller than the focus. -/
def Transformation.HostsReadFocus (T : Transformation) : Prop :=
  ∀ o ∈ T.functions.overloads, o.run.ReadsFocus

variable {T : Transformation} {E : Engine} {e e' : Expr} {c c' : Context}

theorem globalValue_inStep (hE : E.Steady T) (name : ExpandedName) :
    Action.InStep Value.Alike (globalValue T E name) (globalValue T E name) := by
  refine Action.InStep.get.bind fun s s' hs => ?_
  have hslot := hs.slot? name
  generalize s.slot? name = slot, s'.slot? name = slot' at hslot ⊢
  cases hslot with
  | none => exact .throw _
  | some hslot =>
    cases hslot with
    | evaluated hv => exact .pure hv
    | evaluating => exact .throw _
    | pending hd =>
      refine Action.InStep.bind_eq (.modify fun t t' ht => ht.setSlot name .evaluating) fun _ => ?_
      refine (hE.value (hd.ask T T.globalContext)).outcome.bind ?_
      rintro _ _ (hv | f)
      · exact Action.InStep.bind_eq (.modify fun t t' ht => ht.setSlot name (.evaluated hv))
          fun _ => .pure hv
      · exact Action.InStep.bind_eq (.modify fun t t' ht => ht.setSlot name (.pending hd))
          fun _ => .throw f

theorem Context.valueOf_inStep (hE : E.Steady T) {b : Binding} {d : Dependencies}
    (hc : c.Agrees T d [b.name] c') :
    Action.InStep Value.Alike (c.valueOf T E b) (c'.valueOf T E b) := by
  unfold Context.valueOf
  rw [hc.locals b.name (.inl (List.mem_singleton_self _))]
  split
  · exact .pure (.refl _)
  · exact .ite (fun _ => globalValue_inStep hE b.name) fun _ => .fail _

namespace Expr

open Dependencies

theorem values_inStep (hE : E.Steady T) {es es' : List Expr} (h : AllAskAlike T es es' c c') :
    Action.InStep (List.Forall₂ Value.Alike) (values E c es) (values E c' es') := by
  induction es generalizing es' with
  | nil =>
    cases h.alike
    exact .pure .nil
  | cons e es ih =>
    match es', h.alike with
    | _ :: _, .cons .. =>
      exact (hE.value h.head).bind fun _ _ hv => (ih h.tail).map fun _ _ hvs => .cons hv hvs

theorem callHost_inStep (hT : T.HostsReadFocus) (hE : E.Steady T) (name : ExpandedName)
    {vs vs' : List Value} (hvs : List.Forall₂ Value.Alike vs vs') {d : Dependencies}
    {names : List ExpandedName} (hc : c.Agrees T d names c') (hn : d.contextNode = true)
    (hp : d.position = true) (hl : d.last = true) :
    Action.InStep Value.Alike (callHost T E name vs c) (callHost T E name vs' c') := by
  unfold callHost
  rw [← hvs.length_eq]
  have hmem : Returns (.ofExcept ((T.functions.resolve name vs.length).mapError .unresolvedFunction))
      fun o => o ∈ T.functions.overloads := by
    refine .ofExcept fun o ho => ?_
    cases hr : T.functions.resolve name vs.length with
    | ok p =>
      rw [hr] at ho
      obtain rfl : p = o := Except.ok.inj ho
      exact FunctionLibrary.resolve_mem hr
    | error f => rw [hr] at ho; cases ho
  refine (Action.InStep.ofExcept _).bind_returns hmem fun o _ he ho => ?_
  obtain rfl := he
  refine (Action.InStep.update fun s s' hs => hs.countCall o.serial).bind_eq fun number => ?_
  exact hT o ho ⟨hc.node hn, hc.position hp, hc.last hl, rfl, Value.asString_inStep hE,
    Value.asNumber_inStep hE, Value.asBoolean_inStep hE, NodeSet.first_inStep hE⟩ hvs

theorem nodeSetOf_inStep {v v' : Value} (h : v.Alike v') :
    Action.InStep NodeSet.Alike (nodeSetOf v) (nodeSetOf v') := by
  cases h with
  | nodeSet h => exact .pure h
  | string | number | boolean | object => exact .fail _

theorem evaluate_inStep (hT : T.HostsReadFocus) (hE : E.Steady T) (h : AskAlike T e e' c c') :
    Action.InStep Value.Alike (e.evaluate T E c) (e'.evaluate T E c') := by
  have hboolean := Function.Call.valueOf_inStep (hE.boolean h) .boolean
  have hnumber := Function.Call.valueOf_inStep (hE.number h) .number
  have hstring := Function.Call.valueOf_inStep (hE.string h) .string
  have hnodes : Action.InStep Value.Alike (do return .nodeSet (← E.nodeSet e c))
      (do return .nodeSet (← E.nodeSet e' c')) :=
    (hE.nodeSet h).map fun _ _ hn => .nodeSet hn
  obtain ⟨ha, hc⟩ := h
  cases ha with
  | value hv => exact .pure hv
  | logical | compare | compareNode | compareNodes | positionRange | isLast => exact hboolean
  | arithmetic | negate => exact hnumber
  | template => exact hstring
  | call f scope hargs hb =>
    exact Function.Call.run_inStep hE ⟨rfl, ⟨hargs, hc.mono (sub_union_right _ _) fun _ hv => hv⟩,
      hb, rfl, hc.mono (sub_union_left _ _) (List.nil_subset _)⟩
  | extension name hargs =>
    have hargs : AllAskAlike T _ _ c c' := ⟨hargs, hc.mono (sub_union_right _ _) fun _ hv => hv⟩
    exact (values_inStep hE hargs).bind fun _ _ hvs =>
      callHost_inStep hT hE name hvs hc rfl rfl rfl
  | reference b =>
    rw [Expr.variables] at hc
    simp only [evaluate]
    cases hb : b.constant with
    | some k => exact .pure (Value.Alike.refl _)
    | none =>
      rw [hb] at hc
      exact Context.valueOf_inStep hE hc
  | failure f => exact .throw f
  | _ => exact hnodes

theorem evaluateBoolean_inStep (hE : E.Steady T) (h : AskAlike T e e' c c') :
    Action.InStep Eq (e.evaluateBoolean T E c) (e'.evaluateBoolean T E c') := by
  have hhead : Action.InStep Eq (do return (← E.head (← E.cursor e c false)).isSome)
      (do return (← E.head (← E.cursor e' c' false)).isSome) :=
    (hE.cursor false h).bind fun _ _ hk => (hE.head hk).map_eq
  have hvalue : Action.InStep Eq (do (← E.value e c).asBoolean T E)
      (do (← E.value e' c').asBoolean T E) :=
    (hE.value h).bind fun _ _ hv => Value.asBoolean_inStep hE hv
  obtain ⟨ha, hc⟩ := h
  cases ha with
  | logical op hl hr =>
    have hl := hE.boolean ⟨hl, hc.left⟩
    have hr := hE.boolean ⟨hr, hc.right⟩
    cases op with
    | and => exact hl.bind_eq fun _ => .ite (fun _ => hr) fun _ => .pure rfl
    | or => exact hl.bind_eq fun _ => .ite (fun _ => .pure rfl) fun _ => hr
  | compare op hl hr =>
    exact (hE.value ⟨hl, hc.left⟩).bind fun _ _ ha => (hE.value ⟨hr, hc.right⟩).bind fun _ _ hb =>
      Value.compare_inStep hE ha op hb
  | compareNode op hn hv =>
    refine (hE.nodeSet ⟨hn, hc⟩).bind fun _ _ hn => (NodeSet.first_inStep hE hn).bind_eq fun n => ?_
    cases n with
    | none => exact .pure rfl
    | some n => exact Value.compare_inStep hE (.refl _) op hv
  | compareNodes op hn hv =>
    exact (hE.nodeSet ⟨hn, hc⟩).bind fun _ _ hn => Value.compare_inStep hE (.nodeSet hn) op hv
  | positionRange least most =>
    rw [evaluateBoolean, evaluateBoolean, hc.position rfl]
    exact .pure rfl
  | isLast wanted =>
    rw [evaluateBoolean, evaluateBoolean, hc.position rfl, hc.last rfl]
    exact .pure rfl
  | value | arithmetic | negate | call | extension | reference | template | failure => exact hvalue
  | _ => exact hhead

theorem evaluateNumber_inStep (hE : E.Steady T) (h : AskAlike T e e' c c') :
    Action.InStep Eq (e.evaluateNumber T E c) (e'.evaluateNumber T E c') := by
  have hvalue : Action.InStep Eq (do (← E.value e c).asNumber T E)
      (do (← E.value e' c').asNumber T E) :=
    (hE.value h).bind fun _ _ hv => Value.asNumber_inStep hE hv
  obtain ⟨ha, hc⟩ := h
  cases ha with
  | arithmetic op hl hr =>
    exact (hE.number ⟨hl, hc.left⟩).bind_eq fun _ => (hE.number ⟨hr, hc.right⟩).map_eq
  | negate he => exact (hE.number ⟨he, hc⟩).map_eq
  | _ => exact hvalue

theorem evaluateString_inStep (hE : E.Steady T) (h : AskAlike T e e' c c') :
    Action.InStep Eq (e.evaluateString T E c) (e'.evaluateString T E c') := by
  have hhead : Action.InStep Eq
      (do return ((← E.head (← E.cursor e c true)).map Node.stringValue).getD "")
      (do return ((← E.head (← E.cursor e' c' true)).map Node.stringValue).getD "") :=
    (hE.cursor true h).bind fun _ _ hk => (hE.head hk).map_eq
  have hvalue : Action.InStep Eq (do (← E.value e c).asString T E)
      (do (← E.value e' c').asString T E) :=
    (hE.value h).bind fun _ _ hv => Value.asString_inStep hE hv
  obtain ⟨ha, hc⟩ := h
  cases ha with
  | template hes => exact Function.Call.joinedArgs_inStep hE ⟨hes, hc⟩
  | value | logical | compare | compareNode | compareNodes | arithmetic | negate | call | extension
  | reference | positionRange | isLast | failure => exact hvalue
  | _ => exact hhead

/-- What remains of a node-set expression is kept as a definition, or read out. -/
theorem ofReduced_inStep (hE : E.Steady T) (h : AskAlike T e e' c c') :
    Action.InStep NodeSet.Alike
      (if e.dependencies.isEmpty then NodeSet.ofDefinition e
        else do return .extent (← E.extent (← E.cursor e c false)))
      (if e'.dependencies.isEmpty then NodeSet.ofDefinition e'
        else do return .extent (← E.extent (← E.cursor e' c' false))) := by
  rw [← h.alike.dependencies]
  refine .ite (fun hd => NodeSet.ofDefinition_inStep h.alike hd) fun _ => ?_
  exact (hE.cursor false h).bind fun _ _ hk => (hE.extent hk).bind_eq fun e => .pure (.extent e)

theorem evaluateNodeSet_inStep (hE : E.Steady T) (hw : E.ReducesWithin) (h : AskAlike T e e' c c') :
    Action.InStep NodeSet.Alike (e.evaluateNodeSet E c) (e'.evaluateNodeSet E c') := by
  obtain ⟨ha, hc⟩ := h
  have hreduce := hE.reduce .all ha (hc.mono (inter_sub_left _ _) fun _ hv => hv)
  by_cases hvalue : ∃ v, e = .value v
  · obtain ⟨v, rfl⟩ := hvalue
    cases ha with
    | value hv => exact nodeSetOf_inStep hv
  · have hvalue' : ¬∃ v, e' = .value v := by
      rintro ⟨v, rfl⟩
      cases ha with
      | value hv => exact hvalue ⟨_, rfl⟩
    rw [evaluateNodeSet.eq_2 E e c fun v hv => hvalue ⟨v, hv⟩,
      evaluateNodeSet.eq_2 E e' c' fun v hv => hvalue' ⟨v, hv⟩, ← ha.isNodeSetExpr]
    refine .ite (fun _ => (hE.value ⟨ha, hc⟩).bind fun _ _ hv => nodeSetOf_inStep hv) fun _ => ?_
    refine hreduce.bind_returns (hw .all e c) ?_
    rintro ⟨r, changed⟩ ⟨r', _⟩ ⟨hr, -⟩ hin
    have hrest := ofReduced_inStep hE ⟨hr, hc.mono hin.dependencies hin.names⟩
    cases hr with
    | value hv => exact nodeSetOf_inStep hv
    | _ => exact hrest

theorem pathCursor_inStep (hE : E.Steady T) {start start' : Expr} {plan plan' : StepPlan}
    (h : AskAlike T start start' c c') (hp : plan.Alike T plan' c c') :
    Action.InStep (Cursor.Alike T) (pathCursor E start plan c) (pathCursor E start' plan' c') := by
  have hp' : plan.Alike T plan' c.ambient c'.ambient := ⟨hp.axis, hp.test, hp.predicates.ambient⟩
  refine (hE.cursor true h).bind fun k k' hk => ?_
  rw [← hk.flags, ← hp.axis, ← h.alike.isSingleton]
  refine .ite (fun _ => .pure (.steps true hk hp' .refl_empty)) fun _ => ?_
  exact (hE.extent (.steps false hk hp' .refl_empty)).bind_eq fun e =>
    (Action.InStep.ofExcept e.sort).bind_eq fun e => .pure (.refl_ofExtent e)

theorem cursorFrom_inStep (hE : E.Steady T) (sort : Bool) {k k' : Cursor} (h : k.Alike T k') :
    Action.InStep (Cursor.Alike T) (cursorFrom E sort k) (cursorFrom E sort k') :=
  .ite (fun _ => hE.sortedCursor h) fun _ => .pure h

theorem enumerate_inStep (hE : E.Steady T) (h : AskAlike T e e' c c') (sort : Bool) :
    Action.InStep (Cursor.Alike T) (e.enumerate T E c sort) (e'.enumerate T E c' sort) := by
  have hnodes : Action.InStep (Cursor.Alike T)
      (do (← E.nodeSet e c).enumerateSorted T E sort)
      (do (← E.nodeSet e' c').enumerateSorted T E sort) :=
    (hE.nodeSet h).bind fun _ _ hn => NodeSet.enumerateSorted_inStep hE hn sort
  have hone {a b : Action (Option Node)} (h : Action.InStep Eq a b) : Action.InStep (Cursor.Alike T)
      (do return .ofOption (← a)) (do return .ofOption (← b)) :=
    h.map fun _ _ he => he ▸ .refl_ofOption _
  obtain ⟨ha, hc⟩ := h
  cases ha with
  | root =>
    exact (hc.get_document rfl).bind fun n n' hn =>
      .pure (by rw [Node.top, Node.top, hn]; exact .refl_ofOption _)
  | contextNode => exact (hc.get_node rfl).bind_eq fun n => .pure (.refl_ofOption _)
  | parentNode => exact (hc.get_node rfl).bind_eq fun n => .pure (.refl_ofOption _)
  | currentNode => exact (hc.get_current rfl).bind_eq fun n => .pure (.refl_ofOption _)
  | «attribute» name => exact (hc.get_node rfl).bind_eq fun n => .pure (.refl_ofOption _)
  | axis along test origin =>
    cases origin with
    | some n => exact cursorFrom_inStep hE sort (.listed ..)
    | none =>
      exact (hc.get_node rfl).bind_eq fun n => cursorFrom_inStep hE sort (.listed ..)
  | path along test hs hps =>
    exact pathCursor_inStep hE ⟨hs, hc.left⟩ ⟨rfl, rfl, hps, hc.right⟩
  | filter hb hp =>
    have hsort := hp.isPositional
    simp only [enumerate]
    rw [← hsort]
    exact (hE.cursor _ ⟨hb, hc.left⟩).bind fun _ _ hk =>
      .pure (Cursor.select_alike hk ⟨hp, hc.right⟩ false)
  | set op hl hr =>
    exact (hE.cursor true ⟨hl, hc.left⟩).bind fun _ _ hk =>
      (hE.cursor true ⟨hr, hc.right⟩).bind fun _ _ hk' => Cursor.startMerge_inStep hE op hk hk'
  | distinct hb =>
    exact (hE.cursor true ⟨hb, hc⟩).bind fun _ _ hk => Cursor.startDistinct_inStep hE hk .none
  | distinctBy hb hk =>
    exact (hE.cursor true ⟨hb, hc.left⟩).bind fun _ _ h =>
      Cursor.startDistinct_inStep hE h (.some ⟨hk, hc.right⟩)
  | sorted rules hb hks =>
    simp only [enumerate]
    refine (hE.cursor true ⟨hb, hc.left⟩).bind fun _ _ hk => (hE.drain hk).bind_eq fun nodes => ?_
    refine (Sorting.sortNodes_inStep hE rules hks hc.right nodes).bind_eq fun nodes => ?_
    exact .ite (fun _ => (Action.InStep.ofExcept _).bind_eq fun e => .pure (.refl_ofExtent e))
      fun _ => .pure (.listed ..)
  | value hv =>
    cases hv with
    | nodeSet hn => exact NodeSet.enumerateSorted_inStep hE hn sort
    | _ => exact hnodes
  | _ => exact hnodes

end Expr

end PathLanguage
