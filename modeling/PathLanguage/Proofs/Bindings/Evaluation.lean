/- Evaluation is tidy by every route and to every depth: a variable that is computed on the way is
marked while its definition is evaluated, and the mark goes with the outcome. -/
import PathLanguage.Proofs.Bindings.Function
import PathLanguage.Proofs.Safety.Expr

namespace PathLanguage

variable {T : Transformation} {E : Engine}

section globals

variable {name : ExpandedName} {s t : Session}

/-- A variable without a definition is unknown. -/
theorem globalValue_undefined (hs : s.slot? name = none) :
    (globalValue T E name).attempt.run s = (.error (.undefinedVariable name), s) := by
  rw [globalValue, Action.run_get]
  simp only [hs]
  rfl

/-- A computed variable keeps its value; no engine is asked for it. -/
theorem globalValue_evaluated {v : Value} (hs : s.slot? name = some (.evaluated v)) :
    (globalValue T E name).attempt.run s = (.ok v, s) := by
  rw [globalValue, Action.run_get]
  simp only [hs]
  rfl

/-- A variable that is being computed refers to itself; no engine is asked for it. -/
theorem globalValue_evaluating (hs : s.slot? name = some .evaluating) :
    (globalValue T E name).attempt.run s = (.error (.circularVariable name), s) := by
  rw [globalValue, Action.run_get]
  simp only [hs]
  rfl

/-- The definition of a pending variable is evaluated under the mark. -/
theorem globalValue_pending {d : Expr} (hs : s.slot? name = some (.pending d)) :
    (globalValue T E name).attempt.run s =
      (guarded name d (E.value d T.globalContext)).attempt.run s := by
  rw [globalValue, Action.run_get]
  simp only [hs]
  rfl

/-- A computation that leads from a marked variable to its outcome settles it. -/
theorem Session.Settles.setSlot {d : Expr} (hs : s.slot? name = some (.pending d))
    (h : (s.setSlot name .evaluating).Settles t) {slot : Slot}
    (hslot : Slot.Settles (some (.pending d)) (some slot)) : s.Settles (t.setSlot name slot) := by
  intro name'
  by_cases hn : name' = name
  · subst hn
    rw [slot?_setSlot_self, hs]
    exact hslot
  · have h' := h name'
    rw [slot?_setSlot_ne s hn] at h'
    rw [slot?_setSlot_ne t hn]
    exact h'

/-- An evaluation of the definition of a pending variable that succeeds leaves its value, one that
fails leaves the definition. -/
theorem guarded_settles {d : Expr} (hs : s.slot? name = some (.pending d)) {a : Action Value}
    (ha : a.Tidy) : s.Settles ((guarded name d a).attempt.run s).2 := by
  have h := ha (s.setSlot name .evaluating)
  rw [guarded_run]
  generalize a.attempt.run (s.setSlot name .evaluating) = result at h
  obtain ⟨r, t⟩ := result
  cases r with
  | ok v => exact h.setSlot hs (.computed d v)
  | error f => exact h.setSlot hs (.same _)

theorem guarded_ok {d : Expr} {a : Action Value} {v : Value}
    (h : (guarded name d a).attempt.run s = (.ok v, t)) :
    t.slot? name = some (.evaluated v) := by
  rw [guarded_run] at h
  generalize a.attempt.run (s.setSlot name .evaluating) = result at h
  obtain ⟨r, u⟩ := result
  cases r with
  | ok w =>
    cases h
    exact Session.slot?_setSlot_self u name _
  | error f => cases h

theorem guarded_error {d : Expr} {a : Action Value} {f : Fault}
    (h : (guarded name d a).attempt.run s = (.error f, t)) :
    t.slot? name = some (.pending d) := by
  rw [guarded_run] at h
  generalize a.attempt.run (s.setSlot name .evaluating) = result at h
  obtain ⟨r, u⟩ := result
  cases r with
  | ok w => cases h
  | error e =>
    cases h
    exact Session.slot?_setSlot_self u name _

theorem globalValue_tidy (hE : E.Tidy) (name : ExpandedName) : (globalValue T E name).Tidy := by
  intro s
  cases hs : s.slot? name with
  | none =>
    rw [globalValue_undefined hs]
    exact .refl s
  | some slot =>
    cases slot with
    | pending d =>
      rw [globalValue_pending hs]
      exact guarded_settles hs (hE.value d _)
    | evaluating =>
      rw [globalValue_evaluating hs]
      exact .refl s
    | evaluated v =>
      rw [globalValue_evaluated hs]
      exact .refl s

end globals

theorem Context.valueOf_tidy (hE : E.Tidy) (c : Context) (b : Binding) :
    (c.valueOf T E b).Tidy := by
  unfold Context.valueOf
  split
  · exact .pure _
  · exact .ite (globalValue_tidy hE b.name) (.fail _)

namespace Expr

theorem reduceAll_tidy (hE : E.Tidy) (mask : Dependencies) (context : Context)
    (es : List Expr) : (reduceAll E mask context es).Tidy := by
  induction es with
  | nil => exact .pure _
  | cons e rest ih => exact (hE.reduce mask e context).bind fun r => ih.map _

theorem boundNode_tidy (mask : Dependencies) (function : SystemFunction) (arity : Nat)
    (bound : Option Node) (context : Context) :
    (boundNode mask function arity bound context).Tidy := by
  unfold boundNode
  extract_lets own
  split
  · exact .pure _
  · exact .ite (context.node_tidy.map _) (.pure _)

theorem reduceToValue_tidy (hE : E.Tidy) (mask : Dependencies) (context : Context)
    (rebuilt : Expr) (changed : Bool) : (reduceToValue E mask context rebuilt changed).Tidy := by
  apply Action.Tidy.ite (.pure _)
  apply (hE.value rebuilt context).outcome.bind
  intro r
  split
  · exact .pure _
  · exact .throw _
  · exact .pure _

theorem reduceTwo_tidy (hE : E.Tidy) (mask : Dependencies) (context : Context)
    (make : Expr → Expr → Expr) (l r : Expr) : (reduceTwo E mask context make l r).Tidy := by
  apply (hE.reduce mask l context).bind
  intro l
  apply (hE.reduce mask r context).bind
  intro r
  exact reduceToValue_tidy hE mask context _ _

theorem reduceOne_tidy (hE : E.Tidy) (mask : Dependencies) (context : Context)
    (make : Expr → Expr) (e : Expr) : (reduceOne E mask context make e).Tidy :=
  (hE.reduce mask e context).bind fun _ => reduceToValue_tidy hE mask context _ _

theorem reduceMany_tidy (hE : E.Tidy) (mask : Dependencies) (context : Context)
    (make : List Expr → Expr) (es : List Expr) : (reduceMany E mask context make es).Tidy :=
  (reduceAll_tidy hE mask context es).bind fun _ => reduceToValue_tidy hE mask context _ _

theorem reduce_tidy (hE : E.Tidy) (mask : Dependencies) (e : Expr) (context : Context) :
    (e.reduce E mask context).Tidy := by
  apply Action.Tidy.ite (.pure _)
  extract_lets inner
  cases e with
  | root | contextNode | parentNode | currentNode | «attribute» name =>
    exact (hE.cursor _ _ _).bind fun c => (hE.head c).map _
  | axis along test origin => exact context.node_tidy.map _
  | path start along test predicates =>
    apply (hE.reduce mask start context).bind
    intro start
    exact .ite (.pure _) ((reduceAll_tidy hE inner context predicates).map _)
  | filter base predicate =>
    apply (hE.reduce mask base context).bind
    intro base
    exact .ite (.pure _) ((hE.reduce inner predicate context).map _)
  | distinct base => exact (hE.reduce mask base context).map _
  | distinctBy base key =>
    exact (hE.reduce mask base context).bind fun base => (hE.reduce inner key context).map _
  | sorted base keys rules =>
    exact (hE.reduce mask base context).bind fun base => (reduceAll_tidy hE _ context keys).map _
  | call function args bound scope =>
    apply (reduceAll_tidy hE mask context args).bind
    intro args
    apply (boundNode_tidy mask function _ bound context).bind
    intro bound
    exact reduceToValue_tidy hE mask context _ _
  | set | logical | compare | arithmetic => exact reduceTwo_tidy hE mask context _ _ _
  | compareNode | compareNodes | negate => exact reduceOne_tidy hE mask context _ _
  | extension | template => exact reduceMany_tidy hE mask context _ _
  | reference | positionRange | isLast | value | failure =>
    exact reduceToValue_tidy hE mask context _ _

theorem values_tidy (hE : E.Tidy) (context : Context) (es : List Expr) :
    (values E context es).Tidy := by
  induction es with
  | nil => exact .pure _
  | cons e rest ih => exact (hE.value e context).bind fun v => ih.map _

theorem callHost_tidy (hosts : T.functions.Tidy) (hE : E.Tidy) (name : ExpandedName)
    (args : List Value) (context : Context) : (callHost T E name args context).Tidy := by
  rw [callHost]
  cases ho : T.functions.resolve name args.length with
  | error f => exact .throw_bind _ _
  | ok o =>
    have hrun (number : Nat) : (o.run
        { context, number
          asString := Value.asString T E
          asNumber := Value.asNumber T E
          asBoolean := Value.asBoolean T E
          firstNode := NodeSet.first T E }
        args).Tidy := by
      apply hosts o (FunctionLibrary.resolve_mem ho)
      exact ⟨Value.asString_tidy hE, Value.asNumber_tidy hE, Value.asBoolean_tidy hE,
        NodeSet.first_tidy hE⟩
    have hcount : (Action.update (·.countCall o.serial)).Tidy := .update fun _ => rfl
    exact hcount.bind hrun

theorem evaluate_tidy (hosts : T.functions.Tidy) (hE : E.Tidy) (e : Expr) (context : Context) :
    (e.evaluate T E context).Tidy := by
  cases e with
  | value v => exact .pure v
  | logical | compare | compareNode | compareNodes | positionRange | isLast =>
    exact (hE.boolean _ context).map _
  | arithmetic | negate => exact (hE.number _ context).map _
  | call function args bound scope => exact Function.Call.run_tidy hE _
  | extension name args =>
    exact (values_tidy hE context args).bind fun vs => callHost_tidy hosts hE name vs context
  | reference b =>
    simp only [evaluate]
    cases b.constant with
    | some k => exact .pure _
    | none => exact context.valueOf_tidy hE b
  | template parts => exact (hE.string _ context).map _
  | failure f => exact .throw f
  | _ => exact (hE.nodeSet _ context).map _

theorem evaluateBoolean_tidy (hE : E.Tidy) (e : Expr) (context : Context) :
    (e.evaluateBoolean T E context).Tidy := by
  unfold evaluateBoolean
  split
  · exact (hE.boolean _ context).bind fun l => .ite (hE.boolean _ context) (.pure _)
  · exact (hE.boolean _ context).bind fun l => .ite (.pure _) (hE.boolean _ context)
  · apply (hE.value _ context).bind
    intro a
    exact (hE.value _ context).bind fun b => Value.compare_tidy hE a _ b
  · apply (hE.nodeSet _ context).bind
    intro ns
    apply (NodeSet.first_tidy hE ns).bind
    intro n
    split
    · exact Value.compare_tidy hE _ _ _
    · exact .pure _
  · exact (hE.nodeSet _ context).bind fun ns => Value.compare_tidy hE _ _ _
  · exact .pure _
  · exact .pure _
  · apply Action.Tidy.ite
    · exact (hE.cursor _ context false).bind fun c => (hE.head c).map _
    · exact (hE.value _ context).bind (Value.asBoolean_tidy hE)

theorem evaluateNumber_tidy (hE : E.Tidy) (e : Expr) (context : Context) :
    (e.evaluateNumber T E context).Tidy := by
  unfold evaluateNumber
  split
  · exact (hE.number _ context).bind fun l => (hE.number _ context).map _
  · exact (hE.number _ context).map _
  · exact (hE.value _ context).bind (Value.asNumber_tidy hE)

theorem evaluateString_tidy (hE : E.Tidy) (e : Expr) (context : Context) :
    (e.evaluateString T E context).Tidy := by
  unfold evaluateString
  split
  · exact Function.Call.joinedArgs_tidy hE context _
  · apply Action.Tidy.ite
    · exact (hE.cursor _ context true).bind fun c => (hE.head c).map _
    · exact (hE.value _ context).bind (Value.asString_tidy hE)

theorem nodeSetOf_tidy (v : Value) : (nodeSetOf v).Tidy := by
  cases v with
  | nodeSet ns => exact .pure ns
  | _ => exact .fail _

theorem evaluateNodeSet_tidy (hE : E.Tidy) (e : Expr) (context : Context) :
    (e.evaluateNodeSet E context).Tidy := by
  unfold evaluateNodeSet
  split
  · exact nodeSetOf_tidy _
  apply Action.Tidy.ite
  · exact (hE.value e context).bind nodeSetOf_tidy
  apply (hE.reduce .all e context).bind
  intro r
  dsimp only
  split
  · exact nodeSetOf_tidy _
  apply Action.Tidy.ite (NodeSet.ofDefinition_tidy _)
  exact (hE.cursor _ context false).bind fun c => (hE.extent c).map _

theorem pathCursor_tidy (hE : E.Tidy) (start : Expr) (plan : StepPlan) (context : Context) :
    (pathCursor E start plan context).Tidy := by
  apply (hE.cursor start context true).bind
  intro starts
  extract_lets ordered
  apply Action.Tidy.ite (.pure _)
  exact (hE.extent _).bind fun e => (Action.Tidy.ofExcept e.sort).map _

theorem cursorFrom_tidy (hE : E.Tidy) (sort : Bool) (c : Cursor) : (cursorFrom E sort c).Tidy :=
  .ite (hE.sortedCursor c) (.pure c)

theorem enumerate_tidy (hE : E.Tidy) (e : Expr) (context : Context) (sort : Bool) :
    (e.enumerate T E context sort).Tidy := by
  have hother (e : Expr) : (do (← E.nodeSet e context).enumerateSorted T E sort).Tidy :=
    (hE.nodeSet e context).bind fun ns => NodeSet.enumerateSorted_tidy hE ns sort
  cases e with
  | root | contextNode | parentNode | «attribute» name => exact context.node_tidy.map _
  | currentNode => exact context.current_tidy.map _
  | axis along test origin =>
    cases origin with
    | some n => exact cursorFrom_tidy hE sort _
    | none => exact context.node_tidy.bind fun n => cursorFrom_tidy hE sort _
  | path start along test predicates => exact pathCursor_tidy hE start _ context
  | filter base predicate => exact (hE.cursor base context _).map _
  | set op l r =>
    apply (hE.cursor l context true).bind
    intro left
    exact (hE.cursor r context true).bind (Cursor.startMerge_tidy hE op left)
  | distinct base =>
    exact (hE.cursor base context true).bind fun c => Cursor.startDistinct_tidy hE c none context
  | distinctBy base key =>
    exact (hE.cursor base context true).bind fun c => Cursor.startDistinct_tidy hE c _ context
  | sorted base keys rules =>
    apply (hE.cursor base context true).bind
    intro c
    apply (hE.drain c).bind
    intro nodes
    apply (Sorting.sortNodes_tidy hE nodes _ context).bind
    intro nodes
    exact .ite ((Action.Tidy.ofExcept _).map _) (.pure _)
  | value v =>
    cases v with
    | nodeSet ns => exact NodeSet.enumerateSorted_tidy hE ns sort
    | _ => exact hother _
  | _ => exact hother _

end Expr

/-- Evaluations are tidy at every depth. -/
theorem engine_tidy (hosts : T.functions.Tidy) (depth : Nat) : (engine T depth).Tidy := by
  induction depth with
  | zero => exact .exhausted
  | succ n ih =>
    exact {
      value := Expr.evaluate_tidy hosts ih
      boolean := Expr.evaluateBoolean_tidy ih
      number := Expr.evaluateNumber_tidy ih
      string := Expr.evaluateString_tidy ih
      nodeSet := Expr.evaluateNodeSet_tidy ih
      cursor := Expr.enumerate_tidy ih
      reduce := Expr.reduce_tidy ih
      next := Cursor.next_tidy ih
      size := Cursor.size_tidy ih
      drain := Cursor.drain_tidy ih
      find := Cursor.find_tidy ih
      search := Key.search_tidy ih }

end PathLanguage
