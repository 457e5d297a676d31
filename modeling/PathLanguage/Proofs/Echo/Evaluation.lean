/- Evaluations and reductions of expressions that echo one another, and engines of different depths.
What stands alone comes to the same in every session that is faithful to the resolver. -/
import PathLanguage.Evaluation
import PathLanguage.Proofs.Echo.Function

namespace PathLanguage

variable {T : Transformation} {h : Pasts} {E E' : Engine} {e e' : Expr}

theorem Context.node_echoes (c : Context) : Action.Echoes T h Eq c.node c.node := by
  unfold Context.node
  split
  · exact .pure rfl
  · exact .fail _

namespace Expr

open Function.Call (make_echoes)

theorem toValue_echo (h : Pasts) (k : Constant) : k.toValue.Echo h k.toValue := by
  cases k with
  | string s => exact .string s
  | number n => exact .number n
  | boolean b => exact .boolean b

theorem nodeSetOf_echoes {v v' : Value} (hv : v.Echo h v') :
    Action.Echoes T h (NodeSet.Echo h) (nodeSetOf v) (nodeSetOf v') := by
  cases hv with
  | nodeSet hn => exact .pure hn
  | string | number | boolean | object => exact .fail _

theorem evaluate_echoes (hE : E.Echoes T h E') (he : e.Echo h e') (c : Context) :
    Action.Echoes T h (Value.Echo h) (e.evaluate T E c) (e'.evaluate T E' c) := by
  have hboolean := make_echoes (hE.boolean c he) fun b => .boolean b
  have hnumber := make_echoes (hE.number c he) fun n => .number n
  have hstring := make_echoes (hE.string c he) fun s => .string s
  have hnodes : Action.Echoes T h (Value.Echo h) (do return .nodeSet (← E.nodeSet e c))
      (do return .nodeSet (← E'.nodeSet e' c)) :=
    (hE.nodeSet c he).map fun _ _ hn => .nodeSet hn
  cases he with
  | value hv => exact .pure hv
  | logical | compare | compareNode | compareNodes | positionRange | isLast => exact hboolean
  | arithmetic | negate => exact hnumber
  | template => exact hstring
  | call b scope hf hargs =>
    exact Function.Call.run_echoes hE ⟨rfl, hargs, rfl, rfl, rfl⟩ hf
  | @reference b hb =>
    simp only [evaluate]
    cases hk : b.constant with
    | some k => exact .pure (toValue_echo h k)
    | none => simp [hk] at hb
  | failure f => exact .throw f
  | _ => exact hnodes

theorem evaluateBoolean_echoes (hE : E.Echoes T h E') (he : e.Echo h e') (c : Context) :
    Action.Echoes T h Eq (e.evaluateBoolean T E c) (e'.evaluateBoolean T E' c) := by
  have hhead : Action.Echoes T h Eq (do return (← E.head (← E.cursor e c false)).isSome)
      (do return (← E'.head (← E'.cursor e' c false)).isSome) :=
    (hE.cursor c false he).bind fun _ _ hk => (hE.head hk).map_eq
  have hvalue : Action.Echoes T h Eq (do (← E.value e c).asBoolean T E)
      (do (← E'.value e' c).asBoolean T E') :=
    (hE.value c he).bind fun _ _ hv => Value.asBoolean_echoes hE hv
  cases he with
  | logical op hl hr =>
    have hr := hE.boolean c hr
    cases op with
    | and => exact (hE.boolean c hl).bind_eq fun _ => .ite (fun _ => hr) fun _ => .pure rfl
    | or => exact (hE.boolean c hl).bind_eq fun _ => .ite (fun _ => .pure rfl) fun _ => hr
  | compare op hl hr =>
    exact (hE.value c hl).bind fun _ _ ha => (hE.value c hr).bind fun _ _ hb =>
      Value.compare_echoes hE ha op hb
  | compareNode op hn hv =>
    refine (hE.nodeSet c hn).bind fun _ _ hn => (NodeSet.first_echoes hE hn).bind_eq fun n => ?_
    cases n with
    | none => exact .pure rfl
    | some n => exact Value.compare_echoes hE (.string _) op hv
  | compareNodes op hn hv =>
    exact (hE.nodeSet c hn).bind fun _ _ hn => Value.compare_echoes hE (.nodeSet hn) op hv
  | positionRange least most => exact .pure rfl
  | isLast wanted => exact .pure rfl
  | value | arithmetic | negate | call | reference | template | failure => exact hvalue
  | _ => exact hhead

theorem evaluateNumber_echoes (hE : E.Echoes T h E') (he : e.Echo h e') (c : Context) :
    Action.Echoes T h Eq (e.evaluateNumber T E c) (e'.evaluateNumber T E' c) := by
  have hvalue : Action.Echoes T h Eq (do (← E.value e c).asNumber T E)
      (do (← E'.value e' c).asNumber T E') :=
    (hE.value c he).bind fun _ _ hv => Value.asNumber_echoes hE hv
  cases he with
  | arithmetic op hl hr =>
    exact (hE.number c hl).bind_eq fun _ => (hE.number c hr).map_eq
  | negate he => exact (hE.number c he).map_eq
  | _ => exact hvalue

theorem evaluateString_echoes (hE : E.Echoes T h E') (he : e.Echo h e') (c : Context) :
    Action.Echoes T h Eq (e.evaluateString T E c) (e'.evaluateString T E' c) := by
  have hhead : Action.Echoes T h Eq
      (do return ((← E.head (← E.cursor e c true)).map Node.stringValue).getD "")
      (do return ((← E'.head (← E'.cursor e' c true)).map Node.stringValue).getD "") :=
    (hE.cursor c true he).bind fun _ _ hk => (hE.head hk).map_eq
  have hvalue : Action.Echoes T h Eq (do (← E.value e c).asString T E)
      (do (← E'.value e' c).asString T E') :=
    (hE.value c he).bind fun _ _ hv => Value.asString_echoes hE hv
  cases he with
  | template hes => exact Function.Call.joinedArgs_echoes hE c hes
  | value | logical | compare | compareNode | compareNodes | arithmetic | negate | call
  | reference | positionRange | isLast | failure => exact hvalue
  | _ => exact hhead

/-- What remains of a node-set expression is kept as a definition, or read out. -/
theorem ofReduced_echoes (hE : E.Echoes T h E') (he : e.Echo h e') (c : Context) :
    Action.Echoes T h (NodeSet.Echo h)
      (if e.dependencies.isEmpty then NodeSet.ofDefinition e
        else do return .extent (← E.extent (← E.cursor e c false)))
      (if e'.dependencies.isEmpty then NodeSet.ofDefinition e'
        else do return .extent (← E'.extent (← E'.cursor e' c false))) := by
  rw [← he.dependencies]
  refine .ite (fun hd => NodeSet.ofDefinition_echoes he hd) fun _ => ?_
  exact (hE.cursor c false he).bind fun _ _ hk => (hE.extent hk).bind_eq fun e => .pure (.extent e)

theorem evaluateNodeSet_echoes (hE : E.Echoes T h E') (he : e.Echo h e') (c : Context) :
    Action.Echoes T h (NodeSet.Echo h) (e.evaluateNodeSet E c) (e'.evaluateNodeSet E' c) := by
  by_cases hvalue : ∃ v, e = .value v
  · obtain ⟨v, rfl⟩ := hvalue
    cases he with
    | value hv => exact nodeSetOf_echoes hv
  · have hvalue' : ¬∃ v, e' = .value v := by
      rintro ⟨v, rfl⟩
      cases he with
      | value hv => exact hvalue ⟨_, rfl⟩
    rw [evaluateNodeSet.eq_2 E e c fun v hv => hvalue ⟨v, hv⟩,
      evaluateNodeSet.eq_2 E' e' c fun v hv => hvalue' ⟨v, hv⟩, ← he.isNodeSetExpr]
    refine .ite (fun _ => (hE.value c he).bind fun _ _ hv => nodeSetOf_echoes hv) fun _ => ?_
    refine (hE.reduce .all c he).bind ?_
    rintro ⟨r, changed⟩ ⟨r', _⟩ ⟨hr, -⟩
    have hrest := ofReduced_echoes hE hr c
    cases hr with
    | value hv => exact nodeSetOf_echoes hv
    | _ => exact hrest

theorem pathCursor_echoes (hE : E.Echoes T h E') {start start' : Expr} {plan plan' : StepPlan}
    (hs : start.Echo h start') (hp : plan.Echo h plan') (c : Context) :
    Action.Echoes T h (Cursor.Echo h) (pathCursor E start plan c)
      (pathCursor E' start' plan' c) := by
  refine (hE.cursor c true hs).bind fun k k' hk => ?_
  rw [← hk.flags, ← hp.axis, ← hs.isSingleton]
  refine .ite (fun _ => .pure (.steps _ true hk hp (Cursor.echo_empty h))) fun _ => ?_
  exact (hE.extent (.steps _ false hk hp (Cursor.echo_empty h))).bind_eq fun e =>
    (Action.Echoes.ofExcept e.sort).bind_eq fun e => .pure (Cursor.echo_ofExtent h e)

theorem cursorFrom_echoes (hE : E.Echoes T h E') (sort : Bool) {k k' : Cursor} (hk : k.Echo h k') :
    Action.Echoes T h (Cursor.Echo h) (cursorFrom E sort k) (cursorFrom E' sort k') :=
  .ite (fun _ => hE.sortedCursor hk) fun _ => .pure hk

theorem enumerate_echoes (hE : E.Echoes T h E') (he : e.Echo h e') (c : Context) (sort : Bool) :
    Action.Echoes T h (Cursor.Echo h) (e.enumerate T E c sort) (e'.enumerate T E' c sort) := by
  have hnodes : Action.Echoes T h (Cursor.Echo h)
      (do (← E.nodeSet e c).enumerateSorted T E sort)
      (do (← E'.nodeSet e' c).enumerateSorted T E' sort) :=
    (hE.nodeSet c he).bind fun _ _ hn => NodeSet.enumerateSorted_echoes hE hn sort
  cases he with
  | root => exact c.node_echoes.bind_eq fun n => .pure (Cursor.echo_ofOption h _)
  | contextNode => exact c.node_echoes.bind_eq fun n => .pure (Cursor.echo_ofOption h _)
  | parentNode => exact c.node_echoes.bind_eq fun n => .pure (Cursor.echo_ofOption h _)
  | currentNode =>
    exact (Function.Call.current_echoes c).bind_eq fun n => .pure (Cursor.echo_ofOption h _)
  | «attribute» name => exact c.node_echoes.bind_eq fun n => .pure (Cursor.echo_ofOption h _)
  | axis along test origin =>
    cases origin with
    | some n => exact cursorFrom_echoes hE sort (.listed ..)
    | none => exact c.node_echoes.bind_eq fun n => cursorFrom_echoes hE sort (.listed ..)
  | @path _ _ along test ps ps' hs hps =>
    have hplan : StepPlan.Echo h ⟨along, test, ps⟩ ⟨along, test, ps'⟩ := ⟨rfl, rfl, hps⟩
    exact pathCursor_echoes hE hs hplan c
  | filter hb hp =>
    simp only [enumerate]
    rw [← hp.isPositional]
    exact (hE.cursor c _ hb).bind fun _ _ hk => .pure (hk.select hp c false)
  | set op hl hr =>
    exact (hE.cursor c true hl).bind fun _ _ hk =>
      (hE.cursor c true hr).bind fun _ _ hk' => Cursor.startMerge_echoes hE op hk hk'
  | distinct hb =>
    exact (hE.cursor c true hb).bind fun _ _ hk => Cursor.startDistinct_echoes hE c hk .none
  | distinctBy hb hkey =>
    exact (hE.cursor c true hb).bind fun _ _ hk =>
      Cursor.startDistinct_echoes hE c hk (.some hkey)
  | sorted rules hb hks =>
    simp only [enumerate]
    refine (hE.cursor c true hb).bind fun _ _ hk => (hE.drain hk).bind_eq fun nodes => ?_
    refine (Sorting.sortNodes_echoes hE rules c hks nodes).bind_eq fun nodes => ?_
    exact .ite (fun _ => (Action.Echoes.ofExcept _).bind_eq fun e =>
      .pure (Cursor.echo_ofExtent h e)) fun _ => .pure (.listed ..)
  | value hv =>
    cases hv with
    | nodeSet hn => exact NodeSet.enumerateSorted_echoes hE hn sort
    | _ => exact hnodes
  | _ => exact hnodes

end Expr

/-- Reduced expressions that echo one another, both replaced or both not. -/
def ReducedEcho (h : Pasts) (r r' : Expr × Bool) : Prop := r.1.Echo h r'.1 ∧ r.2 = r'.2

namespace Expr

variable (mask : Dependencies) (c : Context)

theorem reduceAll_echoes (hE : E.Echoes T h E') {es es' : List Expr} (hes : AllEcho h es es') :
    Action.Echoes T h (fun r r' => AllEcho h r.1 r'.1 ∧ r.2 = r'.2) (reduceAll E mask c es)
      (reduceAll E' mask c es') := by
  induction es generalizing es' with
  | nil =>
    cases hes
    exact .pure ⟨.nil, rfl⟩
  | cons e es ih =>
    cases hes with
    | cons he hes =>
      refine (hE.reduce mask c he).bind ?_
      rintro ⟨r, changed⟩ ⟨r', _⟩ ⟨hr, rfl⟩
      refine (ih hes).bind ?_
      rintro ⟨rs, more⟩ ⟨rs', _⟩ ⟨hrs, rfl⟩
      exact .pure ⟨.cons hr hrs, rfl⟩

theorem boundNode_echoes (f : SystemFunction) (arity : Nat) (b : Option Node) :
    Action.Echoes T h Eq (boundNode mask f arity b c) (boundNode mask f arity b c) := by
  unfold boundNode
  extract_lets own
  cases b with
  | some n => exact .pure rfl
  | none => exact .ite (fun _ => c.node_echoes.map_eq) fun _ => .pure rfl

/-- A fault that leaves a part as it is leaves it so on both sides, as no evaluation that is given up
is passed over. -/
theorem reduceToValue_echoes (hE : E.Echoes T h E') (he : e.Echo h e') (changed : Bool) :
    Action.Echoes T h (ReducedEcho h) (reduceToValue E mask c e changed)
      (reduceToValue E' mask c e' changed) := by
  unfold reduceToValue
  rw [← he.isNodeSetExpr, ← he.dependencies]
  refine .ite (fun _ => .pure ⟨he, rfl⟩) fun _ => ?_
  refine (hE.value c he).outcome_bind rfl ?_
  rintro _ _ (hv | f)
  · exact .pure ⟨.value hv, rfl⟩
  · cases f with
    | tooDeep => exact .throw _
    | _ => exact .pure ⟨he, rfl⟩

theorem reduceOne_echoes (hE : E.Echoes T h E') {m m' : Expr → Expr}
    (hm : ∀ {k k'}, k.Echo h k' → (m k).Echo h (m' k')) (he : e.Echo h e') :
    Action.Echoes T h (ReducedEcho h) (reduceOne E mask c m e) (reduceOne E' mask c m' e') := by
  refine (hE.reduce mask c he).bind ?_
  rintro ⟨r, changed⟩ ⟨r', _⟩ ⟨hr, rfl⟩
  exact reduceToValue_echoes mask c hE (hm hr) changed

theorem reduceTwo_echoes (hE : E.Echoes T h E') {m : Expr → Expr → Expr}
    (hm : ∀ {k k' j j'}, k.Echo h k' → j.Echo h j' → (m k j).Echo h (m k' j'))
    {l l' r r' : Expr} (hl : l.Echo h l') (hr : r.Echo h r') :
    Action.Echoes T h (ReducedEcho h) (reduceTwo E mask c m l r) (reduceTwo E' mask c m l' r') := by
  refine (hE.reduce mask c hl).bind ?_
  rintro ⟨k, changed⟩ ⟨k', _⟩ ⟨hk, rfl⟩
  refine (hE.reduce mask c hr).bind ?_
  rintro ⟨j, more⟩ ⟨j', _⟩ ⟨hj, rfl⟩
  exact reduceToValue_echoes mask c hE (hm hk hj) _

theorem reduceMany_echoes (hE : E.Echoes T h E') {m : List Expr → Expr} {es es' : List Expr}
    (hm : ∀ {ks ks'}, AllEcho h ks ks' → (m ks).Echo h (m ks')) (hes : AllEcho h es es') :
    Action.Echoes T h (ReducedEcho h) (reduceMany E mask c m es) (reduceMany E' mask c m es') := by
  refine (reduceAll_echoes mask c hE hes).bind ?_
  rintro ⟨rs, changed⟩ ⟨rs', _⟩ ⟨hrs, rfl⟩
  exact reduceToValue_echoes mask c hE (hm hrs) changed

theorem reduce_echoes (hE : E.Echoes T h E') (he : e.Echo h e') :
    Action.Echoes T h (ReducedEcho h) (e.reduce E mask c) (e'.reduce E' mask c) := by
  unfold reduce
  rw [← he.dependencies]
  refine .ite (fun _ => .pure ⟨he, rfl⟩) fun _ => ?_
  extract_lets inner
  have hone : Action.Echoes T h (ReducedEcho h)
      (do return (.value (.nodeSet (.ofOption (← E.head (← E.cursor e c false)))), true))
      (do return (.value (.nodeSet (.ofOption (← E'.head (← E'.cursor e' c false)))), true)) :=
    (hE.cursor c false he).bind fun _ _ hk => (hE.head hk).bind_eq fun n =>
      .pure ⟨.value (.nodeSet (NodeSet.echo_ofOption h n)), rfl⟩
  cases he with
  | root | contextNode | parentNode | currentNode | «attribute» => exact hone
  | axis along test origin => exact c.node_echoes.bind_eq fun n => .pure ⟨.axis .., rfl⟩
  | call b scope hf hargs =>
    refine (reduceAll_echoes mask c hE hargs).bind ?_
    rintro ⟨rs, _⟩ ⟨rs', _⟩ ⟨hrs, rfl⟩
    dsimp only
    rw [← hrs.length_eq]
    exact (boundNode_echoes mask c _ _ b).bind_eq fun b =>
      reduceToValue_echoes mask c hE (.call b scope hf hrs) true
  | path along test hs hps =>
    refine (hE.reduce mask c hs).bind ?_
    rintro ⟨start, _⟩ ⟨start', _⟩ ⟨hs, rfl⟩
    dsimp only
    rw [← hs.isEmptyNodeSet]
    refine .ite (fun _ => .pure ⟨.value (.nodeSet .empty), rfl⟩) fun _ => ?_
    exact (reduceAll_echoes inner c hE hps).bind fun _ _ hr => .pure ⟨.path along test hs hr.1, rfl⟩
  | filter hb hp =>
    refine (hE.reduce mask c hb).bind ?_
    rintro ⟨base, _⟩ ⟨base', _⟩ ⟨hb, rfl⟩
    dsimp only
    rw [← hb.isEmptyNodeSet]
    refine .ite (fun _ => .pure ⟨hb, rfl⟩) fun _ => ?_
    exact (hE.reduce inner c hp).bind fun _ _ hr => .pure ⟨.filter hb hr.1, rfl⟩
  | distinct hb => exact (hE.reduce mask c hb).bind fun _ _ hr => .pure ⟨.distinct hr.1, rfl⟩
  | distinctBy hb hk =>
    exact (hE.reduce mask c hb).bind fun _ _ hb =>
      (hE.reduce inner c hk).bind fun _ _ hk => .pure ⟨.distinctBy hb.1 hk.1, rfl⟩
  | sorted rules hb hks =>
    exact (hE.reduce mask c hb).bind fun _ _ hb =>
      (reduceAll_echoes _ c hE hks).bind fun _ _ hks => .pure ⟨.sorted rules hb.1 hks.1, rfl⟩
  | set op hl hr => exact reduceTwo_echoes mask c hE (.set op) hl hr
  | logical op hl hr => exact reduceTwo_echoes mask c hE (.logical op) hl hr
  | compare op hl hr => exact reduceTwo_echoes mask c hE (.compare op) hl hr
  | arithmetic op hl hr => exact reduceTwo_echoes mask c hE (.arithmetic op) hl hr
  | compareNode op hn hv => exact reduceOne_echoes mask c hE (.compareNode op · hv) hn
  | compareNodes op hn hv => exact reduceOne_echoes mask c hE (.compareNodes op · hv) hn
  | negate he => exact reduceOne_echoes mask c hE .negate he
  | template hes => exact reduceMany_echoes mask c hE .template hes
  | reference hb => exact reduceToValue_echoes mask c hE (.reference hb) false
  | positionRange least most => exact reduceToValue_echoes mask c hE (.positionRange least most) false
  | isLast wanted => exact reduceToValue_echoes mask c hE (.isLast wanted) false
  | value hv => exact reduceToValue_echoes mask c hE (.value hv) false
  | failure f => exact reduceToValue_echoes mask c hE (.failure f) false

end Expr

/-- The evaluations of an engine are echoed by those of every engine that follows evaluations at
least as deep. -/
theorem engine_echoes (T : Transformation) (h : Pasts) {n m : Nat} (hnm : n ≤ m) :
    (engine T n).Echoes T h (engine T m) := by
  induction n generalizing m with
  | zero =>
    exact {
      value _ _ := .tooDeep
      boolean _ _ := .tooDeep
      number _ _ := .tooDeep
      string _ _ := .tooDeep
      nodeSet _ _ := .tooDeep
      cursor _ _ _ := .tooDeep
      reduce _ _ _ := .tooDeep
      next _ := fun _ _ hs => .inl ⟨rfl, hs.left⟩
      size _ := fun _ _ hs => .inl ⟨rfl, hs.left⟩
      drain _ := .tooDeep
      find _ _ := .tooDeep }
  | succ n ih =>
    cases m with
    | zero => omega
    | succ m =>
      have hE := ih (Nat.le_of_succ_le_succ hnm)
      exact {
        value c he := Expr.evaluate_echoes hE he c
        boolean c he := Expr.evaluateBoolean_echoes hE he c
        number c he := Expr.evaluateNumber_echoes hE he c
        string c he := Expr.evaluateString_echoes hE he c
        nodeSet c he := Expr.evaluateNodeSet_echoes hE he c
        cursor c sort he := Expr.enumerate_echoes hE he c sort
        reduce mask c he := Expr.reduce_echoes mask c hE he
        next hk := Cursor.next_echoes hE hk
        size hk := Cursor.size_echoes hE hk
        drain hk := Cursor.drain_echoes hE hk
        find test hk := Cursor.find_echoes hE test hk }

end PathLanguage

namespace PathLanguage

variable {T : Transformation} {α β : Type}

/-- What an action comes to in a new session. -/
def Action.verdict (a : Action α) : Except Fault α := (a.attempt.run {}).1

/-- An action that echoes itself whatever the sessions were in which its runs began. -/
def Action.Sessionless (T : Transformation) (loads : Bool) (a : Action α) : Prop :=
  ∀ h : Pasts, h.loads = loads → Action.Echoes T h Eq a a

theorem Session.faithful_new (T : Transformation) : Session.Faithful T {} := nofun

namespace Action.Sessionless

variable {loads : Bool} {a : Action α} {s s' : Session}

/-- Neither of two runs gives up unless both do. -/
theorem same (ha : a.Sessionless T loads) (hs : loads = true → s.Faithful T)
    (hs' : loads = true → s'.Faithful T) : (a.attempt.run s).1 = (a.attempt.run s').1 := by
  rcases ha ⟨s, s', loads⟩ rfl s s' (.start hs hs') with ⟨hg, -⟩ | ⟨hr, -⟩
  · rcases ha ⟨s', s, loads⟩ rfl s' s (.start hs' hs) with ⟨hg', -⟩ | ⟨hr, -⟩
    · exact Eq.trans hg hg'.symm
    · exact hr.eq.symm
  · exact hr.eq

theorem since (ha : a.Sessionless T loads) (hs : loads = true → s.Faithful T) :
    (a.attempt.run s).2.Since T loads s := by
  rcases ha ⟨s, s, loads⟩ rfl s s (.start hs hs) with ⟨-, ht⟩ | ⟨-, ht⟩
  · exact ht
  · exact ht.left

/-- A run comes to the verdict, and to a session that is faithful again. -/
theorem run (ha : a.Sessionless T loads) (hs : loads = true → s.Faithful T) {r : Except Fault α}
    {t : Session} (h : a.attempt.run s = (r, t)) : a.verdict = r ∧ t.Since T loads s := by
  have hr := ha.same hs fun _ => Session.faithful_new T
  have ht := ha.since hs
  rw [h] at hr ht
  exact ⟨hr.symm, ht⟩

end Action.Sessionless

end PathLanguage
