/- Direct expressions are evaluated alike to every depth: where one engine succeeds an engine that
follows it does, as long as the global variables are answered alike. -/
import PathLanguage.Proofs.Direct.Function
import PathLanguage.Proofs.Echo.Evaluation
import PathLanguage.Proofs.Expr.Type

namespace PathLanguage

variable {R : Session → Session → Prop} {T : Transformation} {E E' : Engine} {e : Expr}
  {c : Context}

/-- Two engines answer references to global variables alike. -/
def Engine.Answers (T : Transformation) (R : Session → Session → Prop) (E E' : Engine) : Prop :=
  ∀ name, Action.Follows R Value.AtHand (globalValue T E name) (globalValue T E' name)

/-- A relation of sessions that looks at their global variables only. -/
def OfGlobals (R : Session → Session → Prop) : Prop :=
  ∀ s s' t t' : Session, t.globals = s.globals → t'.globals = s'.globals → R s s' → R t t'

theorem Context.valueOf_follows (ha : E.Answers T R E') (hc : c.locals = []) (b : Binding) :
    Action.Follows R Value.AtHand (c.valueOf T E b) (c.valueOf T E' b) := by
  unfold Context.valueOf
  rw [hc]
  exact .ite (fun _ => ha b.name) fun _ => .fail

/-- Actions that echo one another whatever the sessions were touch no variable. -/
theorem Action.Follows.of_echoes {α : Type} {P : α → Prop} {a a' : Action α} (T : Transformation)
    (hR : OfGlobals R) (hP : Returns a P)
    (h : ∀ p : Pasts, p.loads = false → Action.Echoes T p (fun x y => P x → x = y) a a') :
    Action.Follows R P a a' := by
  intro s s' hs
  rcases h ⟨s, s', false⟩ rfl s s' (.start nofun nofun) with ⟨hg, ht⟩ | ⟨hr, ht⟩
  · refine ⟨s', hR s s' _ _ ht.globals rfl hs, ?_⟩
    rintro ⟨x, hx⟩
    cases hx.symm.trans hg
  · refine ⟨_, hR s s' _ _ ht.left.globals ht.right.globals hs, ?_⟩
    rintro ⟨x, hx⟩
    have hPx := hP s x hx
    rw [hx] at hr ⊢
    refine ⟨fun y hy => Except.ok.inj hy ▸ hPx, ?_⟩
    generalize hr' : (a'.attempt.run s').1 = r' at hr
    cases hr with
    | ok hxy => exact Prod.ext (hr'.trans (congrArg Except.ok (hxy hPx).symm)) rfl

namespace Expr

section alone

variable (hR : OfGlobals R) (ha : e.StandsAlone false) (n more : Nat)

include hR ha

theorem StandsAlone.value_follows (hn : e.type ≠ .nodeSet) (hany : e.type ≠ .any) :
    Action.Follows R Value.AtHand ((engine T n).value e c) ((engine T (more + n)).value e c) := by
  have hP : Returns ((engine T n).value e c) (·.type ≠ .nodeSet) :=
    (engine_value_has T n e c).imp fun v hv => (hv hany).symm ▸ hn
  refine (Action.Follows.of_echoes T hR hP fun p hp => ?_).imp fun v hv ns hns => ?_
  · have hecho := (engine_echoes T p (Nat.le_add_left n more)).value c (e.echo_self p (hp ▸ ha))
    refine hecho.imp fun v v' hv hne => ?_
    cases hv with
    | nodeSet => exact absurd rfl hne
    | _ => rfl
  · rw [hns] at hv
    exact absurd rfl hv

theorem StandsAlone.boolean_follows :
    Action.Follows R (fun _ => True) ((engine T n).boolean e c)
      ((engine T (more + n)).boolean e c) :=
  Action.Follows.of_echoes T hR (fun _ _ _ => trivial) fun p hp =>
    ((engine_echoes T p (Nat.le_add_left n more)).boolean c (e.echo_self p (hp ▸ ha))).imp
      fun _ _ h _ => h

theorem StandsAlone.number_follows :
    Action.Follows R (fun _ => True) ((engine T n).number e c)
      ((engine T (more + n)).number e c) :=
  Action.Follows.of_echoes T hR (fun _ _ _ => trivial) fun p hp =>
    ((engine_echoes T p (Nat.le_add_left n more)).number c (e.echo_self p (hp ▸ ha))).imp
      fun _ _ h _ => h

theorem StandsAlone.string_follows :
    Action.Follows R (fun _ => True) ((engine T n).string e c)
      ((engine T (more + n)).string e c) :=
  Action.Follows.of_echoes T hR (fun _ _ _ => trivial) fun p hp =>
    ((engine_echoes T p (Nat.le_add_left n more)).string c (e.echo_self p (hp ▸ ha))).imp
      fun _ _ h _ => h

end alone

/-- A node-set expression that stands for one node is reduced to it. -/
theorem reduce_follows (hE : E.Follows R E') (he : e.isSingleton = true) (hc : c.locals = []) :
    Action.Follows R (fun r => ∃ ns, r.1 = .value (.nodeSet ns) ∧ ns.AtHand)
      (e.reduce E .all c) (e.reduce E' .all c) := by
  have hone : Action.Follows R (fun r => ∃ ns, r.1 = Expr.value (.nodeSet ns) ∧ ns.AtHand)
      (do return (.value (.nodeSet (.ofOption (← E.head (← E.cursor e c false)))), true))
      (do return (.value (.nodeSet (.ofOption (← E'.head (← E'.cursor e c false)))), true)) := by
    refine (hE.cursor false (.of_isSingleton he false) hc).bind fun k hk =>
      (hE.head hk).map fun n _ => ⟨_, rfl, ?_⟩
    cases n <;> exact nofun
  cases e with
  | root | contextNode | parentNode | currentNode | «attribute» name => exact hone
  | _ => cases he

theorem nodeSetOf_follows {v : Value} (h : v.AtHand) :
    Action.Follows R NodeSet.AtHand (nodeSetOf v) (nodeSetOf v) := by
  cases v with
  | nodeSet ns => exact .pure (h ns rfl)
  | _ => exact .fail

theorem evaluateNodeSet_follows (hE : E.Follows R E') (he : e.Direct true) (hc : c.locals = []) :
    Action.Follows R NodeSet.AtHand (e.evaluateNodeSet E c) (e.evaluateNodeSet E' c) := by
  unfold evaluateNodeSet
  split
  · exact nodeSetOf_follows he.atHand
  refine .ite (fun _ => (hE.value he hc).bind fun v hv => nodeSetOf_follows hv) fun hns => ?_
  have hsingle : e.isSingleton = true := he.isSingleton (by simpa using hns)
  refine (hE.reduce hsingle hc).bind fun r hr => ?_
  obtain ⟨_, changed⟩ := r
  obtain ⟨ns, rfl, hns⟩ := hr
  exact .pure hns

theorem evaluate_follows (hE : E.Follows R E') (ha : E.Answers T R E') (he : e.BuiltDirectly true)
    (hc : c.locals = []) :
    Action.Follows R Value.AtHand (e.evaluate T E c) (e.evaluate T E' c) := by
  have hd : e.Direct true := .built he
  cases he with
  | value _ hv => exact .pure hv
  | logical | compare | compareNode | compareNodes | positionRange | isLast =>
    exact (hE.boolean hd.read hc).map fun _ _ _ h => by cases h
  | arithmetic | negate => exact (hE.number hd hc).map fun _ _ _ h => by cases h
  | call b scope _ hf hargs => exact Function.Call.run_follows hE ⟨hf, hargs, hc⟩
  | reference b =>
    simp only [evaluate]
    cases b.constant with
    | some k => exact .pure k.toValue_atHand
    | none => exact c.valueOf_follows ha hc b
  | template => exact (hE.string hd.read hc).map fun _ _ _ h => by cases h
  | failure => exact .throw
  | root | contextNode | parentNode | currentNode | «attribute» =>
    exact (hE.nodeSet hd hc).map fun _ hns => hns.value

/-- What is no node-set expression is tested or read by its value. -/
theorem Direct.of_plain (he : e.Direct false) (hns : ¬e.isNodeSetExpr = true) : e.Direct true :=
  he.keep (by simpa using hns) true

/-- Tests of nodes and values that have no form of their own. -/
theorem test_follows (hE : E.Follows R E') (he : e.Direct false) (hc : c.locals = []) :
    Action.Follows R (fun _ => True)
      (if e.isNodeSetExpr then do return (← E.head (← E.cursor e c false)).isSome
        else do (← E.value e c).asBoolean T E)
      (if e.isNodeSetExpr then do return (← E'.head (← E'.cursor e c false)).isSome
        else do (← E'.value e c).asBoolean T E') := by
  refine .ite (fun _ => ?_) fun hns => ?_
  · exact (hE.cursor false he hc).bind fun k hk => (hE.head hk).map_any
  · exact (hE.value (he.of_plain hns) hc).bind fun v hv => Value.asBoolean_follows E E' hv

theorem evaluateBoolean_follows (hE : E.Follows R E') (he : e.BuiltDirectly false)
    (hc : c.locals = []) :
    Action.Follows R (fun _ => True) (e.evaluateBoolean T E c) (e.evaluateBoolean T E' c) := by
  have hd : e.Direct false := .built he
  cases he with
  | logical op _ hl hr =>
    cases op with
    | and =>
      exact (hE.boolean hl hc).bind fun l _ =>
        .ite (fun _ => hE.boolean hr hc) fun _ => .pure trivial
    | or =>
      exact (hE.boolean hl hc).bind fun l _ =>
        .ite (fun _ => .pure trivial) fun _ => hE.boolean hr hc
  | compare op _ hl hr =>
    refine (hE.value hl hc).bind fun a ha => ?_
    exact (hE.value hr hc).bind fun b hb => Value.compare_follows hE ha op hb
  | compareNode op _ hn hv =>
    refine (hE.nodeSet hn hc).bind fun ns hns => ?_
    refine (NodeSet.first_follows E E' hns).bind fun m _ => ?_
    cases m with
    | some m =>
      have hm : (Value.string m.stringValue).AtHand := nofun
      exact Value.compare_follows hE hm op hv
    | none => exact .pure trivial
  | compareNodes op _ hn hv =>
    exact (hE.nodeSet hn hc).bind fun ns hns => Value.compare_follows hE hns.value op hv
  | positionRange | isLast => exact .pure trivial
  | _ => exact test_follows hE hd hc

theorem evaluateNumber_follows (hE : E.Follows R E') (he : e.BuiltDirectly true)
    (hc : c.locals = []) :
    Action.Follows R (fun _ => True) (e.evaluateNumber T E c) (e.evaluateNumber T E' c) := by
  have hd : e.Direct true := .built he
  have hvalue : Action.Follows R (fun _ => True) (do (← E.value e c).asNumber T E)
      (do (← E'.value e c).asNumber T E') :=
    (hE.value hd hc).bind fun v hv => Value.asNumber_follows E E' hv
  cases he with
  | arithmetic op _ hl hr => exact (hE.number hl hc).bind fun l _ => (hE.number hr hc).map_any
  | negate _ h => exact (hE.number h hc).map_any
  | _ => exact hvalue

theorem evaluateString_follows (hE : E.Follows R E') (he : e.BuiltDirectly false)
    (hc : c.locals = []) :
    Action.Follows R (fun _ => True) (e.evaluateString T E c) (e.evaluateString T E' c) := by
  have hd : e.Direct false := .built he
  have hother : Action.Follows R (fun _ => True)
      (if e.isNodeSetExpr then do
          return ((← E.head (← E.cursor e c true)).map Node.stringValue).getD ""
        else do (← E.value e c).asString T E)
      (if e.isNodeSetExpr then do
          return ((← E'.head (← E'.cursor e c true)).map Node.stringValue).getD ""
        else do (← E'.value e c).asString T E') := by
    refine .ite (fun _ => ?_) fun hns => ?_
    · exact (hE.cursor true hd hc).bind fun k hk => (hE.head hk).map_any
    · exact (hE.value (hd.of_plain hns) hc).bind fun v hv => Value.asString_follows E E' hv
  cases he with
  | template _ hparts => exact Function.Call.joinedArgs_follows hE hc hparts
  | _ => exact hother

theorem pathCursor_follows (hE : E.Follows R E') (he : e.Direct false) {plan : StepPlan}
    (hp : AllDirect (fun _ => true) plan.predicates) (hc : c.locals = []) :
    Action.Follows R Cursor.Direct (pathCursor E e plan c) (pathCursor E' e plan c) := by
  refine (hE.cursor true he hc).bind fun starts hs => ?_
  have hsteps (sorted : Bool) : (Cursor.steps starts plan c.ambient .empty sorted).Direct :=
    ⟨hs, hp, hc, trivial⟩
  extract_lets ordered
  refine .ite (fun _ => .pure (hsteps true)) fun _ => ?_
  exact (hE.extent (hsteps false)).bind fun x _ =>
    (Action.Follows.ofExcept_any x.sort).map fun _ _ => trivial

theorem cursorFrom_follows (hE : E.Follows R E') (sort : Bool) {k : Cursor} (hk : k.Direct) :
    Action.Follows R Cursor.Direct (cursorFrom E sort k) (cursorFrom E' sort k) :=
  .ite (fun _ => hE.sortedCursor hk) fun _ => .pure hk

theorem enumerate_follows (hE : E.Follows R E') (he : e.Direct false) (hc : c.locals = [])
    (sort : Bool) :
    Action.Follows R Cursor.Direct (e.enumerate T E c sort) (e.enumerate T E' c sort) := by
  have hother (hd : e.isNodeSetExpr = false) : Action.Follows R Cursor.Direct
      (do (← E.nodeSet e c).enumerateSorted T E sort)
      (do (← E'.nodeSet e c).enumerateSorted T E' sort) :=
    (hE.nodeSet (he.keep hd true) hc).bind fun ns hns =>
      NodeSet.enumerateSorted_follows E E' hns sort
  cases he with
  | alone _ _ hn =>
    cases e with
    | value v =>
      cases v with
      | nodeSet ns => exact absurd rfl hn
      | _ => exact hother rfl
    | root | contextNode | parentNode | currentNode | «attribute» | axis | path | filter | set
    | distinct | distinctBy | sorted => exact absurd rfl hn
    | _ => exact hother rfl
  | built he =>
    cases he with
    | root | contextNode | parentNode | «attribute» => exact c.node_follows.map fun _ _ => trivial
    | currentNode => exact c.current_follows.map fun _ _ => trivial
    | axis along test origin =>
      cases origin with
      | some n => exact cursorFrom_follows hE sort (Cursor.onAxis_direct n along test)
      | none =>
        exact c.node_follows.bind fun n _ =>
          cursorFrom_follows hE sort (Cursor.onAxis_direct n along test)
    | path along test hs hp => exact pathCursor_follows hE hs hp hc
    | filter hb hp => exact (hE.cursor _ hb hc).map fun k hk => hk.select hp hc false
    | set op hl hr =>
      refine (hE.cursor true hl hc).bind fun left hleft => ?_
      exact (hE.cursor true hr hc).bind fun right hright =>
        Cursor.startMerge_follows hE op hleft hright
    | distinct hb =>
      exact (hE.cursor true hb hc).bind fun k hk => Cursor.startDistinct_follows hE hk (by simp) hc
    | distinctBy hb hkey =>
      refine (hE.cursor true hb hc).bind fun k hk => ?_
      exact Cursor.startDistinct_follows hE hk (fun _ h => Option.some.inj h ▸ hkey) hc
    | @sorted b keys rules hb hkeys =>
      have hzip : ∀ k ∈ keys.zip rules, k.1.Direct true :=
        fun k hk => hkeys.mem (List.of_mem_zip hk).1
      refine (hE.cursor true hb hc).bind fun k hk => ?_
      refine (hE.drain hk).bind fun nodes _ => ?_
      refine (Sorting.sortNodes_follows hE nodes hzip hc).bind fun nodes _ => ?_
      exact .ite (fun _ => (Action.Follows.ofExcept_any _).map fun _ _ => trivial)
        fun _ => .pure trivial
    | @value v _ hv =>
      cases v with
      | nodeSet ns => exact NodeSet.enumerateSorted_follows E E' (hv ns rfl) sort
      | _ => exact hother rfl
    | _ => exact hother rfl

end Expr

/-- Engines follow one another on direct expressions if the more shallow ones that they are made of
answer references to global variables alike. -/
theorem engine_follows (hR : OfGlobals R) (depth more : Nat)
    (ha : ∀ n < depth, (engine T n).Answers T R (engine T (more + n))) :
    (engine T depth).Follows R (engine T (more + depth)) := by
  induction depth with
  | zero =>
    have hnext {α : Type} {c : Cursor} {m : StateM Session (Pull α)} :
        Pull.Follows R (pure ⟨.error .tooDeep, c⟩) m := fun _ s' hs => ⟨s', hs, nofun⟩
    exact {
      value := fun _ _ => .fail
      boolean := fun _ _ => .fail
      number := fun _ _ => .fail
      string := fun _ _ => .fail
      nodeSet := fun _ _ => .fail
      cursor := fun _ _ _ => .fail
      reduce := fun _ _ => .fail
      next := fun _ => hnext
      size := fun _ => hnext
      drain := fun _ => .fail
      find := fun _ _ _ => .fail }
  | succ n ih =>
    have hE := ih fun i hi => ha i (Nat.lt_succ_of_lt hi)
    exact {
      value := fun he hc => by
        cases he with
        | alone _ h hn hany => exact h.value_follows hR (n + 1) more hn hany
        | built h => exact Expr.evaluate_follows hE (ha n n.lt_succ_self) h hc
      boolean := fun he hc => by
        cases he with
        | alone _ h => exact h.boolean_follows hR (n + 1) more
        | built h => exact Expr.evaluateBoolean_follows hE h hc
      number := fun he hc => by
        cases he with
        | alone _ h => exact h.number_follows hR (n + 1) more
        | built h => exact Expr.evaluateNumber_follows hE h hc
      string := fun he hc => by
        cases he with
        | alone _ h => exact h.string_follows hR (n + 1) more
        | built h => exact Expr.evaluateString_follows hE h hc
      nodeSet := Expr.evaluateNodeSet_follows hE
      cursor := fun sort he hc => Expr.enumerate_follows hE he hc sort
      reduce := Expr.reduce_follows hE
      next := Cursor.next_follows hE
      size := Cursor.size_follows hE
      drain := Cursor.drain_follows hE
      find := Cursor.find_follows hE }

end PathLanguage
