/- Reading cursors that evaluate direct expressions, and what is asked of node-sets and values at
hand. Where one engine succeeds an engine that follows it does. -/
import PathLanguage.Proofs.Direct.Basic

namespace PathLanguage

variable {R : Session → Session → Prop} {T : Transformation} {E E' : Engine}

namespace Cursor

theorem onAxis_direct (origin : Node) (along : Axis) (test : NodeTest) :
    (onAxis origin along test).Direct := trivial

theorem Direct.select {c : Cursor} (h : c.Direct) {p : Expr} (hp : p.Direct true)
    {context : Context} (hc : context.locals = []) (stopsAtReject : Bool) :
    (c.select p context stopsAtReject).Direct := by
  unfold Cursor.select
  extract_lets usesLast
  split <;> exact ⟨h, hp, hc⟩

theorem ofStep_direct {plan : StepPlan} (h : AllDirect (fun _ => true) plan.predicates)
    (origin : Node) {context : Context} (hc : context.locals = []) :
    (ofStep plan origin context).Direct := by
  unfold ofStep
  have hmem : ∀ p ∈ plan.predicates, p.Direct true := fun p hp => h.mem hp
  have hstart := onAxis_direct origin plan.axis plan.test
  generalize onAxis origin plan.axis plan.test = c at hstart ⊢
  generalize plan.predicates = ps at hmem ⊢
  induction ps generalizing c with
  | nil => exact hstart
  | cons p rest ih =>
    exact ih _ (hstart.select (hmem p List.mem_cons_self) hc false)
      fun q hq => hmem q (List.mem_cons_of_mem _ hq)

theorem nextAhead_follows (hE : E.Follows R E') {base : Cursor} (h : base.Direct)
    (buffer : List Node) (delivered : Nat) (exhausted : Bool) :
    Pull.Follows R (nextAhead E base buffer delivered exhausted)
      (nextAhead E' base buffer delivered exhausted) := by
  cases buffer with
  | cons n rest => exact .pure h
  | nil =>
    cases exhausted with
    | true => exact .pure h
    | false =>
      refine (hE.next h).bind (fun o rest hrest => ?_) fun _ _ => ⟨_, rfl⟩
      cases o with
      | none => exact .pure hrest
      | some n => exact .pure hrest

theorem size_follows (hE : E.Follows R E') {c : Cursor} (h : c.Direct) :
    Pull.Follows R (c.size E) (c.size E') := by
  cases c with
  | lookahead base buffer delivered exhausted =>
    cases exhausted with
    | true => exact .pure h
    | false =>
      refine Pull.Follows.bind (hE.next h) (fun o rest hrest => ?_) fun _ _ => ⟨_, rfl⟩
      cases o with
      | none => exact .pure hrest
      | some n => exact hE.size hrest
  | listed => exact .pure h
  | filter => exact .pure h
  | merge => exact .pure h
  | distinct => exact .pure h
  | steps => exact .pure h

theorem accepts_follows (hE : E.Follows R E') {s : Selection} (hp : s.predicate.Direct true)
    (hc : s.context.locals = []) (n : Node) (position last : Nat) :
    Action.Follows R (fun _ => True) (accepts E s n position last)
      (accepts E' s n position last) := by
  unfold accepts
  extract_lets focus
  have hfocus : focus.locals = [] := hc
  split
  · exact .pure trivial
  · exact (hE.number hp hfocus).map_any
  · exact hE.boolean hp.read hfocus
  · refine (hE.value hp hfocus).bind fun v hv => ?_
    split
    · exact .pure trivial
    · exact hE.boolean (hv.direct false) hfocus

theorem baseSize_follows (hE : E.Follows R E') {base : Cursor} (h : base.Direct) (s : Selection)
    (last : Option Nat) (position : Nat) :
    Pull.Follows R (baseSize E base s last position) (baseSize E' base s last position) := by
  unfold baseSize
  split
  · exact .pure h
  · exact .pure h
  · exact .pure h
  · exact (hE.size h).bind (fun _ _ hrest => .pure hrest) fun _ _ => ⟨_, rfl⟩

theorem nextSelected_follows (hE : E.Follows R E') {base : Cursor} (h : base.Direct) {s : Selection}
    (hp : s.predicate.Direct true) (hc : s.context.locals = []) (last : Option Nat) (position : Nat)
    (finished : Bool) :
    Pull.Follows R (nextSelected E base s last position finished)
      (nextSelected E' base s last position finished) := by
  unfold nextSelected
  extract_lets beyond
  split
  · exact .pure ⟨h, hp, hc⟩
  refine (hE.next h).bind (fun o rest hrest => ?_) fun _ _ => ⟨_, rfl⟩
  cases o with
  | none => exact .pure ⟨hrest, hp, hc⟩
  | some n =>
    refine (baseSize_follows hE hrest s last _).bind (fun l rest hrest => ?_) fun _ _ => ⟨_, rfl⟩
    refine Pull.Follows.bind_attempt (accepts_follows hE hp hc n _ l) (fun accepted _ => ?_)
      fun _ => ⟨_, rfl⟩
    cases accepted with
    | true => exact .pure ⟨hrest, hp, hc⟩
    | false => exact hE.next ⟨hrest, hp, hc⟩

section merge

variable {left right : Cursor}

theorem passLeft_follows (hE : E.Follows R E') (hl : left.Direct) (hr : right.Direct)
    (op : SetOperator) (leftHead rightHead : Option Node) :
    Pull.Follows R (passLeft E op left leftHead right rightHead)
      (passLeft E' op left leftHead right rightHead) :=
  (hE.next hl).bind (fun _ _ hrest => .pure ⟨hrest, hr⟩) fun _ _ => ⟨_, rfl⟩

theorem passRight_follows (hE : E.Follows R E') (hl : left.Direct) (hr : right.Direct)
    (op : SetOperator) (leftHead rightHead : Option Node) :
    Pull.Follows R (passRight E op left leftHead right rightHead)
      (passRight E' op left leftHead right rightHead) :=
  (hE.next hr).bind (fun _ _ hrest => .pure ⟨hl, hrest⟩) fun _ _ => ⟨_, rfl⟩

theorem passBoth_follows (hE : E.Follows R E') (hl : left.Direct) (hr : right.Direct)
    (leftFirst : Bool) (op : SetOperator) (leftHead rightHead : Option Node) :
    Pull.Follows R (passBoth E leftFirst op left leftHead right rightHead)
      (passBoth E' leftFirst op left leftHead right rightHead) := by
  cases leftFirst with
  | true =>
    refine (passLeft_follows hE hl hr op leftHead rightHead).bind (fun o rest hrest => ?_)
      fun _ _ => ⟨_, rfl⟩
    cases rest with
    | merge => exact passRight_follows hE hrest.1 hrest.2 _ _ _
    | _ => exact .pure hrest
  | false =>
    refine (passRight_follows hE hl hr op leftHead rightHead).bind (fun o rest hrest => ?_)
      fun _ _ => ⟨_, rfl⟩
    cases rest with
    | merge => exact passLeft_follows hE hrest.1 hrest.2 _ _ _
    | _ => exact .pure hrest

/-- A node is delivered, or reading goes on, once the heads are passed. -/
theorem passed_follows (hE : E.Follows R E') {m m' : StateM Session (Pull Unit)}
    (h : Pull.Follows R m m') :
    (∀ n, Pull.Follows R (do return deliver n (← m)) (do return deliver n (← m'))) ∧
      Pull.Follows R (do goOn E (← m)) (do goOn E' (← m')) :=
  ⟨fun _ => h.bind (fun _ _ hrest => .pure hrest) fun _ _ => ⟨_, rfl⟩,
    h.bind (fun _ _ hrest => hE.next hrest) fun _ _ => ⟨_, rfl⟩⟩

theorem nextMerged_follows (hE : E.Follows R E') (hl : left.Direct) (hr : right.Direct)
    (op : SetOperator) (leftHead rightHead : Option Node) :
    Pull.Follows R (nextMerged E op left leftHead right rightHead)
      (nextMerged E' op left leftHead right rightHead) := by
  obtain ⟨hleft, hpastLeft⟩ :=
    passed_follows hE (passLeft_follows hE hl hr op leftHead rightHead)
  obtain ⟨hright, hpastRight⟩ :=
    passed_follows hE (passRight_follows hE hl hr op leftHead rightHead)
  have hboth (leftFirst : Bool) :=
    passed_follows hE (passBoth_follows hE hl hr leftFirst op leftHead rightHead)
  unfold nextMerged
  split
  · exact .pure ⟨hl, hr⟩
  · split
    · exact hleft _
    · exact hleft _
    · exact .pure ⟨hl, hr⟩
  · split
    · exact hright _
    · exact .pure ⟨hl, hr⟩
    · exact .pure ⟨hl, hr⟩
  · split
    · exact .pure ⟨hl, hr⟩
    · exact hleft _
    · exact hleft _
    · exact hpastLeft
    · exact hright _
    · exact hpastRight
    · exact hpastRight
    · exact (hboth false).1 _
    · exact (hboth false).1 _
    · exact (hboth true).2

end merge

theorem keyOf_follows (hE : E.Follows R E') {key : Option (Expr × Context)}
    (h : ∀ k ∈ key, k.1.Direct false ∧ k.2.locals = []) (n : Node) :
    Action.Follows R (fun _ => True) (keyOf E key n) (keyOf E' key n) := by
  cases key with
  | none => exact .pure trivial
  | some k => exact hE.string (h k rfl).1 (h k rfl).2

theorem nextDistinct_follows (hE : E.Follows R E') {base : Cursor} (h : base.Direct)
    {key : Option (Expr × Context)} (hk : ∀ k ∈ key, k.1.Direct false ∧ k.2.locals = [])
    (seen : List String) :
    Pull.Follows R (nextDistinct E base key seen) (nextDistinct E' base key seen) := by
  refine (hE.next h).bind (fun o rest hrest => ?_) fun _ _ => ⟨_, rfl⟩
  cases o with
  | none => exact .pure ⟨hrest, hk⟩
  | some n =>
    refine Pull.Follows.bind_attempt (keyOf_follows hE hk n) (fun k _ => ?_) fun _ => ⟨_, rfl⟩
    dsimp only
    split
    · exact hE.next ⟨hrest, hk⟩
    · exact .pure ⟨hrest, hk⟩

theorem nextStep_follows (hE : E.Follows R E') {start : Cursor} (h : start.Direct) {plan : StepPlan}
    (hp : AllDirect (fun _ => true) plan.predicates) {context : Context} (hc : context.locals = [])
    {current : Cursor} (hcurrent : current.Direct) (sorted : Bool) :
    Pull.Follows R (nextStep E start plan context current sorted)
      (nextStep E' start plan context current sorted) := by
  refine (hE.next hcurrent).bind (fun o rest hrest => ?_) fun _ _ => ⟨_, rfl⟩
  cases o with
  | some n => exact .pure ⟨h, hp, hc, hrest⟩
  | none =>
    refine (hE.next h).bind (fun o rest hrest => ?_) fun _ _ => ⟨_, rfl⟩
    cases o with
    | none => exact .pure ⟨hrest, hp, hc, trivial⟩
    | some origin => exact hE.next ⟨hrest, hp, hc, ofStep_direct hp origin hc⟩

theorem next_follows (hE : E.Follows R E') {c : Cursor} (h : c.Direct) :
    Pull.Follows R (c.next E) (c.next E') := by
  cases c with
  | listed flags size rest =>
    cases rest with
    | nil => exact .pure h
    | cons n rest => exact .pure h
  | lookahead base =>
    have hbase : base.Direct := h
    exact nextAhead_follows hE hbase _ _ _
  | filter => exact nextSelected_follows hE h.1 h.2.1 h.2.2 _ _ _
  | merge => exact nextMerged_follows hE h.1 h.2 _ _ _
  | distinct => exact nextDistinct_follows hE h.1 h.2 _
  | steps => exact nextStep_follows hE h.1 h.2.1 h.2.2.1 h.2.2.2 _

theorem drain_follows (hE : E.Follows R E') {c : Cursor} (h : c.Direct) :
    Action.Follows R (fun _ => True) (c.drain E) (c.drain E') := by
  refine (hE.pull h).bind fun p hp => ?_
  obtain ⟨o, rest⟩ := p
  cases o with
  | none => exact .pure trivial
  | some n => exact (hE.drain hp).map_any

theorem find_follows (hE : E.Follows R E') (test : Node → Bool) {c : Cursor} (h : c.Direct) :
    Action.Follows R (fun _ => True) (c.find E test) (c.find E' test) := by
  refine (hE.pull h).bind fun p hp => ?_
  obtain ⟨o, rest⟩ := p
  cases o with
  | none => exact .pure trivial
  | some n => exact .ite (fun _ => .pure trivial) fun _ => hE.find test hp

theorem startMerge_follows (hE : E.Follows R E') (op : SetOperator) {left right : Cursor}
    (hl : left.Direct) (hr : right.Direct) :
    Action.Follows R Cursor.Direct (startMerge E op left right) (startMerge E' op left right) := by
  refine (hE.sortedCursor hl).bind fun left hl => ?_
  refine (hE.pull hl).bind fun p hp => ?_
  refine (hE.sortedCursor hr).bind fun right hr => ?_
  exact (hE.pull hr).bind fun q hq => .pure ⟨hp, hq⟩

theorem startDistinct_follows (hE : E.Follows R E') {base : Cursor} (h : base.Direct)
    {key : Option Expr} (hk : ∀ k ∈ key, k.Direct false) {context : Context}
    (hc : context.locals = []) :
    Action.Follows R Cursor.Direct (startDistinct E base key context)
      (startDistinct E' base key context) := by
  refine (hE.sortedCursor h).map fun c hd => ⟨hd, fun k hmem => ?_⟩
  obtain ⟨k, hin, rfl⟩ := Option.mem_map.mp hmem
  exact ⟨hk k hin, hc⟩

end Cursor

namespace NodeSet

variable {ns : NodeSet}

theorem cursorOfExtent_follows (e : Extent) (sort : Bool) :
    Action.Follows R Cursor.Direct (cursorOfExtent e sort) (cursorOfExtent e sort) :=
  .ite (fun _ => (Action.Follows.ofExcept_any e.sort).map fun _ _ => trivial)
    fun _ => .pure trivial

theorem scan_follows (E E' : Engine) (h : ns.AtHand) :
    Action.Follows R Cursor.Direct (ns.scan T E) (ns.scan T E') := by
  cases ns with
  | empty => exact .pure trivial
  | single => exact .pure trivial
  | extent => exact .pure trivial
  | intent id definition => exact absurd rfl (h id definition)

theorem enumerate_follows (E E' : Engine) (h : ns.AtHand) :
    Action.Follows R Cursor.Direct (ns.enumerate T E) (ns.enumerate T E') :=
  .ite (fun _ => scan_follows E E' h) fun _ => .fail

theorem enumerateSorted_follows (E E' : Engine) (h : ns.AtHand) (sort : Bool) :
    Action.Follows R Cursor.Direct (ns.enumerateSorted T E sort)
      (ns.enumerateSorted T E' sort) := by
  cases ns with
  | empty => exact enumerate_follows E E' h
  | single => exact enumerate_follows E E' h
  | extent e => exact cursorOfExtent_follows e sort
  | intent id definition => exact absurd rfl (h id definition)

theorem count_follows (E E' : Engine) (h : ns.AtHand) :
    Action.Follows R (fun _ => True) (ns.count T E) (ns.count T E') := by
  cases ns with
  | empty => exact .pure trivial
  | single => exact .pure trivial
  | extent e => exact (Action.Follows.ofExcept_any e.sort).map_any
  | intent id definition => exact absurd rfl (h id definition)

theorem first_follows (E E' : Engine) (h : ns.AtHand) :
    Action.Follows R (fun _ => True) (ns.first T E) (ns.first T E') := by
  cases ns with
  | empty => exact .pure trivial
  | single => exact .pure trivial
  | extent e => exact .ofExcept_any _
  | intent id definition => exact absurd rfl (h id definition)

theorem materialize_follows (hE : E.Follows R E') (h : ns.AtHand) :
    Action.Follows R (fun _ => True) (ns.materialize T E) (ns.materialize T E') := by
  cases ns with
  | empty => exact (scan_follows E E' h).bind fun c hc => hE.extent hc
  | single => exact (scan_follows E E' h).bind fun c hc => hE.extent hc
  | extent e => exact .ofExcept_any _
  | intent id definition => exact absurd rfl (h id definition)

theorem members_follows (hE : E.Follows R E') (h : ns.AtHand) :
    Action.Follows R (fun _ => True) (ns.members T E) (ns.members T E') :=
  (enumerate_follows E E' h).bind fun _ hc => hE.drain hc

theorem asString_follows (E E' : Engine) (h : ns.AtHand) :
    Action.Follows R (fun _ => True) (ns.asString T E) (ns.asString T E') :=
  (first_follows E E' h).map_any

theorem asBoolean_follows (E E' : Engine) (h : ns.AtHand) :
    Action.Follows R (fun _ => True) (ns.asBoolean T E) (ns.asBoolean T E') := by
  cases ns with
  | empty => exact .pure trivial
  | single => exact .pure trivial
  | extent => exact .pure trivial
  | intent id definition => exact absurd rfl (h id definition)

end NodeSet

namespace Value

variable {v a b : Value}

theorem asString_follows (E E' : Engine) (h : v.AtHand) :
    Action.Follows R (fun _ => True) (v.asString T E) (v.asString T E') := by
  cases v with
  | nodeSet ns => exact NodeSet.asString_follows E E' (h ns rfl)
  | string => exact .pure trivial
  | number => exact .pure trivial
  | boolean => exact .pure trivial
  | object => exact .pure trivial

theorem asNumber_follows (E E' : Engine) (h : v.AtHand) :
    Action.Follows R (fun _ => True) (v.asNumber T E) (v.asNumber T E') := by
  cases v with
  | nodeSet ns => exact (NodeSet.asString_follows E E' (h ns rfl)).map_any
  | string => exact .pure trivial
  | number => exact .pure trivial
  | boolean => exact .pure trivial
  | object => exact .pure trivial

theorem asBoolean_follows (E E' : Engine) (h : v.AtHand) :
    Action.Follows R (fun _ => True) (v.asBoolean T E) (v.asBoolean T E') := by
  cases v with
  | nodeSet ns => exact NodeSet.asBoolean_follows E E' (h ns rfl)
  | string => exact .pure trivial
  | number => exact .pure trivial
  | boolean => exact .pure trivial
  | object => exact .pure trivial

theorem compareMembers_follows (hE : E.Follows R E') {ns : NodeSet} (h : ns.AtHand)
    (op : Comparison) (v : Value) :
    Action.Follows R (fun _ => True) (compareMembers T E ns op v)
      (compareMembers T E' ns op v) := by
  cases v with
  | boolean b => exact (NodeSet.asBoolean_follows E E' h).map_any
  | number x => exact (NodeSet.scan_follows E E' h).bind fun c hc => hE.find _ hc
  | string s => exact (NodeSet.scan_follows E E' h).bind fun c hc => hE.find _ hc
  | object => exact .pure trivial
  | nodeSet => exact .pure trivial

theorem compareNodeSets_follows (hE : E.Follows R E') {a b : NodeSet} (ha : a.AtHand)
    (op : Comparison) (hb : b.AtHand) :
    Action.Follows R (fun _ => True) (compareNodeSets T E a op b)
      (compareNodeSets T E' a op b) := by
  refine (NodeSet.scan_follows E E' ha).bind fun c hc => ?_
  refine (hE.drain hc).bind fun left _ => .ite (fun _ => .pure trivial) fun _ => ?_
  exact (NodeSet.scan_follows E E' hb).bind fun c hc => (hE.drain hc).map_any

theorem compareScalars_follows (E E' : Engine) (ha : a.AtHand) (op : Comparison) (hb : b.AtHand) :
    Action.Follows R (fun _ => True) (compareScalars T E a op b) (compareScalars T E' a op b) := by
  have hbooleans := (asBoolean_follows (R := R) (T := T) E E' ha).bind fun x _ =>
    (asBoolean_follows (R := R) (T := T) E E' hb).map_any (f := op.booleans x)
  have hnumbers := (asNumber_follows (R := R) (T := T) E E' ha).bind fun x _ =>
    (asNumber_follows (R := R) (T := T) E E' hb).map_any (f := op.numbers x)
  have hstrings := (asString_follows (R := R) (T := T) E E' ha).bind fun x _ =>
    (asString_follows (R := R) (T := T) E E' hb).map_any (f := op.strings x)
  unfold compareScalars
  refine .ite (fun _ => ?_) fun _ => hnumbers
  split
  · exact hbooleans
  · exact hbooleans
  · exact hnumbers
  · exact hnumbers
  · exact hstrings

theorem compare_follows (hE : E.Follows R E') (ha : a.AtHand) (op : Comparison) (hb : b.AtHand) :
    Action.Follows R (fun _ => True) (a.compare T E op b) (a.compare T E' op b) := by
  unfold compare
  split
  · exact compareNodeSets_follows hE (ha _ rfl) op (hb _ rfl)
  · exact compareMembers_follows hE (ha _ rfl) op _
  · exact compareMembers_follows hE (hb _ rfl) _ _
  · exact compareScalars_follows E E' ha op hb

end Value

namespace Sorting

theorem keyValue_follows (hE : E.Follows R E') (rule : SortRule) {key : Expr} (hk : key.Direct true)
    {focus : Context} (hc : focus.locals = []) :
    Action.Follows R (fun _ => True) (keyValue E rule key focus) (keyValue E' rule key focus) := by
  unfold keyValue
  split
  · exact (hE.number hk hc).map_any
  · exact (hE.string hk.read hc).map_any

theorem keyValues_follows (hE : E.Follows R E') {focus : Context} (hc : focus.locals = [])
    {keys : List (Expr × SortRule)} (hk : ∀ k ∈ keys, k.1.Direct true) :
    Action.Follows R (fun _ => True) (keyValues E focus keys) (keyValues E' focus keys) := by
  induction keys with
  | nil => exact .pure trivial
  | cons key rest ih =>
    obtain ⟨hkey, hrest⟩ := List.forall_mem_cons.mp hk
    exact (keyValue_follows hE key.2 hkey hc).bind fun v _ => (ih hrest).map_any

theorem records_follows (hE : E.Follows R E') {keys : List (Expr × SortRule)}
    (hk : ∀ k ∈ keys, k.1.Direct true) {context : Context} (hc : context.locals = [])
    (last position : Nat) (nodes : List Node) :
    Action.Follows R (fun _ => True) (records E keys context last position nodes)
      (records E' keys context last position nodes) := by
  induction nodes generalizing position with
  | nil => exact .pure trivial
  | cons n rest ih =>
    have hfocus : ((context.withFocus n position last).withCurrent n).locals = [] := hc
    exact (keyValues_follows hE hfocus hk).bind fun values _ => (ih (position + 1)).map_any

theorem sortNodes_follows (hE : E.Follows R E') (nodes : List Node) {keys : List (Expr × SortRule)}
    (hk : ∀ k ∈ keys, k.1.Direct true) {context : Context} (hc : context.locals = []) :
    Action.Follows R (fun _ => True) (sortNodes E nodes keys context)
      (sortNodes E' nodes keys context) :=
  (records_follows hE hk hc _ 1 nodes).map_any

end Sorting

end PathLanguage
