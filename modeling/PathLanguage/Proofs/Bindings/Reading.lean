/- Reading cursors, and what is asked of node-sets and values, is tidy. -/
import PathLanguage.Proofs.Bindings.Table

namespace PathLanguage

variable {T : Transformation} {E : Engine}

namespace Cursor

theorem nextAhead_tidy (hE : E.Tidy) (base : Cursor) (buffer : List Node) (delivered : Nat)
    (exhausted : Bool) : Tidy (nextAhead E base buffer delivered exhausted) := by
  cases buffer with
  | cons n rest => exact .pure _
  | nil =>
    cases exhausted with
    | true => exact .pure _
    | false =>
      apply (hE.next base).bind
      intro p
      split <;> exact .pure _

theorem size_tidy (hE : E.Tidy) (c : Cursor) : Tidy (c.size E) := by
  cases c with
  | lookahead base buffer delivered exhausted =>
    cases exhausted with
    | true => exact .pure _
    | false =>
      apply (hE.next base).bind
      intro p
      split
      · exact .pure _
      · exact .pure _
      · exact hE.size _
  | listed => exact .pure _
  | filter => exact .pure _
  | merge => exact .pure _
  | distinct => exact .pure _
  | steps => exact .pure _

theorem accepts_tidy (hE : E.Tidy) (s : Selection) (n : Node) (position last : Nat) :
    (accepts E s n position last).Tidy := by
  unfold accepts
  extract_lets focus
  split
  · exact .pure _
  · exact (hE.number _ _).map _
  · exact hE.boolean _ _
  · apply (hE.value _ _).bind
    intro v
    split
    · exact .pure _
    · exact hE.boolean _ _

theorem baseSize_tidy (hE : E.Tidy) (base : Cursor) (s : Selection) (last : Option Nat)
    (position : Nat) : Tidy (baseSize E base s last position) := by
  unfold baseSize
  split
  · exact .pure _
  · exact .pure _
  · exact .pure _
  · exact (hE.size base).bind fun p => .pure _

theorem nextSelected_tidy (hE : E.Tidy) (base : Cursor) (s : Selection) (last : Option Nat)
    (position : Nat) (finished : Bool) : Tidy (nextSelected E base s last position finished) := by
  unfold nextSelected
  extract_lets beyond
  split
  · exact .pure _
  apply (hE.next base).bind
  intro p
  split
  · exact .pure _
  · exact .pure _
  apply (baseSize_tidy hE p.rest s last _).bind
  intro q
  split
  · exact .pure _
  apply Tidy.bind (accepts_tidy hE s _ _ _)
  intro accepted
  split
  · exact .pure _
  · exact .pure _
  · exact hE.next _

section merge

variable (op : SetOperator) (left : Cursor) (leftHead : Option Node) (right : Cursor)
  (rightHead : Option Node)

theorem passLeft_tidy (hE : E.Tidy) : Tidy (passLeft E op left leftHead right rightHead) := by
  apply (hE.next left).bind
  intro p
  split <;> exact .pure _

theorem passRight_tidy (hE : E.Tidy) : Tidy (passRight E op left leftHead right rightHead) := by
  apply (hE.next right).bind
  intro p
  split <;> exact .pure _

theorem passBoth_tidy (hE : E.Tidy) (leftFirst : Bool) :
    Tidy (passBoth E leftFirst op left leftHead right rightHead) := by
  cases leftFirst with
  | true =>
    apply (passLeft_tidy op left leftHead right rightHead hE).bind
    intro first
    split
    · exact passRight_tidy _ _ _ _ _ hE
    · exact .pure _
  | false =>
    apply (passRight_tidy op left leftHead right rightHead hE).bind
    intro first
    split
    · exact passLeft_tidy _ _ _ _ _ hE
    · exact .pure _

theorem goOn_tidy (hE : E.Tidy) (passed : Pull Unit) : Tidy (goOn E passed) := by
  unfold goOn
  split
  · exact hE.next _
  · exact .pure _

theorem nextMerged_tidy (hE : E.Tidy) : Tidy (nextMerged E op left leftHead right rightHead) := by
  have hleft := passLeft_tidy op left leftHead right rightHead hE
  have hright := passRight_tidy op left leftHead right rightHead hE
  unfold nextMerged
  split
  · exact .pure _
  · split
    · exact hleft.bind fun passed => .pure _
    · exact hleft.bind fun passed => .pure _
    · exact .pure _
  · split
    · exact hright.bind fun passed => .pure _
    · exact .pure _
    · exact .pure _
  · split
    · exact .pure _
    · exact hleft.bind fun passed => .pure _
    · exact hleft.bind fun passed => .pure _
    · exact hleft.bind (goOn_tidy hE)
    · exact hright.bind fun passed => .pure _
    · exact hright.bind (goOn_tidy hE)
    · exact hright.bind (goOn_tidy hE)
    · exact (passBoth_tidy _ _ _ _ _ hE false).bind fun passed => .pure _
    · exact (passBoth_tidy _ _ _ _ _ hE false).bind fun passed => .pure _
    · exact (passBoth_tidy _ _ _ _ _ hE true).bind (goOn_tidy hE)

end merge

theorem keyOf_tidy (hE : E.Tidy) (key : Option (Expr × Context)) (n : Node) :
    (keyOf E key n).Tidy := by
  cases key with
  | none => exact .pure _
  | some p => exact hE.string _ _

theorem nextDistinct_tidy (hE : E.Tidy) (base : Cursor) (key : Option (Expr × Context))
    (seen : List String) : Tidy (nextDistinct E base key seen) := by
  apply (hE.next base).bind
  intro p
  split
  · exact .pure _
  · exact .pure _
  apply Tidy.bind (keyOf_tidy hE key _)
  intro k
  split
  · exact .pure _
  · split
    · exact hE.next _
    · exact .pure _

theorem nextStep_tidy (hE : E.Tidy) (start : Cursor) (plan : StepPlan) (context : Context)
    (current : Cursor) (sorted : Bool) : Tidy (nextStep E start plan context current sorted) := by
  apply (hE.next current).bind
  intro p
  split
  · exact .pure _
  · exact .pure _
  apply (hE.next start).bind
  intro q
  split
  · exact .pure _
  · exact .pure _
  · exact hE.next _

theorem next_tidy (hE : E.Tidy) (c : Cursor) : Tidy (c.next E) := by
  cases c with
  | listed flags size rest =>
    cases rest with
    | nil => exact .pure _
    | cons n rest => exact .pure _
  | lookahead => exact nextAhead_tidy hE _ _ _ _
  | filter => exact nextSelected_tidy hE _ _ _ _ _
  | merge => exact nextMerged_tidy _ _ _ _ _ hE
  | distinct => exact nextDistinct_tidy hE _ _ _
  | steps => exact nextStep_tidy hE _ _ _ _ _

theorem drain_tidy (hE : E.Tidy) (c : Cursor) : (c.drain E).Tidy := by
  apply (hE.pull c).bind
  intro p
  split
  · exact (hE.drain _).map _
  · exact .pure _

theorem find_tidy (hE : E.Tidy) (test : Node → Bool) (c : Cursor) : (c.find E test).Tidy := by
  apply (hE.pull c).bind
  intro p
  split
  · exact .ite (.pure _) (hE.find test _)
  · exact .pure _

theorem startMerge_tidy (hE : E.Tidy) (op : SetOperator) (left right : Cursor) :
    (startMerge E op left right).Tidy := by
  apply (hE.sortedCursor left).bind
  intro left
  apply (hE.pull left).bind
  intro p
  apply (hE.sortedCursor right).bind
  intro right
  exact (hE.pull right).bind fun q => .pure _

theorem startDistinct_tidy (hE : E.Tidy) (base : Cursor) (key : Option Expr) (context : Context) :
    (startDistinct E base key context).Tidy :=
  (hE.sortedCursor base).map _

end Cursor

namespace NodeSet

theorem materializeIntent_tidy (hE : E.Tidy) (id : Nat) (definition : Expr) :
    (materializeIntent T E id definition).Tidy := by
  apply Action.Tidy.get
  intro s
  split
  · exact .pure _
  apply (hE.cursor definition _ false).bind
  intro c
  apply (hE.extent c).bind
  intro e
  exact .update fun _ => rfl

theorem registerUse_tidy (id : Nat) : (registerUse T id).Tidy := .update fun _ => rfl

theorem cursorOfExtent_tidy (e : Extent) (sort : Bool) : (cursorOfExtent e sort).Tidy :=
  .ite ((Action.Tidy.ofExcept e.sort).map _) (.pure _)

theorem enumerateIntent_tidy (hE : E.Tidy) (id : Nat) (definition : Expr) (sort : Bool) :
    (enumerateIntent T E id definition sort).Tidy := by
  apply Action.Tidy.get
  intro s
  split
  · exact cursorOfExtent_tidy _ sort
  apply (registerUse_tidy id).bind
  intro keep
  apply Action.Tidy.ite
  · exact (materializeIntent_tidy hE id definition).bind fun e => cursorOfExtent_tidy e sort
  · exact hE.cursor _ _ _

theorem scan_tidy (hE : E.Tidy) (ns : NodeSet) : (ns.scan T E).Tidy := by
  cases ns with
  | empty => exact .pure _
  | single => exact .pure _
  | extent => exact .pure _
  | intent id definition => exact enumerateIntent_tidy hE id definition false

theorem enumerate_tidy (hE : E.Tidy) (ns : NodeSet) : (ns.enumerate T E).Tidy :=
  .ite (scan_tidy hE ns) (.fail _)

theorem enumerateSorted_tidy (hE : E.Tidy) (ns : NodeSet) (sort : Bool) :
    (ns.enumerateSorted T E sort).Tidy := by
  cases ns with
  | empty => exact enumerate_tidy hE _
  | single => exact enumerate_tidy hE _
  | extent e => exact cursorOfExtent_tidy e sort
  | intent id definition => exact enumerateIntent_tidy hE id definition sort

theorem count_tidy (hE : E.Tidy) (ns : NodeSet) : (ns.count T E).Tidy := by
  cases ns with
  | empty => exact .pure _
  | single => exact .pure _
  | extent e => exact (Action.Tidy.ofExcept e.sort).map _
  | intent id definition =>
    have hsorted (e : Extent) : (do return (← Action.ofExcept e.sort).nodes.length).Tidy :=
      (Action.Tidy.ofExcept e.sort).map _
    apply Action.Tidy.get
    intro s
    split
    · exact hsorted _
    apply (hE.cursor definition _ false).bind
    intro c
    extract_lets afterwards
    have hafter (told : Option Nat) : (afterwards told).Tidy := by
      cases told with
      | some n => exact .pure _
      | none => exact (materializeIntent_tidy hE id definition).bind hsorted
    apply Action.Tidy.ite
    · apply (Action.Tidy.lift (hE.size c)).bind
      intro p
      exact (Action.Tidy.ofExcept p.outcome).bind hafter
    · exact (Action.Tidy.pure none).bind hafter

theorem first_tidy (hE : E.Tidy) (ns : NodeSet) : (ns.first T E).Tidy := by
  cases ns with
  | empty => exact .pure _
  | single => exact .pure _
  | extent e => exact .ofExcept _
  | intent id definition =>
    apply Action.Tidy.get
    intro s
    split
    · exact .ofExcept _
    apply (hE.cursor definition _ false).bind
    intro c
    exact .ite (hE.head c) ((hE.extent c).bind fun e => .ofExcept _)

theorem materialize_tidy (hE : E.Tidy) (ns : NodeSet) : (ns.materialize T E).Tidy := by
  cases ns with
  | empty => exact (scan_tidy hE _).bind hE.extent
  | single => exact (scan_tidy hE _).bind hE.extent
  | extent e => exact .ofExcept _
  | intent id definition =>
    exact (materializeIntent_tidy hE id definition).bind fun e => .ofExcept _

theorem members_tidy (hE : E.Tidy) (ns : NodeSet) : (ns.members T E).Tidy :=
  (enumerate_tidy hE ns).bind hE.drain

theorem asString_tidy (hE : E.Tidy) (ns : NodeSet) : (ns.asString T E).Tidy :=
  (first_tidy hE ns).map _

theorem asBoolean_tidy (hE : E.Tidy) (ns : NodeSet) : (ns.asBoolean T E).Tidy := by
  cases ns with
  | empty => exact .pure _
  | single => exact .pure _
  | extent => exact .pure _
  | intent id definition =>
    apply (enumerateIntent_tidy hE id definition false).bind
    intro c
    exact (hE.head c).map _

theorem ofDefinition_tidy (definition : Expr) : (ofDefinition definition).Tidy :=
  .ite (.update fun _ => rfl) (.fail _)

end NodeSet

namespace Value

theorem asString_tidy (hE : E.Tidy) (v : Value) : (v.asString T E).Tidy := by
  cases v with
  | nodeSet ns => exact NodeSet.asString_tidy hE ns
  | string => exact .pure _
  | number => exact .pure _
  | boolean => exact .pure _
  | object => exact .pure _

theorem asNumber_tidy (hE : E.Tidy) (v : Value) : (v.asNumber T E).Tidy := by
  cases v with
  | nodeSet ns => exact (NodeSet.asString_tidy hE ns).map _
  | string => exact .pure _
  | number => exact .pure _
  | boolean => exact .pure _
  | object => exact .pure _

theorem asBoolean_tidy (hE : E.Tidy) (v : Value) : (v.asBoolean T E).Tidy := by
  cases v with
  | nodeSet ns => exact NodeSet.asBoolean_tidy hE ns
  | string => exact .pure _
  | number => exact .pure _
  | boolean => exact .pure _
  | object => exact .pure _

theorem compareMembers_tidy (hE : E.Tidy) (ns : NodeSet) (op : Comparison) (v : Value) :
    (compareMembers T E ns op v).Tidy := by
  cases v with
  | boolean b => exact (NodeSet.asBoolean_tidy hE ns).map _
  | number x => exact (NodeSet.scan_tidy hE ns).bind fun c => hE.find _ c
  | string s => exact (NodeSet.scan_tidy hE ns).bind fun c => hE.find _ c
  | object => exact .pure _
  | nodeSet => exact .pure _

theorem compareNodeSets_tidy (hE : E.Tidy) (a : NodeSet) (op : Comparison) (b : NodeSet) :
    (compareNodeSets T E a op b).Tidy := by
  apply (NodeSet.scan_tidy hE a).bind
  intro left
  apply (hE.drain left).bind
  intro left
  apply Action.Tidy.ite (.pure _)
  apply (NodeSet.scan_tidy hE b).bind
  intro right
  exact (hE.drain right).map _

theorem compareScalars_tidy (hE : E.Tidy) (a : Value) (op : Comparison) (b : Value) :
    (compareScalars T E a op b).Tidy := by
  have hbooleans := (asBoolean_tidy (T := T) hE a).bind fun x =>
    (asBoolean_tidy (T := T) hE b).map fun y => op.booleans x y
  have hnumbers := (asNumber_tidy (T := T) hE a).bind fun x =>
    (asNumber_tidy (T := T) hE b).map fun y => op.numbers x y
  have hstrings := (asString_tidy (T := T) hE a).bind fun x =>
    (asString_tidy (T := T) hE b).map fun y => op.strings x y
  unfold compareScalars
  apply Action.Tidy.ite
  · split
    · exact hbooleans
    · exact hbooleans
    · exact hnumbers
    · exact hnumbers
    · exact hstrings
  · exact hnumbers

theorem compare_tidy (hE : E.Tidy) (a : Value) (op : Comparison) (b : Value) :
    (a.compare T E op b).Tidy := by
  unfold compare
  split
  · exact compareNodeSets_tidy hE _ op _
  · exact compareMembers_tidy hE _ op _
  · exact compareMembers_tidy hE _ _ _
  · exact compareScalars_tidy hE _ op _

end Value

namespace Sorting

theorem keyValue_tidy (hE : E.Tidy) (rule : SortRule) (key : Expr) (focus : Context) :
    (keyValue E rule key focus).Tidy := by
  unfold keyValue
  split
  · exact (hE.number key focus).map _
  · exact (hE.string key focus).map _

theorem keyValues_tidy (hE : E.Tidy) (focus : Context) (keys : List (Expr × SortRule)) :
    (keyValues E focus keys).Tidy := by
  induction keys with
  | nil => exact .pure _
  | cons key rest ih => exact (keyValue_tidy hE key.2 key.1 focus).bind fun v => ih.map _

theorem records_tidy (hE : E.Tidy) (keys : List (Expr × SortRule)) (context : Context)
    (last position : Nat) (nodes : List Node) :
    (records E keys context last position nodes).Tidy := by
  induction nodes generalizing position with
  | nil => exact .pure _
  | cons n rest ih => exact (keyValues_tidy hE _ keys).bind fun values => (ih (position + 1)).map _

theorem sortNodes_tidy (hE : E.Tidy) (nodes : List Node) (keys : List (Expr × SortRule))
    (context : Context) : (sortNodes E nodes keys context).Tidy :=
  (records_tidy hE keys context _ 1 nodes).map _

end Sorting

end PathLanguage
