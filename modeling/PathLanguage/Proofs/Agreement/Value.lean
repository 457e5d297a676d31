/- Values and node-sets that are alike: in use they are told apart by nothing. -/
import PathLanguage.Evaluation.Key
import PathLanguage.Evaluation.Sorting
import PathLanguage.Proofs.Agreement.Reading

namespace PathLanguage

variable {T : Transformation} {E : Engine}

namespace NodeSet

variable {d d' : Expr} {ns ns' : NodeSet}

theorem materializeIntent_inStep (hE : E.Steady T) (id : Nat) (hd : d.Alike d') :
    Action.InStep Eq (materializeIntent T E id d) (materializeIntent T E id d') := by
  refine Action.InStep.get.bind fun s s' hs => ?_
  rw [← (hs.intent id).extent]
  split
  · exact .pure rfl
  · refine (hE.cursor false (hd.ask T _)).bind fun k k' hk => (hE.extent hk).bind_eq fun e => ?_
    refine .update fun s s' hs => ?_
    have hi := hs.intent id
    dsimp only
    rw [← hi.extent]
    exact ⟨rfl, hs.setIntent id ⟨hi.definition, hi.uses, rfl⟩⟩

theorem registerUse_inStep (T : Transformation) (id : Nat) :
    Action.InStep Eq (registerUse T id) (registerUse T id) := by
  refine .update fun s s' hs => ?_
  have hi := hs.intent id
  dsimp only
  rw [← hi.uses]
  exact ⟨rfl, hs.setIntent id ⟨hi.definition, rfl, hi.extent⟩⟩

theorem cursorOfExtent_inStep (e : Extent) (sort : Bool) :
    Action.InStep (Cursor.Alike T) (cursorOfExtent e sort) (cursorOfExtent e sort) := by
  unfold cursorOfExtent
  split
  · exact (Action.InStep.ofExcept e.sort).bind_eq fun e => .pure (.refl_ofExtent e)
  · exact .pure (.refl_ofExtent e)

theorem enumerateIntent_inStep (hE : E.Steady T) (id : Nat) (hd : d.Alike d') (sort : Bool) :
    Action.InStep (Cursor.Alike T) (enumerateIntent T E id d sort)
      (enumerateIntent T E id d' sort) := by
  refine Action.InStep.get.bind fun s s' hs => ?_
  rw [← (hs.intent id).extent]
  split
  · exact cursorOfExtent_inStep _ sort
  · refine (registerUse_inStep T id).bind_eq fun kept => ?_
    split
    · exact (materializeIntent_inStep hE id hd).bind_eq fun e => cursorOfExtent_inStep e sort
    · exact hE.cursor sort (hd.ask T _)

theorem scan_inStep (hE : E.Steady T) (h : ns.Alike ns') :
    Action.InStep (Cursor.Alike T) (ns.scan T E) (ns'.scan T E) := by
  cases h with
  | empty => exact .pure .refl_empty
  | single n => exact .pure (.refl_ofOption n)
  | extent e => exact .pure (.refl_ofExtent e)
  | intent id hd => exact enumerateIntent_inStep hE id hd false

theorem enumerate_inStep (hE : E.Steady T) (h : ns.Alike ns') :
    Action.InStep (Cursor.Alike T) (ns.enumerate T E) (ns'.enumerate T E) := by
  unfold NodeSet.enumerate
  rw [← h.isNavigable]
  split
  · exact scan_inStep hE h
  · exact .fail _

theorem enumerateSorted_inStep (hE : E.Steady T) (h : ns.Alike ns') (sort : Bool) :
    Action.InStep (Cursor.Alike T) (ns.enumerateSorted T E sort)
      (ns'.enumerateSorted T E sort) := by
  have hplain := enumerate_inStep hE h
  cases h with
  | intent id hd => exact enumerateIntent_inStep hE id hd sort
  | extent e => exact cursorOfExtent_inStep e sort
  | empty | single => exact hplain

/-- The sorted extent of what is read out of either of two definitions that are alike. -/
theorem sortIntent_inStep (hE : E.Steady T) (id : Nat) (hd : d.Alike d') {α : Type}
    (f : Extent → α) :
    Action.InStep Eq
      (do
        let e ← materializeIntent T E id d
        return f (← .ofExcept e.sort))
      (do
        let e ← materializeIntent T E id d'
        return f (← .ofExcept e.sort)) :=
  (materializeIntent_inStep hE id hd).bind_eq fun e => (Action.InStep.ofExcept e.sort).map_eq

theorem count_inStep (hE : E.Steady T) (h : ns.Alike ns') :
    Action.InStep Eq (ns.count T E) (ns'.count T E) := by
  cases h with
  | empty => exact .pure rfl
  | single n => exact .pure rfl
  | extent e => exact (Action.InStep.ofExcept e.sort).map_eq
  | intent id hd =>
    refine Action.InStep.get.bind fun s s' hs => ?_
    rw [← (hs.intent id).extent]
    split
    · exact (Action.InStep.ofExcept _).map_eq
    · refine (hE.cursor false (hd.ask T _)).bind fun k k' hk => ?_
      rw [← hk.flags, ← hk.counts]
      split
      · refine (Action.InStep.lift (hE.size hk)).bind fun p p' hp => ?_
        rw [← hp.outcome]
        refine (Action.InStep.ofExcept p.outcome).bind_eq fun told => ?_
        cases told with
        | some n => exact .pure rfl
        | none => exact sortIntent_inStep hE id hd fun e => e.nodes.length
      · exact sortIntent_inStep hE id hd fun e => e.nodes.length

theorem first_inStep (hE : E.Steady T) (h : ns.Alike ns') :
    Action.InStep Eq (ns.first T E) (ns'.first T E) := by
  cases h with
  | empty => exact .pure rfl
  | single n => exact .pure rfl
  | extent e => exact .ofExcept _
  | intent id hd =>
    refine Action.InStep.get.bind fun s s' hs => ?_
    rw [← (hs.intent id).extent]
    split
    · exact .ofExcept _
    · refine (hE.cursor false (hd.ask T _)).bind fun k k' hk => ?_
      rw [← hk.flags]
      split
      · exact hE.head hk
      · exact (hE.extent hk).bind_eq fun e => .ofExcept _

theorem materialize_inStep (hE : E.Steady T) (h : ns.Alike ns') :
    Action.InStep Eq (ns.materialize T E) (ns'.materialize T E) := by
  have hplain : Action.InStep Eq (do E.extent (← ns.scan T E)) (do E.extent (← ns'.scan T E)) :=
    (scan_inStep hE h).bind fun _ _ hk => hE.extent hk
  cases h with
  | extent e => exact .ofExcept _
  | intent id hd => exact (materializeIntent_inStep hE id hd).bind_eq fun e => .ofExcept _
  | empty | single => exact hplain

theorem members_inStep (hE : E.Steady T) (h : ns.Alike ns') :
    Action.InStep Eq (ns.members T E) (ns'.members T E) :=
  (enumerate_inStep hE h).bind fun _ _ hk => hE.drain hk

theorem asString_inStep (hE : E.Steady T) (h : ns.Alike ns') :
    Action.InStep Eq (ns.asString T E) (ns'.asString T E) :=
  (first_inStep hE h).map_eq

theorem asBoolean_inStep (hE : E.Steady T) (h : ns.Alike ns') :
    Action.InStep Eq (ns.asBoolean T E) (ns'.asBoolean T E) := by
  cases h with
  | empty => exact .pure rfl
  | single n => exact .pure rfl
  | extent e => exact .pure rfl
  | intent id hd =>
    exact (enumerateIntent_inStep hE id hd false).bind fun k k' hk => (hE.head hk).map_eq

theorem ofDefinition_inStep (hd : d.Alike d') (hc : d.dependencies.isEmpty = true) :
    Action.InStep NodeSet.Alike (ofDefinition d) (ofDefinition d') := by
  unfold ofDefinition
  rw [← hd.dependencies, if_pos hc, if_pos hc]
  refine .update fun s s' hs => ?_
  obtain ⟨hid, ht⟩ := hs.newIntent hd
  dsimp only
  rw [← hid]
  exact ⟨.intent _ hd, ht⟩

end NodeSet

namespace Value

variable {v v' w w' : Value} {ns ns' : NodeSet}

theorem asString_inStep (hE : E.Steady T) (h : v.Alike v') :
    Action.InStep Eq (v.asString T E) (v'.asString T E) := by
  cases h with
  | nodeSet h => exact NodeSet.asString_inStep hE h
  | string | number | boolean | object => exact .pure rfl

theorem asNumber_inStep (hE : E.Steady T) (h : v.Alike v') :
    Action.InStep Eq (v.asNumber T E) (v'.asNumber T E) := by
  cases h with
  | nodeSet h => exact (NodeSet.asString_inStep hE h).map_eq
  | string | number | boolean | object => exact .pure rfl

theorem asBoolean_inStep (hE : E.Steady T) (h : v.Alike v') :
    Action.InStep Eq (v.asBoolean T E) (v'.asBoolean T E) := by
  cases h with
  | nodeSet h => exact NodeSet.asBoolean_inStep hE h
  | string | number | boolean | object => exact .pure rfl

theorem compareMembers_inStep (hE : E.Steady T) (h : ns.Alike ns') (op : Comparison)
    (hv : v.Alike v') :
    Action.InStep Eq (compareMembers T E ns op v) (compareMembers T E ns' op v') := by
  cases hv with
  | boolean b => exact (NodeSet.asBoolean_inStep hE h).map_eq
  | number x => exact (NodeSet.scan_inStep hE h).bind fun _ _ hk => hE.find _ hk
  | string s => exact (NodeSet.scan_inStep hE h).bind fun _ _ hk => hE.find _ hk
  | object | nodeSet => exact .pure rfl

theorem compareNodeSets_inStep (hE : E.Steady T) {ms ms' : NodeSet} (h : ns.Alike ns')
    (op : Comparison) (hm : ms.Alike ms') :
    Action.InStep Eq (compareNodeSets T E ns op ms) (compareNodeSets T E ns' op ms') := by
  refine (NodeSet.scan_inStep hE h).bind fun _ _ hk => (hE.drain hk).bind_eq fun left => ?_
  split
  · exact .pure rfl
  · exact (NodeSet.scan_inStep hE hm).bind fun _ _ hk => (hE.drain hk).map_eq

theorem compareScalars_inStep (hE : E.Steady T) (hv : v.Alike v') (op : Comparison)
    (hw : w.Alike w') :
    Action.InStep Eq (compareScalars T E v op w) (compareScalars T E v' op w') := by
  have hbooleans : Action.InStep Eq
      (do return op.booleans (← v.asBoolean T E) (← w.asBoolean T E))
      (do return op.booleans (← v'.asBoolean T E) (← w'.asBoolean T E)) :=
    (asBoolean_inStep hE hv).bind_eq fun _ => (asBoolean_inStep hE hw).map_eq
  have hnumbers : Action.InStep Eq
      (do return op.numbers (← v.asNumber T E) (← w.asNumber T E))
      (do return op.numbers (← v'.asNumber T E) (← w'.asNumber T E)) :=
    (asNumber_inStep hE hv).bind_eq fun _ => (asNumber_inStep hE hw).map_eq
  have hstrings : Action.InStep Eq
      (do return op.strings (← v.asString T E) (← w.asString T E))
      (do return op.strings (← v'.asString T E) (← w'.asString T E)) :=
    (asString_inStep hE hv).bind_eq fun _ => (asString_inStep hE hw).map_eq
  unfold compareScalars
  split
  · cases hv <;> cases hw <;> first | exact hbooleans | exact hnumbers | exact hstrings
  · exact hnumbers

theorem compare_inStep (hE : E.Steady T) (hv : v.Alike v') (op : Comparison) (hw : w.Alike w') :
    Action.InStep Eq (v.compare T E op w) (v'.compare T E op w') := by
  have hscalars := compareScalars_inStep hE hv op hw
  cases hv with
  | nodeSet h =>
    have hmembers := compareMembers_inStep hE h op hw
    cases hw with
    | nodeSet hm => exact compareNodeSets_inStep hE h op hm
    | string | number | boolean | object => exact hmembers
  | string | number | boolean | object =>
    cases hw with
    | nodeSet hm => exact compareMembers_inStep hE hm op.inverse (.refl _)
    | string | number | boolean | object => exact hscalars

end Value

namespace Sorting

theorem keyValue_inStep (hE : E.Steady T) (rule : SortRule) {key key' : Expr} {c c' : Context}
    (h : AskAlike T key key' c c') :
    Action.InStep Eq (keyValue E rule key c) (keyValue E rule key' c') := by
  unfold keyValue
  split
  · exact (hE.number h).map_eq
  · exact (hE.string h).map_eq

theorem keyValues_inStep (hE : E.Steady T) {keys keys' : List Expr} (rules : List SortRule)
    {c c' : Context} (h : AllAskAlike T keys keys' c c') :
    Action.InStep Eq (keyValues E c (keys.zip rules)) (keyValues E c' (keys'.zip rules)) := by
  induction keys generalizing keys' rules with
  | nil =>
    cases h.alike
    exact .pure rfl
  | cons key keys ih =>
    match keys', h.alike, rules with
    | _ :: _, .cons .., [] => exact .pure rfl
    | _ :: _, .cons .., rule :: rules =>
      exact (keyValue_inStep hE rule h.head).bind_eq fun _ => (ih rules h.tail).map_eq

theorem records_inStep (hE : E.Steady T) {keys keys' : List Expr} (rules : List SortRule)
    {c c' : Context} (last : Nat)
    (h : ∀ n position, AllAskAlike T keys keys' ((c.withFocus n position last).withCurrent n)
      ((c'.withFocus n position last).withCurrent n)) (nodes : List Node) (position : Nat) :
    Action.InStep Eq (records E (keys.zip rules) c last position nodes)
      (records E (keys'.zip rules) c' last position nodes) := by
  induction nodes generalizing position with
  | nil => exact .pure rfl
  | cons n nodes ih =>
    exact (keyValues_inStep hE rules (h n position)).bind_eq fun _ => (ih (position + 1)).map_eq

theorem rules_eq {keys keys' : List Expr} (h : keys.length = keys'.length)
    (rules : List SortRule) : (keys.zip rules).map (·.2) = (keys'.zip rules).map (·.2) := by
  induction keys generalizing keys' rules with
  | nil => rw [List.length_eq_zero_iff.mp h.symm]
  | cons key keys ih =>
    match keys', rules with
    | _ :: keys', rule :: rules => exact congrArg (rule :: ·) (ih (Nat.succ.inj h) rules)
    | _ :: _, [] => rfl

theorem sortNodes_inStep (hE : E.Steady T) {keys keys' : List Expr} (rules : List SortRule)
    {c c' : Context} {d : Dependencies} (ha : AllAlike keys keys')
    (hc : c.Agrees T d (variablesOfAll keys) c') (nodes : List Node) :
    Action.InStep Eq (sortNodes E nodes (keys.zip rules) c)
      (sortNodes E nodes (keys'.zip rules) c') := by
  unfold sortNodes
  rw [rules_eq ha.length_eq]
  exact (records_inStep hE rules nodes.length
    (fun n position => ⟨ha, hc.withCurrentFocus n position _⟩) nodes 1).map_eq

end Sorting

end PathLanguage
