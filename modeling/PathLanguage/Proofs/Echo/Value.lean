/- Values and node-sets that echo one another give the same nodes, strings, numbers and booleans, and
compare alike. -/
import PathLanguage.Evaluation.Sorting
import PathLanguage.Evaluation.Value
import PathLanguage.Proofs.Agreement.Value
import PathLanguage.Proofs.Echo.Reading

namespace PathLanguage

variable {T : Transformation} {h : Pasts} {E E' : Engine}

namespace NodeSet

variable {d d' : Expr} {ns ns' : NodeSet}

theorem materializeIntent_echoes (hE : E.Echoes T h E') (k : Nat) (hd : d.Echo h d') :
    Action.Echoes T h Eq (materializeIntent T E (h.left.intents.length + k) d)
      (materializeIntent T E' (h.right.intents.length + k) d') := by
  refine Action.Echoes.get.bind fun s s' hs => ?_
  rw [← (hs.intent k).extent]
  split
  · exact .pure rfl
  · refine (hE.cursor _ false hd).bind fun c c' hc => (hE.extent hc).bind_eq fun e => ?_
    refine .update fun s s' hs => ?_
    have hi := hs.intent k
    dsimp only
    rw [← hi.extent]
    exact ⟨rfl, hs.setIntent k ⟨hi.definition, hi.uses, rfl⟩⟩

theorem registerUse_echoes (T : Transformation) (h : Pasts) (k : Nat) :
    Action.Echoes T h Eq (registerUse T (h.left.intents.length + k))
      (registerUse T (h.right.intents.length + k)) := by
  refine .update fun s s' hs => ?_
  have hi := hs.intent k
  dsimp only
  rw [← hi.uses]
  exact ⟨rfl, hs.setIntent k ⟨hi.definition, rfl, hi.extent⟩⟩

theorem cursorOfExtent_echoes (e : Extent) (sort : Bool) :
    Action.Echoes T h (Cursor.Echo h) (cursorOfExtent e sort) (cursorOfExtent e sort) := by
  unfold cursorOfExtent
  split
  · exact (Action.Echoes.ofExcept e.sort).bind_eq fun e => .pure (Cursor.echo_ofExtent h e)
  · exact .pure (Cursor.echo_ofExtent h e)

theorem enumerateIntent_echoes (hE : E.Echoes T h E') (k : Nat) (hd : d.Echo h d') (sort : Bool) :
    Action.Echoes T h (Cursor.Echo h) (enumerateIntent T E (h.left.intents.length + k) d sort)
      (enumerateIntent T E' (h.right.intents.length + k) d' sort) := by
  refine Action.Echoes.get.bind fun s s' hs => ?_
  rw [← (hs.intent k).extent]
  split
  · exact cursorOfExtent_echoes _ sort
  · refine (registerUse_echoes T h k).bind_eq fun kept => ?_
    split
    · exact (materializeIntent_echoes hE k hd).bind_eq fun e => cursorOfExtent_echoes e sort
    · exact hE.cursor _ sort hd

theorem scan_echoes (hE : E.Echoes T h E') (hn : ns.Echo h ns') :
    Action.Echoes T h (Cursor.Echo h) (ns.scan T E) (ns'.scan T E') := by
  cases hn with
  | empty => exact .pure (Cursor.echo_empty h)
  | single n => exact .pure (Cursor.echo_ofOption h n)
  | extent e => exact .pure (Cursor.echo_ofExtent h e)
  | intent k hd => exact enumerateIntent_echoes hE k hd false

theorem enumerate_echoes (hE : E.Echoes T h E') (hn : ns.Echo h ns') :
    Action.Echoes T h (Cursor.Echo h) (ns.enumerate T E) (ns'.enumerate T E') := by
  unfold NodeSet.enumerate
  rw [← hn.isNavigable]
  split
  · exact scan_echoes hE hn
  · exact .fail _

theorem enumerateSorted_echoes (hE : E.Echoes T h E') (hn : ns.Echo h ns') (sort : Bool) :
    Action.Echoes T h (Cursor.Echo h) (ns.enumerateSorted T E sort)
      (ns'.enumerateSorted T E' sort) := by
  have hplain := enumerate_echoes hE hn
  cases hn with
  | intent k hd => exact enumerateIntent_echoes hE k hd sort
  | extent e => exact cursorOfExtent_echoes e sort
  | empty | single => exact hplain

/-- The sorted extent of what is read out of either of two definitions. -/
theorem sortIntent_echoes (hE : E.Echoes T h E') (k : Nat) (hd : d.Echo h d') {α : Type}
    (f : Extent → α) :
    Action.Echoes T h Eq
      (do
        let e ← materializeIntent T E (h.left.intents.length + k) d
        return f (← .ofExcept e.sort))
      (do
        let e ← materializeIntent T E' (h.right.intents.length + k) d'
        return f (← .ofExcept e.sort)) :=
  (materializeIntent_echoes hE k hd).bind_eq fun e => (Action.Echoes.ofExcept e.sort).map_eq

theorem count_echoes (hE : E.Echoes T h E') (hn : ns.Echo h ns') :
    Action.Echoes T h Eq (ns.count T E) (ns'.count T E') := by
  cases hn with
  | empty => exact .pure rfl
  | single n => exact .pure rfl
  | extent e => exact (Action.Echoes.ofExcept e.sort).map_eq
  | intent k hd =>
    have hsorted := sortIntent_echoes hE k hd fun e => e.nodes.length
    refine Action.Echoes.get.bind fun s s' hs => ?_
    rw [← (hs.intent k).extent]
    split
    · exact (Action.Echoes.ofExcept _).map_eq
    · refine (hE.cursor _ false hd).bind fun c c' hc => ?_
      rw [← hc.flags, ← hc.counts]
      split
      · refine PullEchoes.read_action (hE.size hc) (fun _ => rfl) fun o r r' _ => ?_
        refine (Action.Echoes.ofExcept o).bind_eq fun told => ?_
        cases told with
        | some n => exact .pure rfl
        | none => exact hsorted
      · exact hsorted

theorem first_echoes (hE : E.Echoes T h E') (hn : ns.Echo h ns') :
    Action.Echoes T h Eq (ns.first T E) (ns'.first T E') := by
  cases hn with
  | empty => exact .pure rfl
  | single n => exact .pure rfl
  | extent e => exact .ofExcept _
  | intent k hd =>
    refine Action.Echoes.get.bind fun s s' hs => ?_
    rw [← (hs.intent k).extent]
    split
    · exact .ofExcept _
    · refine (hE.cursor _ false hd).bind fun c c' hc => ?_
      rw [← hc.flags]
      split
      · exact hE.head hc
      · exact (hE.extent hc).bind_eq fun e => .ofExcept _

theorem materialize_echoes (hE : E.Echoes T h E') (hn : ns.Echo h ns') :
    Action.Echoes T h Eq (ns.materialize T E) (ns'.materialize T E') := by
  have hplain : Action.Echoes T h Eq (do E.extent (← ns.scan T E))
      (do E'.extent (← ns'.scan T E')) :=
    (scan_echoes hE hn).bind fun _ _ hc => hE.extent hc
  cases hn with
  | extent e => exact .ofExcept _
  | intent k hd => exact (materializeIntent_echoes hE k hd).bind_eq fun e => .ofExcept _
  | empty | single => exact hplain

theorem members_echoes (hE : E.Echoes T h E') (hn : ns.Echo h ns') :
    Action.Echoes T h Eq (ns.members T E) (ns'.members T E') :=
  (enumerate_echoes hE hn).bind fun _ _ hc => hE.drain hc

theorem asString_echoes (hE : E.Echoes T h E') (hn : ns.Echo h ns') :
    Action.Echoes T h Eq (ns.asString T E) (ns'.asString T E') :=
  (first_echoes hE hn).map_eq

theorem asBoolean_echoes (hE : E.Echoes T h E') (hn : ns.Echo h ns') :
    Action.Echoes T h Eq (ns.asBoolean T E) (ns'.asBoolean T E') := by
  cases hn with
  | empty => exact .pure rfl
  | single n => exact .pure rfl
  | extent e => exact .pure rfl
  | intent k hd =>
    exact (enumerateIntent_echoes hE k hd false).bind fun c c' hc => (hE.head hc).map_eq

theorem ofDefinition_echoes (hd : d.Echo h d') (hc : d.dependencies.isEmpty = true) :
    Action.Echoes T h (NodeSet.Echo h) (ofDefinition d) (ofDefinition d') := by
  unfold ofDefinition
  rw [← hd.dependencies, if_pos hc, if_pos hc]
  exact .update fun s s' hs => hs.newIntent hd

end NodeSet

namespace Value

variable {v v' w w' : Value} {ns ns' : NodeSet}

theorem asString_echoes (hE : E.Echoes T h E') (hv : v.Echo h v') :
    Action.Echoes T h Eq (v.asString T E) (v'.asString T E') := by
  cases hv with
  | nodeSet hn => exact NodeSet.asString_echoes hE hn
  | string | number | boolean | object => exact .pure rfl

theorem asNumber_echoes (hE : E.Echoes T h E') (hv : v.Echo h v') :
    Action.Echoes T h Eq (v.asNumber T E) (v'.asNumber T E') := by
  cases hv with
  | nodeSet hn => exact (NodeSet.asString_echoes hE hn).map_eq
  | string | number | boolean | object => exact .pure rfl

theorem asBoolean_echoes (hE : E.Echoes T h E') (hv : v.Echo h v') :
    Action.Echoes T h Eq (v.asBoolean T E) (v'.asBoolean T E') := by
  cases hv with
  | nodeSet hn => exact NodeSet.asBoolean_echoes hE hn
  | string | number | boolean | object => exact .pure rfl

theorem compareMembers_echoes (hE : E.Echoes T h E') (hn : ns.Echo h ns') (op : Comparison)
    (hv : v.Echo h v') :
    Action.Echoes T h Eq (compareMembers T E ns op v) (compareMembers T E' ns' op v') := by
  cases hv with
  | boolean b => exact (NodeSet.asBoolean_echoes hE hn).map_eq
  | number x => exact (NodeSet.scan_echoes hE hn).bind fun _ _ hc => hE.find _ hc
  | string s => exact (NodeSet.scan_echoes hE hn).bind fun _ _ hc => hE.find _ hc
  | object | nodeSet => exact .pure rfl

theorem compareNodeSets_echoes (hE : E.Echoes T h E') {ms ms' : NodeSet} (hn : ns.Echo h ns')
    (op : Comparison) (hm : ms.Echo h ms') :
    Action.Echoes T h Eq (compareNodeSets T E ns op ms) (compareNodeSets T E' ns' op ms') := by
  refine (NodeSet.scan_echoes hE hn).bind fun _ _ hc => (hE.drain hc).bind_eq fun left => ?_
  split
  · exact .pure rfl
  · exact (NodeSet.scan_echoes hE hm).bind fun _ _ hc => (hE.drain hc).map_eq

theorem compareScalars_echoes (hE : E.Echoes T h E') (hv : v.Echo h v') (op : Comparison)
    (hw : w.Echo h w') :
    Action.Echoes T h Eq (compareScalars T E v op w) (compareScalars T E' v' op w') := by
  have hbooleans : Action.Echoes T h Eq
      (do return op.booleans (← v.asBoolean T E) (← w.asBoolean T E))
      (do return op.booleans (← v'.asBoolean T E') (← w'.asBoolean T E')) :=
    (asBoolean_echoes hE hv).bind_eq fun _ => (asBoolean_echoes hE hw).map_eq
  have hnumbers : Action.Echoes T h Eq
      (do return op.numbers (← v.asNumber T E) (← w.asNumber T E))
      (do return op.numbers (← v'.asNumber T E') (← w'.asNumber T E')) :=
    (asNumber_echoes hE hv).bind_eq fun _ => (asNumber_echoes hE hw).map_eq
  have hstrings : Action.Echoes T h Eq
      (do return op.strings (← v.asString T E) (← w.asString T E))
      (do return op.strings (← v'.asString T E') (← w'.asString T E')) :=
    (asString_echoes hE hv).bind_eq fun _ => (asString_echoes hE hw).map_eq
  unfold compareScalars
  split
  · cases hv <;> cases hw <;> first | exact hbooleans | exact hnumbers | exact hstrings
  · exact hnumbers

theorem compare_echoes (hE : E.Echoes T h E') (hv : v.Echo h v') (op : Comparison)
    (hw : w.Echo h w') : Action.Echoes T h Eq (v.compare T E op w) (v'.compare T E' op w') := by
  have hscalars := compareScalars_echoes hE hv op hw
  have hinverse {ns ns' : NodeSet} (hn : ns.Echo h ns') :=
    compareMembers_echoes hE hn op.inverse hv
  cases hv with
  | nodeSet hn =>
    have hmembers := compareMembers_echoes hE hn op hw
    cases hw with
    | nodeSet hm => exact compareNodeSets_echoes hE hn op hm
    | string | number | boolean | object => exact hmembers
  | string | number | boolean | object =>
    cases hw with
    | nodeSet hm => exact hinverse hm
    | string | number | boolean | object => exact hscalars

end Value

namespace Sorting

theorem keyValue_echoes (hE : E.Echoes T h E') (rule : SortRule) {key key' : Expr} (c : Context)
    (hk : key.Echo h key') :
    Action.Echoes T h Eq (keyValue E rule key c) (keyValue E' rule key' c) := by
  unfold keyValue
  split
  · exact (hE.number c hk).map_eq
  · exact (hE.string c hk).map_eq

theorem keyValues_echoes (hE : E.Echoes T h E') {keys keys' : List Expr} (rules : List SortRule)
    (c : Context) (hk : AllEcho h keys keys') :
    Action.Echoes T h Eq (keyValues E c (keys.zip rules)) (keyValues E' c (keys'.zip rules)) := by
  induction keys generalizing keys' rules with
  | nil =>
    cases hk
    exact .pure rfl
  | cons key keys ih =>
    cases hk with
    | cons hk hks =>
      cases rules with
      | nil => exact .pure rfl
      | cons rule rules =>
        exact (keyValue_echoes hE rule c hk).bind_eq fun _ => (ih rules hks).map_eq

theorem records_echoes (hE : E.Echoes T h E') {keys keys' : List Expr} (rules : List SortRule)
    (c : Context) (last : Nat) (hk : AllEcho h keys keys') (nodes : List Node) (position : Nat) :
    Action.Echoes T h Eq (records E (keys.zip rules) c last position nodes)
      (records E' (keys'.zip rules) c last position nodes) := by
  induction nodes generalizing position with
  | nil => exact .pure rfl
  | cons n nodes ih =>
    exact (keyValues_echoes hE rules _ hk).bind_eq fun _ => (ih (position + 1)).map_eq

theorem sortNodes_echoes (hE : E.Echoes T h E') {keys keys' : List Expr} (rules : List SortRule)
    (c : Context) (hk : AllEcho h keys keys') (nodes : List Node) :
    Action.Echoes T h Eq (sortNodes E nodes (keys.zip rules) c)
      (sortNodes E' nodes (keys'.zip rules) c) := by
  unfold sortNodes
  rw [rules_eq hk.length_eq]
  exact (records_echoes hE rules c nodes.length hk nodes 1).map_eq

end Sorting

end PathLanguage
