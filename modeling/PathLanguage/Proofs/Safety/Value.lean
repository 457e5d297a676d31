/- Node-sets and other values in use are safe; a lazy node-set keeps honest nodes. -/
import PathLanguage.Proofs.Safety.Reading

namespace PathLanguage

open Setting (Ensures Steps)

variable {S : Setting} {s : Session} {E : Engine}

namespace Session

theorem definition?_setIntent (s : Session) (id : Nat) {i : IntentState}
    (h : i.definition = (s.intent id).definition) (k : Nat) :
    (s.setIntent id i).definition? k = s.definition? k := by
  unfold definition? setIntent
  rw [List.getElem?_set]
  split
  · next hk =>
    subst hk
    cases hs : s.intents[id]? with
    | none => simp [List.getElem?_eq_none_iff.mp hs]
    | some j =>
      obtain ⟨hlt, rfl⟩ := List.getElem?_eq_some_iff.mp hs
      simp [hlt, h, intent]
  · rfl

theorem extent_setIntent (s : Session) (id : Nat) {i : IntentState} {e : Extent}
    (h : (s.intent id).extent = some e → i.extent = some e) {k : Nat}
    (hk : (s.intent k).extent = some e) : ((s.setIntent id i).intent k).extent = some e := by
  unfold setIntent
  unfold intent at hk ⊢
  rw [List.getElem?_set]
  split
  · next hid =>
    subst hid
    cases hs : s.intents[id]? with
    | none => simp [hs] at hk
    | some j =>
      obtain ⟨hlt, -⟩ := List.getElem?_eq_some_iff.mp hs
      simpa [hlt] using h hk
  · exact hk

/-- A change of what is remembered of one lazy node-set, whose definition stays. -/
theorem sound_setIntent (hs : S.Sound s) (id : Nat) {i : IntentState}
    (hd : i.definition = (s.intent id).definition)
    (hkept : ∀ e, (s.intent id).extent = some e → i.extent = some e)
    (he : ∀ e ∈ i.extent, e.Fits S.forest) :
    S.Sound (s.setIntent id i) ∧ s.LeadsTo (s.setIntent id i) := by
  have hk : s.LeadsTo (s.setIntent id i) := by
    refine ⟨⟨fun k d h => ?_, fun _ _ h => h, fun k e h => ?_, fun _ _ _ h => h, fun _ _ h => h⟩,
      fun _ h => h⟩
    · rw [definition?_setIntent s id hd]
      exact h
    · exact extent_setIntent s id (hkept e) h
  refine ⟨⟨?_, ?_, ?_, hs.indexes, hs.documents, ?_⟩, hk⟩
  · exact fun name d h => ⟨(hs.pending name d h).1, (hs.pending name d h).2.mono hk.toKeeps⟩
  · exact fun name v h => (hs.evaluated name v h).mono hk.toKeeps
  · intro k j hj
    unfold setIntent at hj
    rw [List.getElem?_set] at hj
    split at hj
    · next hid =>
      subst hid
      split at hj
      · next hlt =>
        obtain rfl := Option.some.inj hj
        have hold := hs.intents id s.intents[id] (List.getElem?_eq_getElem hlt)
        have hdef : i.definition = s.intents[id].definition := by
          simpa [intent, List.getElem?_eq_getElem hlt] using hd
        exact ⟨hdef ▸ hold.definition.mono hk.toKeeps, hdef ▸ hold.closed, he⟩
      · cases hj
    · exact (hs.intents k j hj).mono hk.toKeeps
  · exact fun d hd => (hs.keys d hd).mono hk.toKeeps

/-- The registration of a lazy node-set. -/
theorem sound_newIntent (hs : S.Sound s) {d : Expr} (hd : d.Fits S.forest s)
    (hc : d.dependencies = ∅) :
    S.Sound (s.newIntent d).2 ∧ s.LeadsTo (s.newIntent d).2 ∧
      (s.newIntent d).2.definition? (s.newIntent d).1 = some d := by
  have hold : ∀ {k : Nat} {i : IntentState}, s.intents[k]? = some i →
      (s.intents ++ [({ definition := d } : IntentState)])[k]? = some i := by
    intro k i hi
    obtain ⟨hlt, -⟩ := List.getElem?_eq_some_iff.mp hi
    rw [List.getElem?_append_left hlt, hi]
  have hk : s.LeadsTo (s.newIntent d).2 := by
    refine ⟨⟨fun k e h => ?_, fun _ _ h => h, fun k e h => ?_, fun _ _ _ h => h, fun _ _ h => h⟩,
      fun _ h => h⟩
    · obtain ⟨i, hi, rfl⟩ := Option.map_eq_some_iff.mp h
      simp [newIntent, definition?, hold hi]
    · unfold intent at h ⊢
      cases hi : s.intents[k]? with
      | none => simp [hi] at h
      | some i => simpa [newIntent, hold hi, hi] using h
  refine ⟨⟨?_, ?_, ?_, hs.indexes, hs.documents, ?_⟩, hk, by simp [newIntent, definition?]⟩
  · exact fun name d h => ⟨(hs.pending name d h).1, (hs.pending name d h).2.mono hk.toKeeps⟩
  · exact fun name v h => (hs.evaluated name v h).mono hk.toKeeps
  · intro k j hj
    have hj : (s.intents ++ [({ definition := d } : IntentState)])[k]? = some j := hj
    rw [List.getElem?_append] at hj
    split at hj
    · exact (hs.intents k j hj).mono hk.toKeeps
    · obtain rfl : ({ definition := d } : IntentState) = j := by
        simpa using List.mem_of_getElem? hj |> List.mem_singleton.mp |>.symm
      exact ⟨hd.mono hk.toKeeps, hc, by simp⟩
  · exact fun d hd => (hs.keys d hd).mono hk.toKeeps

/-- What a sound session keeps of a lazy node-set fits. -/
theorem extent_fits (hs : S.Sound s) {id : Nat} {e : Extent}
    (h : (s.intent id).extent = some e) : e.Fits S.forest := by
  unfold intent at h
  cases hi : s.intents[id]? with
  | none => simp [hi] at h
  | some i => exact (hs.intents id i hi).extent e (by simpa [hi] using h)

end Session

namespace NodeSet

theorem registerUse_safe (T : Transformation) (id : Nat) :
    S.Ensures s (registerUse T id) fun _ _ => True := by
  refine .update fun hs => ?_
  obtain ⟨ht, hk⟩ := Session.sound_setIntent hs id
    (i := { s.intent id with uses := (s.intent id).uses + 1 }) rfl (fun _ h => h)
    fun e he => Session.extent_fits hs he
  exact ⟨ht, hk, trivial⟩

theorem materializeIntent_safe (hS : S.Safe) (hE : E.Safe S) {id : Nat} {d : Expr}
    (hd : (NodeSet.intent id d).Fits S.forest s) :
    S.Ensures s (materializeIntent S.transformation E id d) fun e _ => e.Fits S.forest := by
  refine .assume fun hs => .get ?_
  split
  · next e he => exact .pure (Session.extent_fits hs he)
  · refine (hE.cursor (fits_intent.mp hd).2 (hS.globalContext s)).bind fun c t _ _ ⟨hc, _⟩ => ?_
    refine (hE.extent hc).bind fun e u _ _ he => .update fun hu => ?_
    have hkept : ((u.intent id).extent.getD e).Fits S.forest := by
      cases hi : (u.intent id).extent with
      | none => exact he
      | some e' => exact Session.extent_fits hu hi
    obtain ⟨hv, hk⟩ := Session.sound_setIntent hu id
      (i := { u.intent id with extent := some ((u.intent id).extent.getD e) }) rfl
      (fun e' h => by simp [h]) (by rintro e' ⟨⟩; exact hkept)
    exact ⟨hv, hk, hkept⟩

theorem cursorOfExtent_safe {e : Extent} (he : e.Fits S.forest) (sort : Bool) :
    S.Ensures s (cursorOfExtent e sort) fun c t =>
      c.Sound S t ∧ (sort = true → c.flags.sorted = true) := by
  refine .ite (fun _ => ?_) fun h => .pure ⟨Cursor.sound_ofExtent he, fun h' => absurd h' h⟩
  refine (Ensures.ofExcept (Q := fun e' _ => e'.Fits S.forest ∧ e'.sorted = true)
    fun e' hs => Extent.sort_fits he hs).bind fun e' t _ _ ⟨hf, hs⟩ => ?_
  exact .pure ⟨Cursor.sound_ofExtent hf, fun _ => hs⟩

theorem enumerateIntent_safe (hS : S.Safe) (hE : E.Safe S) {id : Nat} {d : Expr}
    (hd : (NodeSet.intent id d).Fits S.forest s) (sort : Bool) :
    S.Ensures s (enumerateIntent S.transformation E id d sort) fun c t =>
      c.Sound S t ∧ (sort = true → c.flags.sorted = true) := by
  refine .assume fun hs => .get ?_
  split
  · next e he => exact cursorOfExtent_safe (Session.extent_fits hs he) sort
  · refine (registerUse_safe S.transformation id).bind fun b t _ hst _ => ?_
    replace hd := hd.mono hst.toKeeps
    refine .ite (fun _ => ?_) fun _ => ?_
    · exact (materializeIntent_safe hS hE hd).bind fun e u _ _ he => cursorOfExtent_safe he sort
    · exact (hE.cursor (fits_intent.mp hd).2 (hS.globalContext t)).imp
        fun c u _ _ ⟨hc, hsort, _⟩ => ⟨hc, fun h => hsort (.inl h)⟩

theorem holds_of_single {n : Option Node} {navigable : Bool}
    (h : (NodeSet.single n navigable).Fits S.forest s) : ∀ m ∈ n, S.forest.Holds m := by
  rintro m rfl
  simpa [NodeSet.Fits, leaves, Leaf.Fits] using h

theorem scan_safe (hS : S.Safe) (hE : E.Safe S) {ns : NodeSet} (h : ns.Fits S.forest s) :
    S.Ensures s (ns.scan S.transformation E) fun c t => c.Sound S t := by
  cases ns with
  | empty => exact .pure (Cursor.sound_ofOption (by simp))
  | single n navigable => exact .pure (Cursor.sound_ofOption (holds_of_single h))
  | extent e => exact .pure (Cursor.sound_ofExtent (fits_extent.mp h))
  | intent id d => exact (enumerateIntent_safe hS hE h false).imp fun c t _ _ hc => hc.1

theorem enumerate_safe (hS : S.Safe) (hE : E.Safe S) {ns : NodeSet} (h : ns.Fits S.forest s) :
    S.Ensures s (ns.enumerate S.transformation E) fun c t => c.Sound S t :=
  .ite (fun _ => scan_safe hS hE h) fun _ => .fail

theorem enumerateSorted_safe (hS : S.Safe) (hE : E.Safe S) {ns : NodeSet}
    (h : ns.Fits S.forest s) (sort : Bool) :
    S.Ensures s (ns.enumerateSorted S.transformation E sort) fun c t =>
      c.Sound S t ∧ (sort = true → c.flags.sorted = true) := by
  cases ns with
  | intent id d => exact enumerateIntent_safe hS hE h sort
  | extent e => exact cursorOfExtent_safe (fits_extent.mp h) sort
  | empty =>
    change S.Ensures s (pure (Cursor.ofOption none)) _
    exact .pure ⟨Cursor.sound_ofOption (by simp), fun _ => rfl⟩
  | single n navigable =>
    cases navigable with
    | false => exact .fail
    | true =>
      change S.Ensures s (pure (Cursor.ofOption n)) _
      exact .pure ⟨Cursor.sound_ofOption (holds_of_single h), fun _ => rfl⟩

theorem count_safe (hS : S.Safe) (hE : E.Safe S) {ns : NodeSet} (h : ns.Fits S.forest s) :
    S.Ensures s (ns.count S.transformation E) fun _ _ => True := by
  cases ns with
  | empty => exact .pure trivial
  | single n navigable => exact .pure trivial
  | extent e =>
    exact (Ensures.ofExcept (Q := fun _ _ => True) fun _ _ => trivial).map fun _ _ _ => trivial
  | intent id d =>
    have hkept : ∀ (t : Session) (e : Extent),
        S.Ensures t (do return (← Action.ofExcept e.sort).nodes.length) fun _ _ => True :=
      fun t e =>
      (Ensures.ofExcept (Q := fun _ _ => True) fun _ _ => trivial).map fun _ _ _ => trivial
    refine .get ?_
    split
    · exact hkept _ _
    · refine (hE.cursor (fits_intent.mp h).2 (hS.globalContext s)).bind
        fun c t _ hst ⟨hc, _⟩ => ?_
      extract_lets finish
      have hfinish : ∀ u told, s.LeadsTo u → S.Ensures u (finish told) fun _ _ => True := by
        intro u told hsu
        cases told with
        | some n => exact .pure trivial
        | none =>
          exact (materializeIntent_safe hS hE (h.mono hsu.toKeeps)).bind fun e v _ _ _ => hkept v e
      refine .ite (fun _ => ?_) fun _ => hfinish t none hst
      refine (Ensures.lift (hE.tell hc)).bind fun p u _ htu _ => ?_
      exact (Ensures.ofExcept (Q := fun _ _ => True) fun _ _ => trivial).bind
        fun told v _ huv _ => hfinish v told (hst.trans (htu.trans huv))

theorem first_safe (hS : S.Safe) (hE : E.Safe S) {ns : NodeSet} (h : ns.Fits S.forest s) :
    S.Ensures s (ns.first S.transformation E) fun n _ => ∀ m ∈ n, S.forest.Holds m := by
  have hfirst : ∀ (t : Session) {e : Extent}, e.Fits S.forest →
      S.Ensures t (.ofExcept e.first) fun n _ => ∀ m ∈ n, S.forest.Holds m := by
    intro t e he
    refine .ofExcept fun n hn m hm => ?_
    rw [Extent.first_ok he.honest he.holds hn] at hm
    exact he.holds.docOrder m (List.mem_of_mem_head? hm)
  cases ns with
  | empty => exact .pure (by simp)
  | single n navigable => exact .pure (holds_of_single h)
  | extent e => exact hfirst s (fits_extent.mp h)
  | intent id d =>
    refine .assume fun hs => .get ?_
    split
    · next e he => exact hfirst s (Session.extent_fits hs he)
    · refine (hE.cursor (fits_intent.mp h).2 (hS.globalContext s)).bind
        fun c t _ _ ⟨hc, _⟩ => .ite (fun _ => hE.head hc) fun _ => ?_
      exact (hE.extent hc).bind fun e u _ _ he => hfirst u he

theorem materialize_safe (hS : S.Safe) (hE : E.Safe S) {ns : NodeSet} (h : ns.Fits S.forest s) :
    S.Ensures s (ns.materialize S.transformation E) fun e _ =>
      e.Fits S.forest ∧ Node.Ascending e.nodes := by
  have hsort : ∀ (t : Session) {e : Extent}, e.Fits S.forest →
      S.Ensures t (.ofExcept e.sort) fun e _ => e.Fits S.forest ∧ Node.Ascending e.nodes :=
    fun t e he => .ofExcept fun e' hs =>
      ⟨(Extent.sort_fits he hs).1, (Extent.sort_ok he.honest he.holds hs).2.2.2⟩
  have hone : ∀ n : Option Node, (∀ m ∈ n, S.forest.Holds m) →
      S.Ensures s (E.extent (.ofOption n)) fun e _ => e.Fits S.forest ∧ Node.Ascending e.nodes :=
    fun n hn =>
      have hc := Cursor.sound_ofOption hn
      (hE.extent hc).and (hE.extent_ascending hc rfl)
  cases ns with
  | extent e => exact hsort s (fits_extent.mp h)
  | intent id d => exact (materializeIntent_safe hS hE h).bind fun e t _ _ he => hsort t he
  | empty => exact hone none (by simp)
  | single n navigable => exact hone n (holds_of_single h)

theorem members_safe (hS : S.Safe) (hE : E.Safe S) {ns : NodeSet} (h : ns.Fits S.forest s) :
    S.Ensures s (ns.members S.transformation E) fun ms _ => S.forest.HoldsAll ms :=
  (enumerate_safe hS hE h).bind fun _ _ _ _ hc => (hE.drain hc).imp
    fun _ _ _ _ ⟨hn, _⟩ n hmem => hc.ordered.holds (hn n hmem)

theorem asString_safe (hS : S.Safe) (hE : E.Safe S) {ns : NodeSet} (h : ns.Fits S.forest s) :
    S.Ensures s (ns.asString S.transformation E) fun _ _ => True :=
  (first_safe hS hE h).map fun _ _ _ => trivial

theorem asBoolean_safe (hS : S.Safe) (hE : E.Safe S) {ns : NodeSet} (h : ns.Fits S.forest s) :
    S.Ensures s (ns.asBoolean S.transformation E) fun _ _ => True := by
  cases ns with
  | empty => exact .pure trivial
  | single n navigable => exact .pure trivial
  | extent e => exact .pure trivial
  | intent id d =>
    exact (enumerateIntent_safe hS hE h false).bind fun c t _ _ ⟨hc, _⟩ =>
      (hE.head hc).map fun _ _ _ => trivial

theorem ofDefinition_safe {d : Expr} (hd : d.Fits S.forest s) :
    S.Ensures s (ofDefinition d) fun ns t => ns.Fits S.forest t := by
  refine .ite (fun hc => .update fun hs => ?_) fun _ => .fail
  have hc : d.dependencies = ∅ := by simpa [Dependencies.isEmpty] using hc
  obtain ⟨ht, hk, hdef⟩ := Session.sound_newIntent hs hd hc
  exact ⟨ht, hk, fits_intent.mpr ⟨hdef, hd.mono hk.toKeeps⟩⟩

end NodeSet

namespace Value

theorem asString_safe (hS : S.Safe) (hE : E.Safe S) {v : Value} (h : v.Fits S.forest s) :
    S.Ensures s (v.asString S.transformation E) fun _ _ => True := by
  cases v with
  | nodeSet ns => exact NodeSet.asString_safe hS hE h
  | string => exact .pure trivial
  | number => exact .pure trivial
  | boolean => exact .pure trivial
  | object => exact .pure trivial

theorem asNumber_safe (hS : S.Safe) (hE : E.Safe S) {v : Value} (h : v.Fits S.forest s) :
    S.Ensures s (v.asNumber S.transformation E) fun _ _ => True := by
  cases v with
  | nodeSet ns => exact (NodeSet.asString_safe hS hE h).map fun _ _ _ => trivial
  | string => exact .pure trivial
  | number => exact .pure trivial
  | boolean => exact .pure trivial
  | object => exact .pure trivial

theorem asBoolean_safe (hS : S.Safe) (hE : E.Safe S) {v : Value} (h : v.Fits S.forest s) :
    S.Ensures s (v.asBoolean S.transformation E) fun _ _ => True := by
  cases v with
  | nodeSet ns => exact NodeSet.asBoolean_safe hS hE h
  | string => exact .pure trivial
  | number => exact .pure trivial
  | boolean => exact .pure trivial
  | object => exact .pure trivial

theorem compareMembers_safe (hS : S.Safe) (hE : E.Safe S) {ns : NodeSet} (h : ns.Fits S.forest s)
    (op : Comparison) (v : Value) :
    S.Ensures s (compareMembers S.transformation E ns op v) fun _ _ => True := by
  cases v with
  | boolean b => exact (NodeSet.asBoolean_safe hS hE h).map fun _ _ _ => trivial
  | number x => exact (NodeSet.scan_safe hS hE h).bind fun _ _ _ _ hc => hE.find hc
  | string t => exact (NodeSet.scan_safe hS hE h).bind fun _ _ _ _ hc => hE.find hc
  | object => exact .pure trivial
  | nodeSet => exact .pure trivial

theorem compareNodeSets_safe (hS : S.Safe) (hE : E.Safe S) {a b : NodeSet}
    (ha : a.Fits S.forest s) (hb : b.Fits S.forest s) (op : Comparison) :
    S.Ensures s (compareNodeSets S.transformation E a op b) fun _ _ => True := by
  refine (NodeSet.scan_safe hS hE ha).bind fun c t _ hst hc => ?_
  refine (hE.drain hc).bind fun ns u _ htu _ => ?_
  refine .ite (fun _ => .pure trivial) fun _ => ?_
  refine (NodeSet.scan_safe hS hE (hb.mono (hst.trans htu).toKeeps)).bind fun d v _ _ hd => ?_
  exact (hE.drain hd).bind fun ms w _ _ _ => .pure trivial

theorem compareScalars_safe (hS : S.Safe) (hE : E.Safe S) {a b : Value}
    (ha : a.Fits S.forest s) (hb : b.Fits S.forest s) (op : Comparison) :
    S.Ensures s (compareScalars S.transformation E a op b) fun _ _ => True := by
  have hnumbers : S.Ensures s (do
      return op.numbers (← a.asNumber S.transformation E) (← b.asNumber S.transformation E))
      fun _ _ => True :=
    (asNumber_safe hS hE ha).bind fun _ _ _ hst _ =>
      (asNumber_safe hS hE (hb.mono hst.toKeeps)).map fun _ _ _ => trivial
  have hbooleans : S.Ensures s (do
      return op.booleans (← a.asBoolean S.transformation E) (← b.asBoolean S.transformation E))
      fun _ _ => True :=
    (asBoolean_safe hS hE ha).bind fun _ _ _ hst _ =>
      (asBoolean_safe hS hE (hb.mono hst.toKeeps)).map fun _ _ _ => trivial
  have hstrings : S.Ensures s (do
      return op.strings (← a.asString S.transformation E) (← b.asString S.transformation E))
      fun _ _ => True :=
    (asString_safe hS hE ha).bind fun _ _ _ hst _ =>
      (asString_safe hS hE (hb.mono hst.toKeeps)).map fun _ _ _ => trivial
  refine .ite (fun _ => ?_) fun _ => hnumbers
  split
  · exact hbooleans
  · exact hbooleans
  · exact hnumbers
  · exact hnumbers
  · exact hstrings

theorem compare_safe (hS : S.Safe) (hE : E.Safe S) {a b : Value} (ha : a.Fits S.forest s)
    (hb : b.Fits S.forest s) (op : Comparison) :
    S.Ensures s (a.compare S.transformation E op b) fun _ _ => True := by
  unfold compare
  split
  · exact compareNodeSets_safe hS hE ha hb op
  · exact compareMembers_safe hS hE ha op _
  · exact compareMembers_safe hS hE hb op.inverse _
  · exact compareScalars_safe hS hE ha hb op

end Value

end PathLanguage
