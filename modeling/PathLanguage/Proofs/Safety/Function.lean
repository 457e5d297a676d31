/- Calls of system functions are safe. -/
import PathLanguage.Proofs.Safety.Key

namespace PathLanguage

open Setting (Ensures Steps)

variable {S : Setting} {s : Session} {E : Engine}

theorem Forest.Holds.elementWithId {F : Forest} {n m : Node} (h : F.Holds n) {id : String}
    (hm : n.elementWithId id = some m) : F.Holds m := by
  unfold Node.elementWithId at hm
  split at hm
  · cases hm
  · exact h.top.walk Node.attaches_nil m (List.mem_of_find?_eq_some hm)

namespace Function

theorem argumentStrings_safe (hS : S.Safe) (hE : E.Safe S) {v : Value} (h : v.Fits S.forest s) :
    S.Ensures s (argumentStrings S.transformation E v) fun _ _ => True := by
  unfold argumentStrings
  split
  · exact (NodeSet.members_safe hS hE h).map fun _ _ _ => trivial
  · exact (Value.asString_safe hS hE h).map fun _ _ _ => trivial

theorem sortedSet_safe {ns : List Node} (h : S.forest.HoldsAll ns) :
    S.Ensures s (sortedSet ns) fun v t => v.Fits S.forest t := by
  refine (Ensures.ofExcept (Q := fun ms _ => S.forest.HoldsAll ms ∧ Node.Ascending ms) ?_).map
    fun ms t ⟨hm, ha⟩ => NodeSet.fits_ofNodes hm fun _ => ha
  intro ms hs
  obtain ⟨rfl, ha⟩ := Forest.sortDistinct_ok h hs
  exact ⟨h.docOrder, ha⟩

theorem byId_safe (hS : S.Safe) (hE : E.Safe S) {v : Value} (h : v.Fits S.forest s) {n : Node}
    (hn : S.forest.Holds n) :
    S.Ensures s (byId S.transformation E v n) fun v t => v.Fits S.forest t := by
  refine (argumentStrings_safe hS hE h).bind fun ids t _ _ _ => sortedSet_safe fun m hm => ?_
  obtain ⟨id, -, hm⟩ := List.mem_filterMap.mp hm
  exact hn.elementWithId hm

theorem searchAll_safe (hE : E.Safe S) (name : ExpandedName) {root : Node}
    (hr : S.forest.Holds root) {c : Context} (hc : c.Fits S.forest s) (values : List String) :
    S.Ensures s (searchAll E name root c values) fun ns _ => S.forest.HoldsAll ns := by
  induction values generalizing s with
  | nil => exact .pure (by simp)
  | cons v values ih =>
    refine (hE.search hr hc).bind fun ns t _ hst hns => ?_
    exact (ih (hc.mono hst.toKeeps)).map fun ms u hms => Forest.holdsAll_append.mpr ⟨hns, hms⟩

theorem byKey_safe (hS : S.Safe) (hE : E.Safe S) (name : String) {v : Value}
    (h : v.Fits S.forest s) (scope : Option Scope) {n : Node} (hn : S.forest.Holds n)
    {c : Context} (hc : c.Fits S.forest s) :
    S.Ensures s (byKey S.transformation E name v scope n c) fun v t => v.Fits S.forest t := by
  refine (Ensures.ofExcept (Q := fun _ _ => True) fun _ _ => trivial).bind
    fun key t _ hst _ => .ite (fun _ => .throw) fun _ => ?_
  refine (argumentStrings_safe hS hE (h.mono hst.toKeeps)).bind fun values u _ htu _ => ?_
  refine (searchAll_safe hE key hn.top (hc.mono (hst.trans htu).toKeeps) values).bind ?_
  exact fun ns v _ _ hns => sortedSet_safe hns

/-- What is asked for or counted does not count for the soundness of a session. -/
theorem sound_requested (hs : S.Sound s) (uris : List String) :
    S.Sound { s with requested := uris } ∧ s.LeadsTo { s with requested := uris } :=
  ⟨⟨hs.pending, hs.evaluated, fun id i hi => ⟨(hs.intents id i hi).1, (hs.intents id i hi).2,
    (hs.intents id i hi).3⟩, hs.indexes, hs.documents, hs.keys⟩,
    ⟨fun _ _ h => h, fun _ _ h => h, fun _ _ h => h, fun _ _ _ h => h, fun _ _ h => h⟩,
    fun _ h => h⟩

theorem sound_calls (hs : S.Sound s) (calls : List (Nat × Nat)) :
    S.Sound { s with calls := calls } ∧ s.LeadsTo { s with calls := calls } :=
  ⟨⟨hs.pending, hs.evaluated, fun id i hi => ⟨(hs.intents id i hi).1, (hs.intents id i hi).2,
    (hs.intents id i hi).3⟩, hs.indexes, hs.documents, hs.keys⟩,
    ⟨fun _ _ h => h, fun _ _ h => h, fun _ _ h => h, fun _ _ _ h => h, fun _ _ h => h⟩,
    fun _ h => h⟩

/-- A loaded document is kept behind those that were there. -/
theorem sound_documents (hs : S.Sound s) {uri : String} {root : Node}
    (hr : S.forest.Holds root) :
    S.Sound { s with documents := s.documents ++ [(uri, root)] } ∧
      s.LeadsTo { s with documents := s.documents ++ [(uri, root)] } := by
  refine ⟨⟨hs.pending, hs.evaluated, fun id i hi => ⟨(hs.intents id i hi).1, (hs.intents id i hi).2,
    (hs.intents id i hi).3⟩, hs.indexes, ?_, hs.keys⟩, ⟨fun _ _ h => h, fun _ _ h => h,
    fun _ _ h => h, fun _ _ _ h => h, fun uri' root' h => ?_⟩, fun _ h => h⟩
  · intro p hp
    rcases List.mem_append.mp hp with hp | hp
    · exact hs.documents p hp
    · rw [List.mem_singleton.mp hp]
      exact hr
  · exact (List.prefix_append s.documents _).lookup_eq_some h

theorem loadDocument_safe (hS : S.Safe) (uri : String) :
    S.Ensures s (loadDocument S.transformation uri) fun r _ => ∀ n ∈ r, S.forest.Holds n := by
  refine .assume fun hs => .get ?_
  split
  · next root hr =>
    obtain ⟨l, r, he, -⟩ := List.lookup_eq_some_iff.mp hr
    have hroot : S.forest.Holds root := hs.documents (uri, root) (by simp [he])
    exact .pure (by simpa using hroot)
  · split
    · exact .throw
    · next resolver hres =>
      refine (Ensures.modify (Q := fun _ _ => True) fun hs => ?_).bind fun _ t _ _ _ => ?_
      · exact ⟨(sound_requested hs _).1, (sound_requested hs _).2, trivial⟩
      · refine (Ensures.ofExcept (Q := fun r _ => ∀ n ∈ r, S.forest.Holds n) ?_).bind
          fun r u _ _ hr => ?_
        · rintro r hr n rfl
          exact hS.resolver resolver hres uri n hr
        · split
          · exact .pure (by simp)
          · next root =>
            have hroot := hr root rfl
            refine (Ensures.modify (Q := fun _ _ => True) fun hs => ?_).bind fun _ v _ _ _ =>
              .pure (by simpa using hroot)
            exact ⟨(sound_documents hs hroot).1, (sound_documents hs hroot).2, trivial⟩

theorem loadAll_safe (hS : S.Safe) (requests : List (String × Option String)) :
    S.Ensures s (loadAll S.transformation requests) fun ns _ => S.forest.HoldsAll ns := by
  induction requests generalizing s with
  | nil => exact .pure (by simp)
  | cons r requests ih =>
    obtain ⟨reference, base⟩ := r
    refine (Ensures.ofExcept (Q := fun _ _ => True) fun _ _ => trivial).bind
      fun uri t _ _ _ => ?_
    refine (loadDocument_safe hS uri).bind fun root u _ _ hr => ih.map fun ns v hns => ?_
    exact Forest.holdsAll_append.mpr ⟨fun n hn => hr n (by simpa using hn), hns⟩

theorem documents_safe (hS : S.Safe) (hE : E.Safe S) {v : Value} (h : v.Fits S.forest s)
    {baseNodes : Option NodeSet} (hb : ∀ ns ∈ baseNodes, ns.Fits S.forest s)
    (scope : Option Scope) :
    S.Ensures s (documents S.transformation E v baseNodes scope) fun v t =>
      v.Fits S.forest t := by
  unfold documents
  extract_lets load finish
  have hload : ∀ t requests, S.Ensures t (load requests) fun v t => v.Fits S.forest t :=
    fun t requests => (loadAll_safe hS requests).bind fun ms _ _ _ hms => sortedSet_safe hms
  have hfinish : ∀ t explicit, s.LeadsTo t →
      S.Ensures t (finish explicit) fun v t => v.Fits S.forest t := by
    intro t explicit hst
    replace h := h.mono hst.toKeeps
    simp only [finish]
    split
    · exact (NodeSet.members_safe hS hE h).bind fun ns u _ _ _ => hload u _
    · exact (Value.asString_safe hS hE h).bind fun text u _ _ _ =>
        hload u [(text, explicit <|> scope.bind (·.baseUri))]
  split
  · next ns =>
    exact (NodeSet.first_safe hS hE (hb ns rfl)).bind fun n t _ hst _ => hfinish t _ hst
  · exact hfinish s _ (.refl s)

theorem haveSameNode_safe (hS : S.Safe) (hE : E.Safe S) {a b : NodeSet}
    (ha : a.Fits S.forest s) (hb : b.Fits S.forest s) :
    S.Ensures s (haveSameNode S.transformation E a b) fun _ _ => True := by
  refine (NodeSet.members_safe hS hE hb).bind fun ns t _ hst _ => ?_
  exact (NodeSet.enumerate_safe hS hE (ha.mono hst.toKeeps)).bind fun c u _ _ hc => hE.find hc

theorem besideFirst_safe (hS : S.Safe) (hE : E.Safe S) {a b : NodeSet}
    (ha : a.Fits S.forest s) (hb : b.Fits S.forest s) (side : Ordering) :
    S.Ensures s (besideFirst S.transformation E a b side) fun r t =>
      ∀ ns ∈ r, ns.Fits S.forest t := by
  refine (NodeSet.first_safe hS hE hb).bind fun n t _ hst hn => ?_
  split
  · exact .pure (by simp)
  · next pivot =>
    refine (NodeSet.materialize_safe hS hE (ha.mono hst.toKeeps)).bind
      fun e u _ _ ⟨he, hasc⟩ => .ite (fun _ => ?_) fun _ => .ite (fun _ => .throw) fun _ => ?_
    · exact .pure (by simp [NodeSet.Fits, NodeSet.leaves])
    · have hsub := List.filter_sublist (l := e.nodes) (p := fun n => n.order? pivot == some side)
      refine .pure ?_
      rintro ns ⟨⟩
      exact NodeSet.fits_ofNodes (he.holds.of_subset hsub.subset) fun _ => hasc.sublist hsub

theorem leading_safe (hS : S.Safe) (hE : E.Safe S) {a b : NodeSet}
    (ha : a.Fits S.forest s) (hb : b.Fits S.forest s) :
    S.Ensures s (leading S.transformation E a b) fun ns t => ns.Fits S.forest t := by
  refine (besideFirst_safe hS hE ha hb .lt).bind fun r t _ hst hr => .pure ?_
  cases r with
  | none => exact ha.mono hst.toKeeps
  | some ns => exact hr ns rfl

theorem trailing_safe (hS : S.Safe) (hE : E.Safe S) {a b : NodeSet}
    (ha : a.Fits S.forest s) (hb : b.Fits S.forest s) :
    S.Ensures s (trailing S.transformation E a b) fun ns t => ns.Fits S.forest t := by
  refine (besideFirst_safe hS hE ha hb .gt).bind fun r t _ _ hr => .pure ?_
  cases r with
  | none => simp [NodeSet.Fits, NodeSet.leaves]
  | some ns => exact hr ns rfl

theorem sum_safe (hS : S.Safe) (hE : E.Safe S) {ns : NodeSet} (h : ns.Fits S.forest s) :
    S.Ensures s (sum S.transformation E ns) fun _ _ => True :=
  (NodeSet.members_safe hS hE h).map fun _ _ _ => trivial

namespace Call

variable {c : Call}

/-- What a call holds fits. -/
structure Fits (F : Forest) (s : Session) (c : Call) : Prop where
  args : ∀ e ∈ c.args, e.Fits F s
  bound : ∀ n ∈ c.bound, F.Holds n
  context : c.context.Fits F s

theorem Fits.mono {F : Forest} {t : Session} (h : c.Fits F s) (hk : s.Keeps t) : c.Fits F t :=
  ⟨fun e he => (h.args e he).mono hk, h.bound, h.context.mono hk⟩

theorem node_safe {c : Context} (h : c.Fits S.forest s) :
    S.Ensures s c.node fun n _ => S.forest.Holds n := by
  unfold Context.node
  split
  · next n hn => exact .pure (h.node n hn)
  · exact .fail

theorem current_safe {c : Context} (h : c.Fits S.forest s) :
    S.Ensures s c.current fun n _ => S.forest.Holds n := by
  unfold Context.current
  split
  · next n hn => exact .pure (h.current n hn)
  · exact .fail

theorem focus_safe (h : c.Fits S.forest s) :
    S.Ensures s c.focus fun n _ => S.forest.Holds n := by
  unfold focus
  split
  · next n hn => exact .pure (h.bound n hn)
  · exact node_safe h.context

theorem arg_safe (h : c.Fits S.forest s) (i : Nat) :
    S.Ensures s (c.arg i) fun e t => e.Fits S.forest t := by
  unfold arg
  split
  · next e he => exact .pure (h.args e (List.mem_of_getElem? he))
  · exact .fail

theorem stringArg_safe (hE : E.Safe S) (h : c.Fits S.forest s) (i : Nat) :
    S.Ensures s (c.stringArg E i) fun _ _ => True :=
  (arg_safe h i).bind fun _ _ _ hst he => hE.string he (h.context.mono hst.toKeeps)

theorem numberArg_safe (hE : E.Safe S) (h : c.Fits S.forest s) (i : Nat) :
    S.Ensures s (c.numberArg E i) fun _ _ => True :=
  (arg_safe h i).bind fun _ _ _ hst he => hE.number he (h.context.mono hst.toKeeps)

theorem booleanArg_safe (hE : E.Safe S) (h : c.Fits S.forest s) (i : Nat) :
    S.Ensures s (c.booleanArg E i) fun _ _ => True :=
  (arg_safe h i).bind fun _ _ _ hst he => hE.boolean he (h.context.mono hst.toKeeps)

theorem valueArg_safe (hE : E.Safe S) (h : c.Fits S.forest s) (i : Nat) :
    S.Ensures s (c.valueArg E i) fun v t => v.Fits S.forest t :=
  (arg_safe h i).bind fun _ _ _ hst he => hE.value he (h.context.mono hst.toKeeps)

theorem nodeSetArg_safe (hE : E.Safe S) (h : c.Fits S.forest s) (i : Nat) :
    S.Ensures s (c.nodeSetArg E i) fun ns t => ns.Fits S.forest t :=
  (arg_safe h i).bind fun _ _ _ hst he => hE.nodeSet he (h.context.mono hst.toKeeps)

theorem optionalArg_safe (h : c.Fits S.forest s) (i : Nat) {α : Type}
    {evaluate : Expr → Context → Action α} {post : α → Session → Prop}
    (he : ∀ e, e.Fits S.forest s → S.Ensures s (evaluate e c.context) post) :
    S.Ensures s (c.optionalArg i evaluate) fun r t => ∀ x ∈ r, post x t := by
  unfold optionalArg
  split
  · next e hi =>
    exact (he e (h.args e (List.mem_of_getElem? hi))).map fun x t hx y hy => by
      obtain rfl := Option.some.inj hy
      exact hx
  · exact .pure (by simp)

theorem subject_safe (hS : S.Safe) (hE : E.Safe S) (h : c.Fits S.forest s) :
    S.Ensures s (c.subject S.transformation E) fun _ _ => True := by
  unfold subject
  split
  · next e rest he =>
    refine (hE.nodeSet (h.args e (by simp [he])) h.context).bind fun ns t _ _ hns => ?_
    exact (NodeSet.first_safe hS hE hns).trivial
  · exact (focus_safe h).map fun _ _ _ => trivial

theorem subjectString_safe (hE : E.Safe S) (h : c.Fits S.forest s) :
    S.Ensures s (c.subjectString E) fun _ _ => True := by
  unfold subjectString
  split
  · next e rest he => exact hE.string (h.args e (by simp [he])) h.context
  · exact (focus_safe h).map fun _ _ _ => trivial

theorem joinedArgs_safe (hE : E.Safe S) {context : Context} (hc : context.Fits S.forest s)
    {es : List Expr} (h : ∀ e ∈ es, e.Fits S.forest s) :
    S.Ensures s (joinedArgs E context es) fun _ _ => True := by
  induction es generalizing s with
  | nil => exact .pure trivial
  | cons e es ih =>
    refine (hE.string (h e (by simp)) hc).bind fun text t _ hst _ => ?_
    exact (ih (hc.mono hst.toKeeps) fun e' he => (h e' (by simp [he])).mono hst.toKeeps).map
      fun _ _ _ => trivial

theorem fits_systemProperty {F : Forest} (name : ExpandedName) :
    (systemProperty name).Fits F s := by
  unfold systemProperty
  split
  · split <;> exact fits_nil
  · exact fits_nil

theorem resolved_safe {α : Type} {r : Except Fault α} :
    S.Ensures s (.ofExcept r) fun _ _ => True :=
  .ofExcept fun _ _ => trivial

section

variable {args : List Expr} {bound : Option Node} {scope : Option Scope} {context : Context}

/-- A function of two strings. -/
theorem twoStrings_safe (hE : E.Safe S) (h : c.Fits S.forest s) {f : String → String → Value}
    (hf : ∀ a b t, (f a b).Fits S.forest t) :
    S.Ensures s (do return f (← c.stringArg E 0) (← c.stringArg E 1)) fun v t =>
      v.Fits S.forest t :=
  (stringArg_safe hE h 0).bind fun a _ _ hst _ =>
    (stringArg_safe hE (h.mono hst.toKeeps) 1).map fun b u _ => hf a b u

theorem run_safe (hS : S.Safe) (hE : E.Safe S) (h : c.Fits S.forest s) :
    S.Ensures s (c.run S.transformation E) fun v t => v.Fits S.forest t := by
  obtain ⟨f, args, bound, scope, context⟩ := c
  cases f with
  | last => exact .pure fits_nil
  | position => exact .pure fits_nil
  | count =>
    exact (nodeSetArg_safe hE h 0).bind fun ns t _ _ hns =>
      (NodeSet.count_safe hS hE hns).map fun _ _ _ => fits_nil
  | current =>
    exact (current_safe h.context).map fun n t hn => NodeSet.fits_ofOption.mpr (by simpa using hn)
  | id =>
    refine (valueArg_safe hE h 0).bind fun v t _ hst hv => ?_
    exact (focus_safe (h.mono hst.toKeeps)).bind fun n u _ htu hn =>
      byId_safe hS hE (hv.mono htu.toKeeps) hn
  | key =>
    refine (stringArg_safe hE h 0).bind fun name t _ hst _ => ?_
    have ht := h.mono hst.toKeeps
    refine (valueArg_safe hE ht 1).bind fun v u _ htu hv => ?_
    have hu := ht.mono htu.toKeeps
    exact (focus_safe hu).bind fun n w _ huw hn =>
      byKey_safe hS hE name (hv.mono huw.toKeeps) scope hn (hu.context.mono huw.toKeeps)
  | document =>
    refine (valueArg_safe hE h 0).bind fun v t _ hst hv => ?_
    have ht := h.mono hst.toKeeps
    exact (optionalArg_safe ht 1 fun e he => hE.nodeSet he ht.context).bind
      fun b u _ htu hb => documents_safe hS hE (hv.mono htu.toKeeps) hb scope
  | localName => exact (subject_safe hS hE h).map fun _ _ _ => fits_nil
  | namespaceUri => exact (subject_safe hS hE h).map fun _ _ _ => fits_nil
  | name => exact (subject_safe hS hE h).map fun _ _ _ => fits_nil
  | generateId => exact (subject_safe hS hE h).map fun _ _ _ => fits_nil
  | not => exact (booleanArg_safe hE h 0).map fun _ _ _ => fits_nil
  | true => exact .pure fits_nil
  | false => exact .pure fits_nil
  | boolean => exact (booleanArg_safe hE h 0).map fun _ _ _ => fits_nil
  | lang =>
    exact (stringArg_safe hE h 0).bind fun _ t _ hst _ =>
      (focus_safe (h.mono hst.toKeeps)).map fun _ _ _ => fits_nil
  | number =>
    cases args with
    | nil => exact (focus_safe h).map fun _ _ _ => fits_nil
    | cons e rest => exact (hE.number (h.args e (by simp)) h.context).map fun _ _ _ => fits_nil
  | floor => exact (numberArg_safe hE h 0).map fun _ _ _ => fits_nil
  | ceiling => exact (numberArg_safe hE h 0).map fun _ _ _ => fits_nil
  | round => exact (numberArg_safe hE h 0).map fun _ _ _ => fits_nil
  | sum =>
    exact (nodeSetArg_safe hE h 0).bind fun ns t _ _ hns =>
      (sum_safe hS hE hns).map fun _ _ _ => fits_nil
  | string => exact (subjectString_safe hE h).map fun _ _ _ => fits_nil
  | startsWith => exact twoStrings_safe hE h fun _ _ _ => fits_nil
  | stringLength => exact (subjectString_safe hE h).map fun _ _ _ => fits_nil
  | substring =>
    refine (stringArg_safe hE h 0).bind fun _ t _ hst _ => ?_
    have ht := h.mono hst.toKeeps
    refine (numberArg_safe hE ht 1).bind fun _ u _ htu _ => ?_
    have hu := ht.mono htu.toKeeps
    exact (optionalArg_safe hu 2 fun e he => hE.number he hu.context).map fun _ _ _ => fits_nil
  | contains => exact twoStrings_safe hE h fun _ _ _ => fits_nil
  | substringBefore => exact twoStrings_safe hE h fun _ _ _ => fits_nil
  | substringAfter => exact twoStrings_safe hE h fun _ _ _ => fits_nil
  | normalizeSpace => exact (subjectString_safe hE h).map fun _ _ _ => fits_nil
  | translate =>
    refine (stringArg_safe hE h 0).bind fun _ t _ hst _ => ?_
    have ht := h.mono hst.toKeeps
    exact (stringArg_safe hE ht 1).bind fun _ u _ htu _ =>
      (stringArg_safe hE (ht.mono htu.toKeeps) 2).map fun _ _ _ => fits_nil
  | concat => exact (joinedArgs_safe hE h.context h.args).map fun _ _ _ => fits_nil
  | formatNumber =>
    refine (numberArg_safe hE h 0).bind fun _ t _ hst _ => ?_
    have ht := h.mono hst.toKeeps
    refine (stringArg_safe hE ht 1).bind fun _ u _ htu _ => ?_
    have hu := ht.mono htu.toKeeps
    refine (optionalArg_safe hu 2 fun e he => hE.string he hu.context).bind fun _ _ _ _ _ => ?_
    exact resolved_safe.map fun _ _ _ => fits_nil
  | systemProperty =>
    exact (stringArg_safe hE h 0).bind fun _ _ _ _ _ =>
      resolved_safe.map fun name _ _ => fits_systemProperty name
  | functionAvailable =>
    exact (stringArg_safe hE h 0).bind fun _ _ _ _ _ => resolved_safe.map fun _ _ _ => fits_nil
  | elementAvailable =>
    exact (stringArg_safe hE h 0).bind fun _ _ _ _ _ => resolved_safe.map fun _ _ _ => fits_nil
  | unparsedEntityUri =>
    exact (focus_safe h).bind fun _ t _ hst _ =>
      (stringArg_safe hE (h.mono hst.toKeeps) 0).map fun _ _ _ => fits_nil
  | hasSameNode =>
    refine (nodeSetArg_safe hE h 0).bind fun a t _ hst ha => ?_
    exact (nodeSetArg_safe hE (h.mono hst.toKeeps) 1).bind fun b u _ htu hb =>
      (haveSameNode_safe hS hE (ha.mono htu.toKeeps) hb).map fun _ _ _ => fits_nil
  | leading =>
    refine (nodeSetArg_safe hE h 0).bind fun a t _ hst ha => ?_
    exact (nodeSetArg_safe hE (h.mono hst.toKeeps) 1).bind fun b u _ htu hb =>
      (leading_safe hS hE (ha.mono htu.toKeeps) hb).map fun _ _ hns => hns
  | trailing =>
    refine (nodeSetArg_safe hE h 0).bind fun a t _ hst ha => ?_
    exact (nodeSetArg_safe hE (h.mono hst.toKeeps) 1).bind fun b u _ htu hb =>
      (trailing_safe hS hE (ha.mono htu.toKeeps) hb).map fun _ _ hns => hns

end

end Call

end Function

end PathLanguage
