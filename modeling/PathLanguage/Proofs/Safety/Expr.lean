/- Evaluation of expressions is safe, by every route. -/
import PathLanguage.Proofs.Safety.Function
import PathLanguage.Proofs.Session.Returns

namespace PathLanguage

open Setting (Ensures Steps)

variable {S : Setting} {s : Session} {E : Engine}

theorem lookup_assocSet_self {α β : Type} [BEq α] [LawfulBEq α] (k : α) (v : β)
    (l : List (α × β)) : (assocSet k v l).lookup k = some v := by
  induction l with
  | nil => simp [assocSet]
  | cons p l ih =>
    obtain ⟨k', v'⟩ := p
    by_cases h : k' == k
    · simp [assocSet, h]
    · have h' : (k == k') = false := by
        rw [beq_eq_false_iff_ne]
        rintro rfl
        simp at h
      simp [assocSet, h, List.lookup_cons, h', ih]

theorem lookup_assocSet_ne {α β : Type} [BEq α] [LawfulBEq α] {k k' : α} (hne : k' ≠ k) (v : β)
    (l : List (α × β)) : (assocSet k v l).lookup k' = l.lookup k' := by
  have hb : (k' == k) = false := beq_eq_false_iff_ne.mpr hne
  induction l with
  | nil => simp [assocSet, List.lookup_cons, hb]
  | cons p l ih =>
    obtain ⟨k₁, v₁⟩ := p
    by_cases h : k₁ == k
    · obtain rfl := eq_of_beq h
      simp [assocSet, List.lookup_cons, hb]
    · simp [assocSet, h, List.lookup_cons, ih]

namespace Session

theorem slot?_setSlot_self (s : Session) (name : ExpandedName) (slot : Slot) :
    (s.setSlot name slot).slot? name = some slot :=
  lookup_assocSet_self name slot s.globals

theorem slot?_setSlot_ne (s : Session) {name name' : ExpandedName} (h : name' ≠ name)
    (slot : Slot) : (s.setSlot name slot).slot? name' = s.slot? name' :=
  lookup_assocSet_ne h slot s.globals

/-- A new state of a global whose value is not known yet. -/
theorem sound_setSlot (hs : S.Sound s) (name : ExpandedName) (slot : Slot)
    (hold : ∀ v, s.slot? name ≠ some (.evaluated v))
    (hpending : ∀ d, slot = .pending d → S.globals name = some d ∧ d.Fits S.forest s)
    (hevaluated : ∀ v, slot = .evaluated v → v.Fits S.forest s) :
    S.Sound (s.setSlot name slot) ∧ s.Keeps (s.setSlot name slot) := by
  have hk : s.Keeps (s.setSlot name slot) := by
    refine ⟨fun _ _ h => h, fun name' v h => ?_, fun _ _ h => h, fun _ _ _ h => h, fun _ _ h => h⟩
    by_cases hn : name' = name
    · exact absurd (hn ▸ h) (hold v)
    · rw [slot?_setSlot_ne s hn]
      exact h
  refine ⟨⟨?_, ?_, ?_, hs.indexes, hs.documents, ?_⟩, hk⟩
  · intro name' d h
    by_cases hn : name' = name
    · subst hn
      rw [slot?_setSlot_self] at h
      have hp := hpending d (Option.some.inj h)
      exact ⟨hp.1, hp.2.mono hk⟩
    · rw [slot?_setSlot_ne s hn] at h
      exact ⟨(hs.pending name' d h).1, (hs.pending name' d h).2.mono hk⟩
  · intro name' v h
    by_cases hn : name' = name
    · subst hn
      rw [slot?_setSlot_self] at h
      exact (hevaluated v (Option.some.inj h)).mono hk
    · rw [slot?_setSlot_ne s hn] at h
      exact (hs.evaluated name' v h).mono hk
  · exact fun id i h => (hs.intents id i h).mono hk
  · exact fun d hd => (hs.keys d hd).mono hk

end Session

/-- A computation marked by a slot: the mark stays until the outcome replaces it. -/
def guarded (name : ExpandedName) (definition : Expr) (a : Action Value) : Action Value := do
  modify fun s => s.setSlot name .evaluating
  match ← a.outcome with
  | .ok v =>
    modify fun s => s.setSlot name (.evaluated v)
    return v
  | .error f =>
    modify fun s => s.setSlot name (.pending definition)
    throw f

theorem guarded_run (name : ExpandedName) (definition : Expr) (a : Action Value) (s : Session) :
    (guarded name definition a).attempt.run s =
      match a.attempt.run (s.setSlot name .evaluating) with
      | (.ok v, t) => (.ok v, t.setSlot name (.evaluated v))
      | (.error f, t) => (.error f, t.setSlot name (.pending definition)) := by
  rcases h : a.attempt.run (s.setSlot name .evaluating) with ⟨r, t⟩
  have hrun : (guarded name definition a).attempt.run s =
      (match (a.attempt.run (s.setSlot name .evaluating)).1 with
        | .ok v => do
          modify fun s => s.setSlot name (.evaluated v)
          return v
        | .error f => do
          modify fun s => s.setSlot name (.pending definition)
          throw f : Action Value).attempt.run (a.attempt.run (s.setSlot name .evaluating)).2 := rfl
  rw [hrun, h]
  cases r <;> rfl

/-- The mark is set on a pending global and is gone at the end, so the whole leads on. -/
theorem guarded_safe {name : ExpandedName} {d : Expr} (hp : s.slot? name = some (.pending d))
    {a : Action Value}
    (ha : ∀ t, s.Keeps t → S.Ensures t a fun v t => v.Fits S.forest t) :
    S.Ensures s (guarded name d a) fun v t => v.Fits S.forest t := by
  intro hs
  obtain ⟨hs₁, hk₁⟩ := Session.sound_setSlot hs name .evaluating (by simp [hp]) nofun nofun
  obtain ⟨ht, hst, hpost⟩ := ha _ hk₁ hs₁
  have hmark := hst.evaluating name (Session.slot?_setSlot_self s name .evaluating)
  rw [guarded_run]
  generalize a.attempt.run (s.setSlot name .evaluating) = result at *
  obtain ⟨r, t⟩ := result
  have hleads : ∀ slot, t.Keeps (t.setSlot name slot) → s.LeadsTo (t.setSlot name slot) := by
    intro slot hk
    refine ⟨(hk₁.trans hst.toKeeps).trans hk, fun name' h => ?_⟩
    have hne : name' ≠ name := by
      rintro rfl
      simp [hp] at h
    rw [Session.slot?_setSlot_ne _ hne]
    exact hst.evaluating name' (by rw [Session.slot?_setSlot_ne _ hne]; exact h)
  cases r with
  | ok v =>
    have hv := hpost v rfl
    obtain ⟨hu, hk⟩ := Session.sound_setSlot ht name (.evaluated v) (by simp [hmark]) nofun
      (by rintro _ ⟨⟩; exact hv)
    exact ⟨hu, hleads _ hk, by rintro _ ⟨⟩; exact hv.mono hk⟩
  | error f =>
    have hd : S.globals name = some d ∧ d.Fits S.forest t :=
      ⟨(hs.pending name d hp).1, ((hs.pending name d hp).2.mono hk₁).mono hst.toKeeps⟩
    obtain ⟨hu, hk⟩ := Session.sound_setSlot ht name (.pending d) (by simp [hmark])
      (by rintro _ ⟨⟩; exact hd) nofun
    exact ⟨hu, hleads _ hk, nofun⟩

theorem globalValue_safe (hS : S.Safe) (hE : E.Safe S) (name : ExpandedName) :
    S.Ensures s (globalValue S.transformation E name) fun v t => v.Fits S.forest t := by
  refine .assume fun hs => .get ?_
  split
  · exact .throw
  · next v hv => exact .pure (hs.evaluated name v hv)
  · exact .throw
  · next d hd =>
    exact guarded_safe hd fun t hk =>
      hE.value ((hs.pending name d hd).2.mono hk) (hS.globalContext t)

theorem Context.valueOf_safe (hS : S.Safe) (hE : E.Safe S) {c : Context}
    (hc : c.Fits S.forest s) (b : Binding) :
    S.Ensures s (c.valueOf S.transformation E b) fun v t => v.Fits S.forest t := by
  unfold Context.valueOf
  split
  · next v hv =>
    obtain ⟨l, r, he, -⟩ := List.lookup_eq_some_iff.mp hv
    exact .pure (hc.locals (b.name, v) (by simp [he]))
  · exact .ite (fun _ => globalValue_safe hS hE b.name) fun _ => .fail

namespace Expr

theorem values_safe (hE : E.Safe S) {c : Context} (hc : c.Fits S.forest s) {es : List Expr}
    (he : ∀ e ∈ es, e.Fits S.forest s) :
    S.Ensures s (values E c es) fun vs t => ∀ v ∈ vs, v.Fits S.forest t := by
  induction es generalizing s with
  | nil => exact .pure (by simp)
  | cons e es ih =>
    refine (hE.value (he e (by simp)) hc).bind fun v t _ hst hv => ?_
    refine (ih (hc.mono hst.toKeeps) fun e' he' => (he e' (by simp [he'])).mono hst.toKeeps).bind
      fun vs u _ htu hvs => .pure ?_
    intro w hw
    rcases List.mem_cons.mp hw with rfl | hw
    · exact hv.mono htu.toKeeps
    · exact hvs w hw

theorem callHost_safe (hS : S.Safe) (hE : E.Safe S) (name : ExpandedName) {args : List Value}
    (ha : ∀ v ∈ args, v.Fits S.forest s) {c : Context} (hc : c.Fits S.forest s) :
    S.Ensures s (callHost S.transformation E name args c) fun v t => v.Fits S.forest t := by
  refine (Ensures.ofExcept (Q := fun o _ => o ∈ S.transformation.functions.overloads) ?_).bind
    fun o t _ hst ho => ?_
  · intro o ho
    cases hr : S.transformation.functions.resolve name args.length with
    | error f => simp [hr, Except.mapError] at ho
    | ok o' =>
      obtain rfl : o' = o := by simpa [hr, Except.mapError] using ho
      exact FunctionLibrary.resolve_mem hr
  · refine (Ensures.update (Q := fun _ _ => True) fun ht => ?_).bind fun number u _ htu _ => ?_
    · exact ⟨(Function.sound_calls ht _).1, (Function.sound_calls ht _).2, trivial⟩
    · have hsu := (hst.trans htu).toKeeps
      refine hS.hosts o ho u _ args ⟨hc.mono hsu, ?_, ?_, ?_, ?_⟩ fun v hv => (ha v hv).mono hsu
      · exact fun w v _ hv => Value.asString_safe hS hE hv
      · exact fun w v _ hv => Value.asNumber_safe hS hE hv
      · exact fun w v _ hv => Value.asBoolean_safe hS hE hv
      · exact fun w ns _ hns => NodeSet.first_safe hS hE hns

theorem evaluate_safe (hS : S.Safe) (hE : E.Safe S) {e : Expr} (he : e.Fits S.forest s)
    {c : Context} (hc : c.Fits S.forest s) :
    S.Ensures s (e.evaluate S.transformation E c) fun v t => v.Fits S.forest t := by
  have hboolean : S.Ensures s (do return Value.boolean (← E.boolean e c)) fun v t =>
      v.Fits S.forest t := (hE.boolean he hc).map fun _ _ _ => fits_nil
  have hnumber : S.Ensures s (do return Value.number (← E.number e c)) fun v t =>
      v.Fits S.forest t := (hE.number he hc).map fun _ _ _ => fits_nil
  have hnodes : S.Ensures s (do return Value.nodeSet (← E.nodeSet e c)) fun v t =>
      v.Fits S.forest t := (hE.nodeSet he hc).map fun _ _ hns => hns
  cases e with
  | value v => exact .pure he
  | call f args bound scope =>
    rw [Expr.Fits, leaves, fits_cons, fits_append, fits_leavesOfAll, fits_nodes] at he
    exact Function.Call.run_safe hS hE
      ⟨he.2.1, fun n hn => he.2.2 n (by simpa using hn), hc⟩
  | extension name args =>
    rw [Expr.Fits, leaves, fits_cons, fits_leavesOfAll] at he
    exact (values_safe hE hc he.2).bind fun vs t _ hst hvs =>
      callHost_safe hS hE name hvs (hc.mono hst.toKeeps)
  | reference b =>
    simp only [evaluate]
    cases b.constant with
    | some k => cases k <;> exact .pure fits_nil
    | none => exact Context.valueOf_safe hS hE hc b
  | template parts => exact (hE.string he hc).map fun _ _ _ => fits_nil
  | failure f => exact .throw
  | logical => exact hboolean
  | compare => exact hboolean
  | compareNode => exact hboolean
  | compareNodes => exact hboolean
  | positionRange => exact hboolean
  | isLast => exact hboolean
  | arithmetic => exact hnumber
  | negate => exact hnumber
  | root => exact hnodes
  | contextNode => exact hnodes
  | parentNode => exact hnodes
  | currentNode => exact hnodes
  | «attribute» => exact hnodes
  | path => exact hnodes
  | axis => exact hnodes
  | filter => exact hnodes
  | set => exact hnodes
  | distinct => exact hnodes
  | distinctBy => exact hnodes
  | sorted => exact hnodes

theorem evaluateBoolean_safe (hS : S.Safe) (hE : E.Safe S) {e : Expr} (he : e.Fits S.forest s)
    {c : Context} (hc : c.Fits S.forest s) :
    S.Ensures s (e.evaluateBoolean S.transformation E c) fun _ _ => True := by
  have hvalue : S.Ensures s (do (← E.value e c).asBoolean S.transformation E) fun _ _ => True :=
    (hE.value he hc).bind fun v t _ _ hv => Value.asBoolean_safe hS hE hv
  have hnodes : S.Ensures s (do return (← E.head (← E.cursor e c false)).isSome)
      fun _ _ => True :=
    (hE.cursor he hc).bind fun r t _ _ ⟨hr, _⟩ => (hE.head hr).map fun _ _ _ => trivial
  cases e with
  | logical op l r =>
    rw [Expr.Fits, leaves, fits_append] at he
    cases op with
    | and =>
      refine (hE.boolean he.1 hc).bind fun b t _ hst _ => .ite (fun _ => ?_) fun _ => .pure trivial
      exact hE.boolean (he.2.mono hst.toKeeps) (hc.mono hst.toKeeps)
    | or =>
      refine (hE.boolean he.1 hc).bind fun b t _ hst _ => .ite (fun _ => .pure trivial) fun _ => ?_
      exact hE.boolean (he.2.mono hst.toKeeps) (hc.mono hst.toKeeps)
  | compare op l r =>
    rw [Expr.Fits, leaves, fits_append] at he
    refine (hE.value he.1 hc).bind fun a t _ hst ha => ?_
    refine (hE.value (he.2.mono hst.toKeeps) (hc.mono hst.toKeeps)).bind fun b u _ htu hb => ?_
    exact Value.compare_safe hS hE (ha.mono htu.toKeeps) hb op
  | compareNode op node scalar =>
    rw [Expr.Fits, leaves, fits_append] at he
    refine (hE.nodeSet he.1 hc).bind fun ns t _ hst hns => ?_
    refine (NodeSet.first_safe hS hE hns).bind fun n u _ htu _ => ?_
    split
    · next n _ =>
      have hn : (Value.string n.stringValue).Fits S.forest u := fits_nil
      exact Value.compare_safe hS hE hn (he.2.mono (hst.trans htu).toKeeps) op
    · exact .pure trivial
  | compareNodes op nodes scalar =>
    rw [Expr.Fits, leaves, fits_append] at he
    refine (hE.nodeSet he.1 hc).bind fun ns t _ hst hns => ?_
    exact Value.compare_safe hS hE (Value.fits_nodeSet.mpr hns) (he.2.mono hst.toKeeps) op
  | positionRange => exact .pure trivial
  | isLast => exact .pure trivial
  | value => exact hvalue
  | call => exact hvalue
  | extension => exact hvalue
  | reference => exact hvalue
  | template => exact hvalue
  | failure => exact hvalue
  | arithmetic => exact hvalue
  | negate => exact hvalue
  | root => exact hnodes
  | contextNode => exact hnodes
  | parentNode => exact hnodes
  | currentNode => exact hnodes
  | «attribute» => exact hnodes
  | path => exact hnodes
  | axis => exact hnodes
  | filter => exact hnodes
  | set => exact hnodes
  | distinct => exact hnodes
  | distinctBy => exact hnodes
  | sorted => exact hnodes

theorem evaluateNumber_safe (hS : S.Safe) (hE : E.Safe S) {e : Expr} (he : e.Fits S.forest s)
    {c : Context} (hc : c.Fits S.forest s) :
    S.Ensures s (e.evaluateNumber S.transformation E c) fun _ _ => True := by
  unfold evaluateNumber
  split
  · rw [Expr.Fits, leaves, fits_append] at he
    refine (hE.number he.1 hc).bind fun a t _ hst _ => ?_
    exact (hE.number (he.2.mono hst.toKeeps) (hc.mono hst.toKeeps)).map fun _ _ _ => trivial
  · rw [Expr.Fits, leaves] at he
    exact (hE.number he hc).map fun _ _ _ => trivial
  · exact (hE.value he hc).bind fun v t _ _ hv => Value.asNumber_safe hS hE hv

theorem evaluateString_safe (hS : S.Safe) (hE : E.Safe S) {e : Expr} (he : e.Fits S.forest s)
    {c : Context} (hc : c.Fits S.forest s) :
    S.Ensures s (e.evaluateString S.transformation E c) fun _ _ => True := by
  unfold evaluateString
  split
  · rw [Expr.Fits, leaves, fits_leavesOfAll] at he
    exact Function.Call.joinedArgs_safe hE hc he
  · refine .ite (fun _ => ?_) fun _ => ?_
    · exact (hE.cursor he hc).bind fun r t _ _ hr => (hE.head hr.1).map fun _ _ _ => trivial
    · exact (hE.value he hc).bind fun v t _ _ hv => Value.asString_safe hS hE hv

theorem nodeSetOf_safe {v : Value} (hv : v.Fits S.forest s) :
    S.Ensures s (nodeSetOf v) fun ns t => ns.Fits S.forest t := by
  cases v with
  | nodeSet ns => exact .pure hv
  | string => exact .fail
  | number => exact .fail
  | boolean => exact .fail
  | object => exact .fail

theorem evaluateNodeSet_safe (hE : E.Safe S) {e : Expr} (he : e.Fits S.forest s) {c : Context}
    (hc : c.Fits S.forest s) :
    S.Ensures s (e.evaluateNodeSet E c) fun ns t => ns.Fits S.forest t := by
  unfold evaluateNodeSet
  split
  · exact nodeSetOf_safe he
  · refine .ite (fun _ => ?_) fun _ => ?_
    · exact (hE.value he hc).bind fun v t _ _ hv => nodeSetOf_safe hv
    · refine (hE.reduce he hc).bind fun ⟨r, changed⟩ t _ hst hr => ?_
      dsimp only at hr ⊢
      split
      · exact nodeSetOf_safe hr
      · refine .ite (fun _ => NodeSet.ofDefinition_safe hr) fun _ => ?_
        refine (hE.cursor hr (hc.mono hst.toKeeps)).bind fun k u _ _ ⟨hk, _⟩ => ?_
        exact (hE.extent hk).map fun x _ hx => NodeSet.fits_extent.mpr hx

theorem steps_sound {start : Cursor} (hs : start.Sound S s) {plan : StepPlan}
    (hp : ∀ p ∈ plan.predicates, p.Fits S.forest s) {c : Context} (hc : c.Fits S.forest s)
    (sorted : Bool) (ho : sorted = true → Cursor.StaysOrdered start plan.axis) :
    Cursor.Sound S s (.steps start plan c.ambient .empty sorted) := by
  exact ⟨Cursor.steps_ordered hs.ordered plan c.ambient ho, hs.fits, hp, hc.ambient, trivial⟩

theorem sort_safe {e : Extent} (he : e.Fits S.forest) :
    S.Ensures s (do return Cursor.ofExtent (← .ofExcept e.sort)) fun r t =>
      r.Sound S t ∧ r.flags.sorted = true :=
  (Ensures.ofExcept (Q := fun e' _ => e'.Fits S.forest ∧ e'.sorted = true)
    fun _ hs => Extent.sort_fits he hs).map fun _ _ ⟨hf, hs⟩ => ⟨Cursor.sound_ofExtent hf, hs⟩

theorem pathCursor_safe (hE : E.Safe S) {start : Expr} (hs : start.Fits S.forest s)
    {plan : StepPlan} (hp : ∀ p ∈ plan.predicates, p.Fits S.forest s) {c : Context}
    (hc : c.Fits S.forest s) :
    S.Ensures s (pathCursor E start plan c) fun r t => r.Sound S t ∧ r.flags.sorted = true := by
  refine (hE.cursor hs hc).bind fun starts t _ hst ⟨hstarts, hsorted, hsingle⟩ => ?_
  replace hp := fun p hp' => (hp p hp').mono hst.toKeeps
  replace hc := hc.mono hst.toKeeps
  refine .ite (fun h => ?_) fun _ => ?_
  · refine .pure ⟨steps_sound hstarts hp hc true fun _ => ?_, rfl⟩
    simp only [Bool.and_eq_true, Bool.or_eq_true] at h
    refine ⟨h.1, h.2.imp hsingle fun h' => ⟨hsorted (.inl rfl), h'⟩⟩
  · refine (hE.extent (steps_sound hstarts hp hc false nofun)).bind fun e u _ _ he => ?_
    exact sort_safe he

theorem cursorFrom_safe (hE : E.Safe S) (sort : Bool) {c : Cursor} (hc : c.Sound S s) :
    S.Ensures s (cursorFrom E sort c) fun r t =>
      r.Sound S t ∧ (sort = true → r.flags.sorted = true) :=
  .ite (fun _ => (hE.sortedCursor hc).imp fun _ _ _ _ ⟨hr, hs⟩ => ⟨hr, fun _ => hs⟩)
    fun h => .pure ⟨hc, fun h' => absurd h' h⟩

theorem fits_find_attributes {F : Forest} {n m : Node} (hn : F.Holds n) {p : Node → Bool}
    (hm : n.attributes.find? p = some m) : F.Holds m :=
  hn.attributes m (List.mem_of_find?_eq_some hm)

/-- What evaluation ensures of the cursor on the nodes of an expression. -/
def CursorFits (S : Setting) (e : Expr) (sort : Bool) (r : Cursor) (t : Session) : Prop :=
  r.Sound S t ∧ (sort = true ∨ e.isSingleton = true → r.flags.sorted = true) ∧
    (e.isSingleton = true → r.IsSingle)

theorem enumerate_safe (hS : S.Safe) (hE : E.Safe S) {e : Expr} (he : e.Fits S.forest s)
    {c : Context} (hc : c.Fits S.forest s) (sort : Bool) :
    S.Ensures s (e.enumerate S.transformation E c sort) (CursorFits S e sort) := by
  have hone : ∀ {t : Session} {n : Option Node}, (∀ m ∈ n, S.forest.Holds m) →
      CursorFits S e sort (.ofOption n) t := fun hn =>
    ⟨Cursor.sound_ofOption hn, fun _ => rfl, fun _ => Cursor.isSingle_ofOption _⟩
  have hmany : e.isSingleton = false → ∀ {t : Session} {a : Action Cursor},
      S.Ensures t a (fun r u => r.Sound S u ∧ (sort = true → r.flags.sorted = true)) →
      S.Ensures t a (CursorFits S e sort) := fun h1 t a ha =>
    ha.imp fun r u _ _ ⟨hr, hs⟩ => ⟨hr, fun h => h.elim hs fun h => by simp [h1] at h,
      fun h => by simp [h1] at h⟩
  have hsorted : e.isSingleton = false → ∀ {t : Session} {a : Action Cursor},
      S.Ensures t a (fun r u => r.Sound S u ∧ r.flags.sorted = true) →
      S.Ensures t a (CursorFits S e sort) := fun h1 t a ha =>
    hmany h1 (ha.imp fun r u _ _ ⟨hr, hs⟩ => ⟨hr, fun _ => hs⟩)
  have hother : e.isSingleton = false →
      S.Ensures s (do (← E.nodeSet e c).enumerateSorted S.transformation E sort)
        (CursorFits S e sort) := fun h1 =>
    hmany h1 ((hE.nodeSet he hc).bind fun ns t _ _ hns =>
      NodeSet.enumerateSorted_safe hS hE hns sort)
  cases e with
  | root =>
    exact (Function.Call.node_safe hc).map fun n t hn => hone (by simpa using hn.top)
  | contextNode =>
    exact (Function.Call.node_safe hc).map fun n t hn => hone (by simpa using hn)
  | parentNode =>
    exact (Function.Call.node_safe hc).map fun n t hn => hone fun m hm => hn.parent hm
  | currentNode =>
    exact (Function.Call.current_safe hc).map fun n t hn => hone (by simpa using hn)
  | «attribute» name =>
    exact (Function.Call.node_safe hc).map fun n t hn => hone fun m hm => fits_find_attributes hn hm
  | axis along test origin =>
    rw [Expr.Fits, leaves, fits_nodes] at he
    refine hmany rfl ?_
    have hfrom : ∀ t n, S.forest.Holds n → S.Ensures t (cursorFrom E sort (.onAxis n along test))
        fun r t => r.Sound S t ∧ (sort = true → r.flags.sorted = true) := fun t n hn =>
      cursorFrom_safe hE sort ⟨Cursor.onAxis_ordered hn along test, trivial⟩
    cases origin with
    | some n => exact hfrom s n (he n (by simp))
    | none => exact (Function.Call.node_safe hc).bind fun n t _ _ hn => hfrom t n hn
  | path start along test predicates =>
    rw [Expr.Fits, leaves, fits_append, fits_leavesOfAll] at he
    exact hsorted rfl (pathCursor_safe hE he.1 he.2 hc)
  | filter base predicate =>
    rw [Expr.Fits, leaves, fits_append] at he
    refine hmany rfl ((hE.cursor he.1 hc).bind fun r t _ hst hr => .pure ⟨?_, ?_⟩)
    · exact hr.1.select (he.2.mono hst.toKeeps) (hc.mono hst.toKeeps) false
    · rw [Cursor.flags_select]
      exact fun h => hr.2.1 (.inl (by simp [h]))
  | set op l r =>
    rw [Expr.Fits, leaves, fits_append] at he
    refine hsorted rfl ((hE.cursor he.1 hc).bind fun a t _ hst ha => ?_)
    refine (hE.cursor (he.2.mono hst.toKeeps) (hc.mono hst.toKeeps)).bind fun b u _ htu hb => ?_
    exact Cursor.startMerge_safe hE op (ha.1.mono htu.toKeeps) hb.1
  | distinct base =>
    rw [Expr.Fits, leaves] at he
    refine hsorted rfl ((hE.cursor he hc).bind fun r t _ hst hr => ?_)
    exact Cursor.startDistinct_safe hE hr.1 (by simp) (hc.mono hst.toKeeps)
  | distinctBy base key =>
    rw [Expr.Fits, leaves, fits_append] at he
    refine hsorted rfl ((hE.cursor he.1 hc).bind fun r t _ hst hr => ?_)
    have hkey : key.Fits S.forest t := Expr.Fits.mono he.2 hst.toKeeps
    exact Cursor.startDistinct_safe hE hr.1 (by simpa using hkey) (hc.mono hst.toKeeps)
  | sorted base keys rules =>
    rw [Expr.Fits, leaves, fits_append, fits_leavesOfAll] at he
    refine hmany rfl ((hE.cursor he.1 hc).bind fun r t _ hst hr => ?_)
    refine (hE.drain hr.1).bind fun ns u _ htu hns => ?_
    have hheld : S.forest.HoldsAll ns := fun n hn => hr.1.ordered.holds (hns.1 n hn)
    have hsu := (hst.trans htu).toKeeps
    have hkeys : ∀ k ∈ keys.zip rules, k.1.Fits S.forest u := fun k hk =>
      Expr.Fits.mono (he.2 k.1 (List.of_mem_zip hk).1) hsu
    refine (Sorting.sortNodes_safe hE hheld hkeys (hc.mono hsu)).bind fun ms v _ _ hms => ?_
    have hms : S.forest.HoldsAll ms := fun n hn => hheld n (hms.subset hn)
    refine .ite (fun _ => ?_) fun h => .pure ⟨⟨⟨hms, ?_⟩, trivial⟩, fun h' => absurd h' h⟩
    · have hfits : (Extent.ofNodes ms false).Fits S.forest :=
        ⟨Extent.ofNodes_honest (by simp), hms⟩
      exact (sort_safe hfits).imp fun r w _ _ hr => ⟨hr.1, fun _ => hr.2⟩
    · exact List.pairwise_of_forall fun _ _ => ⟨by simp, by simp, by simp⟩
  | value v =>
    cases v with
    | nodeSet ns => exact hmany rfl (NodeSet.enumerateSorted_safe hS hE he sort)
    | string => exact hother rfl
    | number => exact hother rfl
    | boolean => exact hother rfl
    | object => exact hother rfl
  | logical => exact hother rfl
  | compare => exact hother rfl
  | compareNode => exact hother rfl
  | compareNodes => exact hother rfl
  | arithmetic => exact hother rfl
  | negate => exact hother rfl
  | call => exact hother rfl
  | extension => exact hother rfl
  | reference => exact hother rfl
  | positionRange => exact hother rfl
  | isLast => exact hother rfl
  | template => exact hother rfl
  | failure => exact hother rfl

end Expr

end PathLanguage
