/- Matching, key searches and sorting by keys are safe; an index holds nodes of its document. -/
import PathLanguage.Proofs.Safety.Value

namespace PathLanguage

open Setting (Ensures Steps)

variable {S : Setting} {s : Session} {E : Engine}

namespace Pattern

theorem holdAll_safe (hE : E.Safe S) {c : Context} (hc : c.Fits S.forest s) {ps : List Expr}
    (hp : ∀ p ∈ ps, p.Fits S.forest s) : S.Ensures s (holdAll E c ps) fun _ _ => True := by
  induction ps generalizing s with
  | nil => exact .pure trivial
  | cons p ps ih =>
    refine (hE.boolean (hp p (by simp)) hc).bind fun b t _ hst _ => .ite (fun _ => ?_) fun _ =>
      .pure trivial
    exact ih (hc.mono hst.toKeeps) fun q hq => (hp q (by simp [hq])).mono hst.toKeeps

theorem passes_safe (hE : E.Safe S) {p : PatternStep}
    (hp : Fits S.forest s (leavesOfAll p.predicates ++ p.check.leaves)) {n : Node}
    (hn : S.forest.Holds n) {c : Context} (hc : c.Fits S.forest s) :
    S.Ensures s (passes E p n c) fun _ _ => True := by
  rw [fits_append, fits_leavesOfAll] at hp
  unfold passes
  split
  · exact holdAll_safe hE (hc.withNode hn) hp.1
  · have hs : (Cursor.onAxis n .precedingSibling p.test).Sound S s :=
      ⟨Cursor.onAxis_ordered hn _ _, trivial⟩
    exact (hE.head hs).map fun _ _ _ => trivial
  · have hs : (Cursor.onAxis n .followingSibling p.test).Sound S s :=
      ⟨Cursor.onAxis_ordered hn _ _, trivial⟩
    exact (hE.head hs).map fun _ _ _ => trivial
  · next e he =>
    rw [he] at hp
    exact (hE.cursor hp.2 (hc.withNode hn)).bind fun r t _ _ ⟨hr, _⟩ => hE.find hr

theorem anyOf_safe {holds : Node → Action Bool} {ns : List Node}
    (h : ∀ t, s.LeadsTo t → ∀ n ∈ ns, S.Ensures t (holds n) fun _ _ => True) :
    S.Ensures s (anyOf holds ns) fun _ _ => True := by
  induction ns generalizing s with
  | nil => exact .pure trivial
  | cons n ns ih =>
    refine (h s (.refl s) n (by simp)).bind fun b t _ hst _ => .ite (fun _ => .pure trivial)
      fun _ => ?_
    exact ih fun u htu m hm => h u (hst.trans htu) m (by simp [hm])

theorem accepts_safe (hE : E.Safe S) {p : Pattern} (hp : Fits S.forest s p.leaves) {n : Node}
    (hn : S.forest.Holds n) {c : Context} (hc : c.Fits S.forest s) :
    S.Ensures s (p.accepts E n c) fun _ _ => True := by
  induction p generalizing s n with
  | document => exact .pure trivial
  | test t => exact .pure trivial
  | step p => exact .ite (fun _ => passes_safe hE hp hn hc) fun _ => .pure trivial
  | under connector upper p ih =>
    rw [leaves, fits_append] at hp
    refine .ite (fun _ => .pure trivial) fun _ => ?_
    have hany : ∀ ms, S.forest.HoldsAll ms → S.Ensures s (do
        if ← anyOf (fun m => accepts E upper m c) ms then passes E p n c else return false)
        fun _ _ => True := by
      intro ms hms
      have habove : ∀ t, s.LeadsTo t → ∀ m ∈ ms, S.Ensures t (accepts E upper m c) fun _ _ => True :=
        fun t hst m hm => ih (hp.1.mono hst.toKeeps) (hms m hm) (hc.mono hst.toKeeps)
      refine (anyOf_safe habove).bind fun b t _ hst _ => .ite (fun _ => ?_) fun _ => .pure trivial
      exact passes_safe hE (hp.2.mono hst.toKeeps) hn (hc.mono hst.toKeeps)
    cases connector with
    | parent => exact hany n.parent.toList fun m hm => hn.parent (by simpa using hm)
    | ancestor => exact hany n.ancestors hn.ancestors
  | id ids => exact .pure trivial
  | key name value => exact (hE.search hn.top hc).map fun _ _ _ => trivial
  | union a b iha ihb =>
    rw [leaves, fits_append] at hp
    refine (iha hp.1 hn hc).bind fun x t _ hst _ => .ite (fun _ => .pure trivial) fun _ => ?_
    exact ihb (hp.2.mono hst.toKeeps) hn (hc.mono hst.toKeeps)

end Pattern

namespace Key

/-- The nodes entered under the values of a key. -/
def EntriesHold (F : Forest) (es : Entries) : Prop := ∀ p ∈ es, F.HoldsAll p.2

theorem EntriesHold.enter {F : Forest} {es : Entries} (h : EntriesHold F es) {n : Node}
    (hn : F.Holds n) (value : String) : EntriesHold F (enter value n es) := by
  induction es with
  | nil =>
    intro p hp
    obtain rfl := List.mem_singleton.mp hp
    simpa using hn
  | cons p es ih =>
    obtain ⟨v, ns⟩ := p
    have hns : F.HoldsAll ns := h (v, ns) (by simp)
    have hrest : EntriesHold F es := fun q hq => h q (by simp [hq])
    simp only [Key.enter]
    split
    · intro q hq
      rcases List.mem_cons.mp hq with rfl | hq
      · dsimp only
        split
        · exact hns
        · exact Forest.holdsAll_append.mpr ⟨hns, by simpa using hn⟩
      · exact hrest q hq
    · intro q hq
      rcases List.mem_cons.mp hq with rfl | hq
      · exact hns
      · exact ih hrest q hq

theorem EntriesHold.enterAll {F : Forest} {es : Entries} (h : EntriesHold F es) {n : Node}
    (hn : F.Holds n) (values : List String) : EntriesHold F (enterAll n values es) := by
  induction values generalizing es with
  | nil => exact h
  | cons v values ih => exact ih (h.enter hn v)

theorem EntriesHold.lookup {F : Forest} {es : Entries} (h : EntriesHold F es) (value : String) :
    F.HoldsAll ((es.lookup value).getD []) := by
  cases hl : es.lookup value with
  | none => simp
  | some ns =>
    obtain ⟨l, r, rfl, -⟩ := List.lookup_eq_some_iff.mp hl
    exact h (value, ns) (by simp)

theorem valuesOf_safe (hS : S.Safe) (hE : E.Safe S) {d : KeyDefinition}
    (hd : Fits S.forest s d.leaves) {n : Node} (hn : S.forest.Holds n) {c : Context}
    (hc : c.Fits S.forest s) :
    S.Ensures s (valuesOf S.transformation E d n c) fun _ _ => True := by
  rw [KeyDefinition.leaves, fits_append] at hd
  refine (hE.value hd.2 ((hc.withNode hn).withCurrent hn)).bind fun v t _ _ hv => ?_
  split
  · exact (NodeSet.members_safe hS hE hv).map fun _ _ _ => trivial
  · exact (Value.asString_safe hS hE hv).map fun _ _ _ => trivial

theorem enterNode_safe (hS : S.Safe) (hE : E.Safe S) {c : Context} (hc : c.Fits S.forest s)
    {n : Node} (hn : S.forest.Holds n) {ds : List KeyDefinition}
    (hd : ∀ d ∈ ds, Fits S.forest s d.leaves) {es : Entries} (he : EntriesHold S.forest es) :
    S.Ensures s (enterNode S.transformation E c n ds es) fun es _ => EntriesHold S.forest es := by
  induction ds generalizing s es with
  | nil => exact .pure he
  | cons d ds ih =>
    have hd0 := hd d (by simp)
    have hp : Fits S.forest s d.pattern.leaves := (fits_append.mp hd0).1
    refine (Pattern.accepts_safe hE hp hn hc).bind fun b t _ hst _ => .ite (fun _ => ?_) fun _ => ?_
    · have hct := hc.mono hst.toKeeps
      refine (valuesOf_safe hS hE (hd0.mono hst.toKeeps) hn hct).bind fun values u _ htu _ => ?_
      refine ih (hct.mono htu.toKeeps) (fun d' hd' => ?_) (he.enterAll hn values)
      exact (hd d' (by simp [hd'])).mono (hst.trans htu).toKeeps
    · exact ih (hc.mono hst.toKeeps) (fun d' hd' => (hd d' (by simp [hd'])).mono hst.toKeeps) he

theorem enterNodes_safe (hS : S.Safe) (hE : E.Safe S) {c : Context} (hc : c.Fits S.forest s)
    {ds : List KeyDefinition} (hd : ∀ d ∈ ds, Fits S.forest s d.leaves) {ns : List Node}
    (hn : S.forest.HoldsAll ns) {es : Entries} (he : EntriesHold S.forest es) :
    S.Ensures s (enterNodes S.transformation E c ds ns es) fun es _ => EntriesHold S.forest es := by
  induction ns generalizing s es with
  | nil => exact .pure he
  | cons n ns ih =>
    rw [Forest.holdsAll_cons] at hn
    refine (enterNode_safe hS hE hc hn.1 hd he).bind fun es' t _ hst he' => ?_
    exact ih (hc.mono hst.toKeeps) (fun d hd' => (hd d hd').mono hst.toKeeps) hn.2 he'

theorem attaches_candidates (withAttributes : Bool) :
    Node.Attaches fun n => if withAttributes then n.attributes else [] := by
  cases withAttributes with
  | true => exact ⟨Node.attributes_ascending, fun _ _ hm => .inl hm⟩
  | false => exact Node.attaches_nil

theorem candidates_holds {F : Forest} {root : Node} (h : F.Holds root) (ds : List KeyDefinition) :
    F.HoldsAll (candidates ds root) :=
  h.walk (attaches_candidates _)

/-- A new index is kept with those that were there. -/
theorem sound_index (hs : S.Sound s) {name : ExpandedName} {root : Node} {es : Entries}
    (he : EntriesHold S.forest es) :
    S.Sound { s with indexes := s.indexes ++ [⟨name, root, es⟩] } ∧
      s.LeadsTo { s with indexes := s.indexes ++ [⟨name, root, es⟩] } := by
  have hk : s.LeadsTo { s with indexes := s.indexes ++ [⟨name, root, es⟩] } := by
    refine ⟨⟨fun _ _ h => h, fun _ _ h => h, fun _ _ h => h, ?_, fun _ _ h => h⟩, fun _ h => h⟩
    intro name' root' i hi
    unfold Session.index? at hi ⊢
    rw [List.find?_append, hi]
    rfl
  refine ⟨⟨?_, ?_, ?_, ?_, hs.documents, ?_⟩, hk⟩
  · exact fun name d h => ⟨(hs.pending name d h).1, (hs.pending name d h).2.mono hk.toKeeps⟩
  · exact fun name v h => (hs.evaluated name v h).mono hk.toKeeps
  · exact fun id i h => (hs.intents id i h).mono hk.toKeeps
  · intro i hi
    rcases List.mem_append.mp hi with hi | hi
    · exact hs.indexes i hi
    · rw [List.mem_singleton.mp hi]
      exact he
  · exact fun d hd => (hs.keys d hd).mono hk.toKeeps

theorem search_safe (hS : S.Safe) (hE : E.Safe S) (name : ExpandedName) (value : String)
    {root : Node} (hr : S.forest.Holds root) {c : Context} (hc : c.Fits S.forest s) :
    S.Ensures s (search S.transformation E name value root c) fun ns _ =>
      S.forest.HoldsAll ns := by
  refine .assume fun hs => .ite (fun _ => .throw) fun _ => .get ?_
  have hd : ∀ d ∈ S.transformation.keysNamed name, Fits S.forest s d.leaves :=
    fun d hd => hs.keys d (List.mem_of_mem_filter hd)
  split
  · next i hi =>
    have hi : EntriesHold S.forest i.entries := hs.indexes i (List.mem_of_find?_eq_some hi)
    exact .pure (hi.lookup value)
  · have hnone : EntriesHold S.forest [] := by simp [EntriesHold]
    refine (enterNodes_safe hS hE hc hd (candidates_holds hr _) hnone).bind fun es t _ _ he => ?_
    refine (Ensures.modify (Q := fun _ _ => True) fun ht => ?_).bind fun _ u _ _ _ =>
      .pure (he.lookup value)
    by_cases hnew : (t.index? name root).isSome = true
    · simpa [hnew] using ⟨ht, Session.LeadsTo.refl t⟩
    · simpa [hnew] using sound_index ht he

end Key

namespace Sorting

theorem keyValues_safe (hE : E.Safe S) {focus : Context} (hf : focus.Fits S.forest s)
    {ks : List (Expr × SortRule)} (hk : ∀ k ∈ ks, k.1.Fits S.forest s) :
    S.Ensures s (keyValues E focus ks) fun _ _ => True := by
  induction ks generalizing s with
  | nil => exact .pure trivial
  | cons k ks ih =>
    obtain ⟨key, rule⟩ := k
    have hone : S.Ensures s (keyValue E rule key focus) fun _ _ => True := by
      unfold keyValue
      split
      · exact (hE.number (hk (key, rule) (by simp)) hf).map fun _ _ _ => trivial
      · exact (hE.string (hk (key, rule) (by simp)) hf).bind fun _ _ _ _ _ => .pure trivial
    refine hone.bind fun v t _ hst _ => ?_
    exact (ih (hf.mono hst.toKeeps) fun k hk' => (hk k (by simp [hk'])).mono hst.toKeeps).map
      fun _ _ _ => trivial

theorem records_safe (hE : E.Safe S) {ks : List (Expr × SortRule)}
    (hk : ∀ k ∈ ks, k.1.Fits S.forest s) {c : Context} (hc : c.Fits S.forest s) (last : Nat)
    {ns : List Node} (hn : S.forest.HoldsAll ns) (position : Nat) :
    S.Ensures s (records E ks c last position ns) fun rs _ => rs.map (·.1) = ns := by
  induction ns generalizing s position with
  | nil => exact .pure rfl
  | cons n ns ih =>
    rw [Forest.holdsAll_cons] at hn
    have hfocus := (hc.withFocus hn.1 position last).withCurrent hn.1
    refine (keyValues_safe hE hfocus hk).bind fun vs t _ hst _ => ?_
    refine (ih (fun k hk' => (hk k hk').mono hst.toKeeps) (hc.mono hst.toKeeps) hn.2 _).map ?_
    rintro rs u rfl
    rfl

/-- Sorting by keys gives the same nodes in another order. -/
theorem sortNodes_safe (hE : E.Safe S) {ns : List Node} (hn : S.forest.HoldsAll ns)
    {ks : List (Expr × SortRule)} (hk : ∀ k ∈ ks, k.1.Fits S.forest s) {c : Context}
    (hc : c.Fits S.forest s) :
    S.Ensures s (sortNodes E ns ks c) fun ms _ => ms.Perm ns := by
  refine (records_safe hE hk hc ns.length hn 1).bind fun rs t _ _ hr => .pure ?_
  rw [← hr]
  exact (List.mergeSort_perm rs _).map _

end Sorting

end PathLanguage
