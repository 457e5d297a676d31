/- The list of a set of nodes in document order, and that sorting an extent gives it. -/
import PathLanguage.Proofs.Tree.Forest

namespace PathLanguage

namespace Node

/-- Puts a node in its place in a list in document order, unless it is there already. -/
def place (n : Node) : List Node → List Node
  | [] => [n]
  | m :: rest =>
    match n.order m with
    | .lt => n :: m :: rest
    | .eq => m :: rest
    | .gt => m :: place n rest

/-- The distinct nodes of a list in document order. -/
def docOrder (ns : List Node) : List Node := ns.foldr place []

/-- A list in document order without repetition, documents coming by their identities. -/
def InOrder (ns : List Node) : Prop := ns.Pairwise fun a b => a.order b = .lt

/-- A list in the document order that the documents themselves give. -/
def Ascending (ns : List Node) : Prop := ns.Pairwise Before

theorem Ascending.inOrder {ns : List Node} (h : Ascending ns) : InOrder ns :=
  h.imp fun hab => (before_iff.mp hab).2

@[simp] theorem docOrder_nil : docOrder [] = [] := rfl

theorem docOrder_cons (n : Node) (ns : List Node) : docOrder (n :: ns) = place n (docOrder ns) :=
  rfl

theorem mem_of_mem_place {n m : Node} {ns : List Node} (h : m ∈ place n ns) : m = n ∨ m ∈ ns := by
  induction ns with
  | nil => simpa [place] using h
  | cons k ns ih =>
    simp only [place] at h
    rcases ho : n.order k with _ | _ | _
    · simpa [ho] using h
    · rw [ho] at h
      exact .inr h
    · simp only [ho, List.mem_cons] at h ⊢
      rcases h with h | h
      · exact .inr (.inl h)
      · exact (ih h).imp_right .inr

theorem InOrder.place {ns : List Node} (n : Node) (h : InOrder ns) : InOrder (place n ns) := by
  induction ns with
  | nil => simp [Node.place, InOrder]
  | cons k ns ih =>
    simp only [Node.place]
    rw [InOrder, List.pairwise_cons] at h
    rcases ho : n.order k with _ | _ | _
    · refine List.pairwise_cons.mpr ⟨?_, List.pairwise_cons.mpr h⟩
      intro m hm
      rcases List.mem_cons.mp hm with rfl | hm
      · exact ho
      · exact Std.TransCmp.lt_trans ho (h.1 m hm)
    · exact List.pairwise_cons.mpr h
    · refine List.pairwise_cons.mpr ⟨?_, ih h.2⟩
      intro m hm
      rcases mem_of_mem_place hm with rfl | hm
      · exact order_lt_iff_gt.mpr ho
      · exact h.1 m hm

theorem docOrder_inOrder (ns : List Node) : InOrder (docOrder ns) := by
  induction ns with
  | nil => simp [InOrder]
  | cons n ns ih => exact ih.place n

theorem place_of_first {n : Node} {ns : List Node} (h : ∀ m ∈ ns, n.order m = .lt) :
    place n ns = n :: ns := by
  cases ns with
  | nil => rfl
  | cons m ns => simp [place, h m]

theorem InOrder.docOrder_eq {ns : List Node} (h : InOrder ns) : docOrder ns = ns := by
  induction ns with
  | nil => rfl
  | cons n ns ih =>
    rw [InOrder, List.pairwise_cons] at h
    rw [docOrder_cons, ih h.2, place_of_first h.1]

theorem InOrder.nodup {ns : List Node} (h : InOrder ns) : ns.Nodup := by
  refine h.imp ?_
  rintro a _ hab rfl
  simp at hab

instance : Std.Irrefl fun a b : Node => a.order b = .lt := ⟨fun a => by simp⟩

/-- A list in order is determined by its members. -/
theorem InOrder.eq_of_mem_iff {ns ms : List Node} (hn : InOrder ns) (hm : InOrder ms)
    (h : ∀ n, n ∈ ns ↔ n ∈ ms) : ns = ms := by
  have : Std.Antisymm fun a b : Node => a.order b = .lt := by
    constructor
    intro a b hab hba
    rw [order_lt_iff_gt, hba] at hab
    cases hab
  exact List.Pairwise.eq_of_mem_iff hn hm @h

end Node

namespace Forest

open Node

variable {F : Forest} {ns ms : List Node}

theorem mem_place {n m : Node} (hn : F.Holds n) (h : F.HoldsAll ns) :
    m ∈ place n ns ↔ m = n ∨ m ∈ ns := by
  refine ⟨mem_of_mem_place, ?_⟩
  induction ns with
  | nil => simp [place]
  | cons k ns ih =>
    rw [holdsAll_cons] at h
    intro hm
    simp only [place]
    rcases ho : n.order k with _ | _ | _
    · simpa using hm
    · rw [← hn.eq_of_order h.1 ho]
      rw [← hn.eq_of_order h.1 ho] at hm
      simpa using hm
    · simp only [List.mem_cons] at hm ⊢
      rcases hm with hm | hm | hm
      · exact .inr (ih h.2 (.inl hm))
      · exact .inl hm
      · exact .inr (ih h.2 (.inr hm))

theorem HoldsAll.docOrder (h : F.HoldsAll ns) : F.HoldsAll (docOrder ns) := by
  induction ns with
  | nil => simp
  | cons n ns ih =>
    rw [holdsAll_cons] at h
    intro m hm
    rcases mem_of_mem_place hm with rfl | hm
    · exact h.1
    · exact ih h.2 m hm

theorem HoldsAll.mem_docOrder (h : F.HoldsAll ns) {m : Node} :
    m ∈ Node.docOrder ns ↔ m ∈ ns := by
  induction ns with
  | nil => simp
  | cons n ns ih =>
    rw [holdsAll_cons] at h
    rw [docOrder_cons, mem_place h.1 h.2.docOrder, ih h.2, List.mem_cons]

/-- A list in order with the same members is the list in document order. -/
theorem HoldsAll.docOrder_eq (h : F.HoldsAll ns) (hm : InOrder ms) (he : ∀ n, n ∈ ms ↔ n ∈ ns) :
    Node.docOrder ns = ms :=
  (docOrder_inOrder ns).eq_of_mem_iff hm fun n => h.mem_docOrder.trans (he n).symm

theorem HoldsAll.docOrder_congr (h : F.HoldsAll ns) (he : ∀ n, n ∈ ms ↔ n ∈ ns) :
    Node.docOrder ms = Node.docOrder ns := by
  have hm : F.HoldsAll ms := fun n hn => h n ((he n).mp hn)
  exact (h.docOrder_eq (docOrder_inOrder ms) fun n => hm.mem_docOrder.trans (he n)).symm

/-- Nodes in order that are all comparable with one of them are in the order of their documents. -/
theorem HoldsAll.ascending (h : F.HoldsAll ns) (ho : InOrder ns) {a : Node} (ha : F.Holds a)
    (hc : ∀ n ∈ ns, a.Comparable n) : Ascending ns := by
  refine List.Pairwise.imp_of_mem ?_ ho
  intro m n hm hn hmn
  exact before_iff.mpr ⟨(h m hm).comparable_trans ha (ha.comparable_symm (h m hm) (hc m hm))
    (hc n hn), hmn⟩

theorem insertInOrder_eq {n : Node} (hc : ∀ m ∈ ns, n.Comparable m) :
    n.insertInOrder ns = place n ns := by
  induction ns with
  | nil => rfl
  | cons m ns ih =>
    have hm : n.order? m = some (n.order m) := order?_eq_some.mpr ⟨hc m (by simp), rfl⟩
    have ih := ih fun k hk => hc k (by simp [hk])
    rcases ho : n.order m with _ | _ | _ <;> simp [insertInOrder, place, hm, ho, ih]

theorem comparable_of_areOrdered (h : F.HoldsAll ns) (ho : areOrdered ns = true) {a b : Node}
    (ha : a ∈ ns) (hb : b ∈ ns) : a.Comparable b := by
  cases ns with
  | nil => simp at ha
  | cons n ns =>
    have hn : ∀ m ∈ n :: ns, n.Comparable m := by
      intro m hm
      rcases List.mem_cons.mp hm with rfl | hm
      · simp
      · simp only [areOrdered, List.all_eq_true] at ho
        obtain ⟨o, ho⟩ := Option.isSome_iff_exists.mp (ho m hm)
        exact (order?_eq_some.mp ho).1
    exact (h a ha).comparable_trans (h n (by simp))
      ((h n (by simp)).comparable_symm (h a ha) (hn a ha)) (hn b hb)

theorem foldr_insertInOrder (h : F.HoldsAll ns)
    (hc : ∀ a ∈ ns, ∀ b ∈ ns, a.Comparable b) : ns.foldr insertInOrder [] = Node.docOrder ns := by
  induction ns with
  | nil => rfl
  | cons n ns ih =>
    rw [holdsAll_cons] at h
    rw [List.foldr_cons, docOrder_cons,
      ih h.2 fun a ha b hb => hc a (by simp [ha]) b (by simp [hb])]
    refine insertInOrder_eq fun m hm => ?_
    exact hc n (by simp) m (by simp [h.2.mem_docOrder.mp hm])

/-- Sorting succeeds on comparable nodes. -/
theorem HoldsAll.sortDistinct_eq (h : F.HoldsAll ns) (hc : ∀ a ∈ ns, ∀ b ∈ ns, a.Comparable b) :
    sortDistinct ns = .ok (Node.docOrder ns) := by
  have ho : areOrdered ns = true := by
    cases ns with
    | nil => rfl
    | cons n ns =>
      refine List.all_eq_true.mpr fun m hm => ?_
      rw [order?_eq_some.mpr ⟨hc n List.mem_cons_self m (List.mem_cons_of_mem _ hm), rfl⟩]
      rfl
  rw [sortDistinct, if_pos ho, foldr_insertInOrder h hc]

/-- Putting nodes in document order adds none. -/
theorem HoldsAll.length_docOrder_le (h : F.HoldsAll ns) :
    (Node.docOrder ns).length ≤ ns.length :=
  (List.subperm_of_subset (docOrder_inOrder ns).nodup fun _ => h.mem_docOrder.mp).length_le

/-- Sorting succeeds on comparable nodes only, and gives the set in document order. -/
theorem sortDistinct_ok (h : F.HoldsAll ns) (hs : sortDistinct ns = .ok ms) :
    ms = Node.docOrder ns ∧ Ascending ms := by
  unfold sortDistinct at hs
  split at hs
  · next ho =>
    have hc : ∀ a ∈ ns, ∀ b ∈ ns, a.Comparable b := fun a ha b hb =>
      comparable_of_areOrdered h ho ha hb
    have he : ms = Node.docOrder ns := by
      rw [← foldr_insertInOrder h hc]
      exact (Except.ok.inj hs).symm
    refine ⟨he, ?_⟩
    subst he
    cases ns with
    | nil => simp [Ascending]
    | cons n ns =>
      exact h.docOrder.ascending (docOrder_inOrder _) (h n (by simp)) fun m hm =>
        hc n (by simp) m (h.mem_docOrder.mp hm)
  · cases hs

/-- Keeping the earlier of two nodes all along a list finds the first node in document order. -/
theorem earliest_step (h : F.HoldsAll ns) (hc : ∀ a ∈ ns, ∀ b ∈ ns, a.Comparable b) {n : Node}
    (hn : n ∈ ns) :
    ∀ ms ⊆ ns, ∃ b ∈ n :: ms, ms.foldl (fun best m => match best with
        | some b => if b.order? m = some .gt then some m else some b
        | none => some m) (some n) = some b ∧ ∀ m ∈ n :: ms, b.order m ≠ .gt := by
  intro ms
  induction ms generalizing n with
  | nil => exact fun _ => ⟨n, by simp, rfl, by simp⟩
  | cons m ms ih =>
    intro hs
    have hm : m ∈ ns := hs (by simp)
    have hs' : ms ⊆ ns := fun k hk => hs (by simp [hk])
    have ho : n.order? m = some (n.order m) := order?_eq_some.mpr ⟨hc n hn m hm, rfl⟩
    by_cases hgt : n.order m = .gt
    · obtain ⟨b, hb, he, hle⟩ := ih hm hs'
      refine ⟨b, by simp only [List.mem_cons] at hb ⊢; tauto, ?_, ?_⟩
      · simpa [ho, hgt] using he
      · intro k hk
        rcases List.mem_cons.mp hk with rfl | hk
        · intro hbk
          have hmk : m.order k = .lt := order_lt_iff_gt.mpr hgt
          have hkb : k.order b = .lt := order_lt_iff_gt.mpr hbk
          have : m.order b = .lt := Std.TransCmp.lt_trans hmk hkb
          exact hle m (by simp) (order_lt_iff_gt.mp this)
        · exact hle k hk
    · obtain ⟨b, hb, he, hle⟩ := ih hn hs'
      refine ⟨b, by simp only [List.mem_cons] at hb ⊢; tauto, ?_, ?_⟩
      · simpa [ho, hgt] using he
      · intro k hk
        rcases List.mem_cons.mp hk with rfl | hk
        · exact hle k (by simp)
        · rcases List.mem_cons.mp hk with rfl | hk
          · intro hbk
            have hkb : k.order b = .lt := order_lt_iff_gt.mpr hbk
            rcases hnk : n.order k with _ | _ | _
            · exact hle n (by simp) (order_lt_iff_gt.mp (Std.TransCmp.lt_trans hnk hkb))
            · rw [(h n hn).eq_of_order (h k hm) hnk] at hle
              exact hle k (by simp) hbk
            · exact hgt hnk
          · exact hle k (by simp [hk])

/-- The first of a list in order is before or at every member. -/
theorem head?_docOrder (h : F.HoldsAll ns) {b : Node} (hb : b ∈ ns)
    (hle : ∀ m ∈ ns, b.order m ≠ .gt) : (Node.docOrder ns).head? = some b := by
  have hmem := h.mem_docOrder.mpr hb
  have hin := docOrder_inOrder ns
  cases hd : Node.docOrder ns with
  | nil => simp [hd] at hmem
  | cons m ms =>
    rw [hd, InOrder, List.pairwise_cons] at hin
    rw [hd, List.mem_cons] at hmem
    rcases hmem with rfl | hmem
    · rfl
    · have hm : m ∈ ns := h.mem_docOrder.mp (hd ▸ List.mem_cons_self)
      exact absurd (order_lt_iff_gt.mp (hin.1 b hmem)) (hle m hm)

theorem earliest_ok (h : F.HoldsAll ns) {r : Option Node} (he : earliest ns = .ok r) :
    r = (Node.docOrder ns).head? := by
  unfold earliest at he
  split at he
  · next ho =>
    have hc : ∀ a ∈ ns, ∀ b ∈ ns, a.Comparable b := fun a ha b hb =>
      comparable_of_areOrdered h ho ha hb
    cases ns with
    | nil => exact (Except.ok.inj he).symm
    | cons n ns =>
      obtain ⟨b, hb, hf, hle⟩ := earliest_step h hc (n := n) (by simp) ns (by simp)
      rw [head?_docOrder h hb hle, ← hf]
      exact (Except.ok.inj he).symm
  · cases he

end Forest

namespace Extent

open Node

/-- What an extent says of the order of its nodes is so. -/
structure Honest (e : Extent) : Prop where
  sorted : e.sorted = true → Ascending e.nodes
  reverse : e.reverse = true → Ascending e.nodes.reverse

variable {F : Forest} {e e' : Extent} {ns : List Node}

theorem ascending_of_length_le {ns : List Node} (h : ns.length ≤ 1) : Ascending ns := by
  match ns, h with
  | [], _ => simp [Ascending]
  | [n], _ => simp [Ascending]

theorem ofSource_honest {sorted reverse : Bool} (hs : sorted = true → Ascending ns)
    (hr : reverse = true → Ascending ns.reverse) : (ofSource ns sorted reverse).Honest where
  sorted h := by
    simp only [ofSource, Bool.or_eq_true, decide_eq_true_eq] at h
    exact h.elim hs ascending_of_length_le
  reverse h := by
    simp only [ofSource, Bool.or_eq_true, decide_eq_true_eq] at h
    exact h.elim hr fun h => ascending_of_length_le (by simpa [ofSource] using h)

theorem ofNodes_honest {sorted : Bool} (hs : sorted = true → Ascending ns) :
    (ofNodes ns sorted).Honest := by
  have h : (ofSource ns sorted false).Honest := ofSource_honest hs (by simp)
  exact ⟨h.sorted, by simpa [ofSource, ofNodes] using h.reverse⟩

theorem sort_ok (h : e.Honest) (hn : F.HoldsAll e.nodes) (hs : e.sort = .ok e') :
    e'.Honest ∧ e'.sorted = true ∧ e'.nodes = docOrder e.nodes ∧ Ascending e'.nodes := by
  unfold sort at hs
  split at hs
  · next hsorted =>
    cases hs
    exact ⟨h, hsorted, (h.sorted hsorted).inOrder.docOrder_eq.symm, h.sorted hsorted⟩
  · split at hs
    · next hreverse =>
      cases hs
      have ha := h.reverse hreverse
      refine ⟨ofNodes_honest fun _ => ha, rfl, ?_, ha⟩
      exact (hn.docOrder_eq ha.inOrder (by simp)).symm
    · cases hd : sortDistinct e.nodes with
      | error f => simp [hd, bind, Except.bind] at hs
      | ok ms =>
        simp only [hd, bind, Except.bind, pure, Except.pure, Except.ok.injEq] at hs
        subst hs
        obtain ⟨he, ha⟩ := Forest.sortDistinct_ok hn hd
        exact ⟨ofNodes_honest fun _ => ha, rfl, he, ha⟩

/-- An extent of comparable nodes is sorted without a fault. -/
theorem sort_succeeds (h : e.Honest) (hn : F.HoldsAll e.nodes)
    (hc : ∀ a ∈ e.nodes, ∀ b ∈ e.nodes, a.Comparable b) :
    ∃ e', e.sort = .ok e' ∧ e'.nodes = docOrder e.nodes := by
  have hs : ∃ e', e.sort = .ok e' := by
    rw [sort]
    split
    · exact ⟨_, rfl⟩
    · split
      · exact ⟨_, rfl⟩
      · rw [hn.sortDistinct_eq hc]
        exact ⟨_, rfl⟩
  obtain ⟨e', he⟩ := hs
  exact ⟨e', he, (sort_ok h hn he).2.2.1⟩

theorem sort_holds (hn : F.HoldsAll e.nodes) (h : e.Honest) (hs : e.sort = .ok e') :
    F.HoldsAll e'.nodes := by
  rw [(sort_ok h hn hs).2.2.1]
  exact hn.docOrder

theorem first_ok (h : e.Honest) (hn : F.HoldsAll e.nodes) {r : Option Node}
    (hf : e.first = .ok r) : r = (docOrder e.nodes).head? := by
  unfold first at hf
  split at hf
  · next hsorted =>
    rw [(h.sorted hsorted).inOrder.docOrder_eq]
    exact (Except.ok.inj hf).symm
  · split at hf
    · next hreverse =>
      have ha := (h.reverse hreverse).inOrder
      rw [hn.docOrder_eq ha (by simp), List.head?_reverse]
      exact (Except.ok.inj hf).symm
    · exact Forest.earliest_ok hn hf

end Extent

end PathLanguage
