/- Subtrees: what lies below one node comes, as a whole, before or after what lies below another one
that is not above or below it. -/
import PathLanguage.Proofs.NodeSet.DocumentOrder

namespace PathLanguage

theorem Tree.sizeOf_children {t c : Tree} (h : c ∈ t.children) : sizeOf c < sizeOf t := by
  cases t with
  | document b es cs =>
    have := List.sizeOf_lt_of_mem (show c ∈ cs from h)
    simp only [Tree.document.sizeOf_spec]
    omega
  | element n b ns as cs =>
    have := List.sizeOf_lt_of_mem (show c ∈ cs from h)
    simp only [Tree.element.sizeOf_spec]
    omega
  | text s => simp [children] at h
  | comment s => simp [children] at h
  | instruction t d => simp [children] at h

namespace Node

/-- Induction from the children of a node to the node. -/
theorem down_induction {motive : Node → Prop}
    (step : ∀ n : Node, (∀ c ∈ n.children, motive c) → motive n) (n : Node) : motive n := by
  cases ht : n.tree? with
  | none => exact step n (by simp [mem_children, ht])
  | some t =>
    induction hk : sizeOf t using Nat.strong_induction_on generalizing n t with
    | _ k ih =>
      refine step n fun c hc => ?_
      obtain ⟨i, u, hu, rfl⟩ := mem_children.mp hc
      simp only [ht, Option.map_some, Option.getD_some] at hu
      have hlt := Tree.sizeOf_children (List.mem_of_getElem? hu)
      exact ih (sizeOf u) (hk ▸ hlt) _ u rfl rfl

/-- At a node or below it. -/
def Within (a b : Node) : Prop := a = b ∨ a ∈ b.ancestors

/-- Neither of two nodes is an ancestor of the other. -/
def Separate (a b : Node) : Prop := a ∉ b.ancestors ∧ b ∉ a.ancestors

theorem mem_ancestors_of_parent {p n : Node} (h : n.parent = some p) : p ∈ n.ancestors := by
  cases n <;> simp_all [parent, ancestors]

theorem ancestors_of_parent {p n : Node} (h : n.parent = some p) :
    n.ancestors = p :: p.ancestors := by
  cases n <;> simp_all [parent, ancestors]

theorem ancestors_trans {a b c : Node} (h : a ∈ b.ancestors) (h' : b ∈ c.ancestors) :
    a ∈ c.ancestors := by
  induction c with
  | root d => simp [ancestors] at h'
  | child p i t ih =>
    rcases List.mem_cons.mp h' with rfl | h'
    · exact List.mem_cons_of_mem _ h
    · exact List.mem_cons_of_mem _ (ih h')
  | «attribute» p i x ih =>
    rcases List.mem_cons.mp h' with rfl | h'
    · exact List.mem_cons_of_mem _ h
    · exact List.mem_cons_of_mem _ (ih h')
  | namespaceNode p i x ih =>
    rcases List.mem_cons.mp h' with rfl | h'
    · exact List.mem_cons_of_mem _ h
    · exact List.mem_cons_of_mem _ (ih h')

theorem Within.trans {a b c : Node} (h : Within a b) (h' : Within b c) : Within a c := by
  rcases h with rfl | h
  · exact h'
  · rcases h' with rfl | h'
    · exact .inr h
    · exact .inr (ancestors_trans h h')

theorem within_of_parent {p n : Node} (h : n.parent = some p) : Within p n :=
  .inr (mem_ancestors_of_parent h)

theorem steps_of_mem_ancestors {a b : Node} (h : a ∈ b.ancestors) :
    a.document = b.document ∧ ∃ u x, b.steps = u ++ x :: a.steps := by
  induction b with
  | root d => simp [ancestors] at h
  | child p i t ih =>
    rcases List.mem_cons.mp h with rfl | h
    · exact ⟨rfl, [], _, rfl⟩
    · obtain ⟨hd, u, x, hs⟩ := ih h
      exact ⟨hd, .childAt i :: u, x, by simp [steps, hs]⟩
  | «attribute» p i y ih =>
    rcases List.mem_cons.mp h with rfl | h
    · exact ⟨rfl, [], _, rfl⟩
    · obtain ⟨hd, u, x, hs⟩ := ih h
      exact ⟨hd, .attributeAt i :: u, x, by simp [steps, hs]⟩
  | namespaceNode p i y ih =>
    rcases List.mem_cons.mp h with rfl | h
    · exact ⟨rfl, [], _, rfl⟩
    · obtain ⟨hd, u, x, hs⟩ := ih h
      exact ⟨hd, .namespaceAt i :: u, x, by simp [steps, hs]⟩

theorem Within.steps {a b : Node} (h : Within a b) :
    a.document = b.document ∧ ∃ u, b.steps = u ++ a.steps := by
  rcases h with rfl | h
  · exact ⟨rfl, [], rfl⟩
  · obtain ⟨hd, u, x, hs⟩ := steps_of_mem_ancestors h
    exact ⟨hd, u ++ [x], by simp [hs]⟩

theorem before_of_mem_ancestors {a b : Node} (h : a ∈ b.ancestors) : a.Before b := by
  obtain ⟨hd, u, x, hs⟩ := steps_of_mem_ancestors h
  exact before_of_suffix hd hs

/-- What lies below one part of a node precedes what lies below a later part. -/
theorem before_of_parts (a b : Node) {x y : Node} {s t : Place} {ss : List Place}
    (hd : a.document = b.document) (ha : a.steps = s :: ss) (hb : b.steps = t :: ss)
    (h : s.order t = .lt) (hx : Within a x) (hy : Within b y) : x.Before y := by
  obtain ⟨hdx, u, hu⟩ := hx.steps
  obtain ⟨hdy, v, hv⟩ := hy.steps
  exact before_of_steps (hdx.symm.trans (hd.trans hdy)) (ha ▸ hu) (hb ▸ hv) h

/-- Parts of one node are not ancestors of each other. -/
theorem separate_of_parent {p a b : Node} (ha : a.parent = some p) (hb : b.parent = some p) :
    Separate a b := by
  have key : ∀ {a b : Node}, a.parent = some p → b.parent = some p → a ∉ b.ancestors := by
    intro a b ha hb h
    rw [ancestors_of_parent hb, ← ancestors_of_parent ha] at h
    exact Before.irrefl a (before_of_mem_ancestors h)
  exact ⟨key ha hb, key hb ha⟩

/-- A node at which another one's path passes. -/
theorem exists_within_of_steps {b : Node} {u s : List Place} (h : b.steps = u ++ s) :
    ∃ c, Within c b ∧ c.steps = s := by
  induction b generalizing u with
  | root d =>
    simp only [steps, List.nil_eq, List.append_eq_nil_iff] at h
    exact ⟨.root d, .inl rfl, by simp [steps, h.2]⟩
  | child p i t ih =>
    cases u with
    | nil => exact ⟨_, .inl rfl, h⟩
    | cons x u =>
      obtain ⟨c, hc, hs⟩ := ih (List.cons.inj h).2
      exact ⟨c, hc.trans (within_of_parent rfl), hs⟩
  | «attribute» p i t ih =>
    cases u with
    | nil => exact ⟨_, .inl rfl, h⟩
    | cons x u =>
      obtain ⟨c, hc, hs⟩ := ih (List.cons.inj h).2
      exact ⟨c, hc.trans (within_of_parent rfl), hs⟩
  | namespaceNode p i t ih =>
    cases u with
    | nil => exact ⟨_, .inl rfl, h⟩
    | cons x u =>
      obtain ⟨c, hc, hs⟩ := ih (List.cons.inj h).2
      exact ⟨c, hc.trans (within_of_parent rfl), hs⟩

end Node

/-- Of two paths in order, the first is the beginning of the second, or they part at a step. -/
theorem Place.orderPaths_lt {p q : List Place} (h : orderPaths p q = .lt) :
    (∃ x u, q = p ++ x :: u) ∨
      ∃ r x y u v, p = r ++ x :: u ∧ q = r ++ y :: v ∧ order x y = .lt := by
  induction p generalizing q with
  | nil =>
    cases q with
    | nil => simp [orderPaths] at h
    | cons x u => exact .inl ⟨x, u, rfl⟩
  | cons a p ih =>
    cases q with
    | nil => simp [orderPaths] at h
    | cons b q =>
      simp only [orderPaths] at h
      rcases ho : order a b with _ | _ | _
      · exact .inr ⟨[], a, b, p, q, rfl, rfl, ho⟩
      · obtain rfl := Std.LawfulEqCmp.eq_of_compare ho
        rw [ho] at h
        rcases ih h with ⟨x, u, rfl⟩ | ⟨r, x, y, u, v, rfl, rfl, hxy⟩
        · exact .inl ⟨x, u, rfl⟩
        · exact .inr ⟨a :: r, x, y, u, v, rfl, rfl, hxy⟩
      · rw [ho] at h
        cases h

namespace Forest

open Node

variable {F : Forest}

theorem Holds.parent {p n : Node} (h : F.Holds n) (hp : n.parent = some p) : F.Holds p := by
  cases n with
  | root d => simp [Node.parent] at hp
  | child q i t =>
    obtain rfl := Option.some.inj hp
    exact ⟨h.1, (valid_child.mp h.2).1⟩
  | «attribute» q i a =>
    obtain rfl := Option.some.inj hp
    exact ⟨h.1, (valid_attribute.mp h.2).1⟩
  | namespaceNode q i b =>
    obtain rfl := Option.some.inj hp
    exact ⟨h.1, (valid_namespaceNode.mp h.2).1⟩

theorem Holds.ancestors {n : Node} (h : F.Holds n) : F.HoldsAll n.ancestors := by
  induction n with
  | root d => simp [Node.ancestors]
  | child p i t ih =>
    have hp := h.parent rfl
    exact holdsAll_cons.mpr ⟨hp, ih hp⟩
  | «attribute» p i a ih =>
    have hp := h.parent rfl
    exact holdsAll_cons.mpr ⟨hp, ih hp⟩
  | namespaceNode p i b ih =>
    have hp := h.parent rfl
    exact holdsAll_cons.mpr ⟨hp, ih hp⟩

theorem Holds.of_within {a b : Node} (h : F.Holds b) (hw : Within a b) : F.Holds a := by
  rcases hw with rfl | hw
  · exact h
  · exact h.ancestors a hw

theorem Holds.children {n : Node} (h : F.Holds n) : F.HoldsAll n.children := by
  intro m hm
  obtain ⟨i, t, ht, rfl⟩ := mem_children.mp hm
  exact ⟨h.1, valid_child.mpr ⟨h.2, ht⟩⟩

theorem Holds.attributes {n : Node} (h : F.Holds n) : F.HoldsAll n.attributes := by
  intro m hm
  obtain ⟨i, a, ha, rfl⟩ := mem_attributes.mp hm
  exact ⟨h.1, valid_attribute.mpr ⟨h.2, ha⟩⟩

theorem Holds.namespaces {n : Node} (h : F.Holds n) : F.HoldsAll n.namespaces := by
  intro m hm
  obtain ⟨i, b, hb, rfl⟩ := mem_namespaces.mp hm
  exact ⟨h.1, valid_namespaceNode.mpr ⟨h.2, hb⟩⟩

theorem Holds.top {n : Node} (h : F.Holds n) : F.Holds n.top := ⟨h.1, .root _⟩

/-- Nodes in order of which the first is no ancestor of the second have their subtrees in order. -/
theorem order_of_within {a b x y : Node} (ha : F.Holds a) (hb : F.Holds b)
    (h : a.order b = .lt) (hn : a ∉ b.ancestors) (hx : Within a x) (hy : Within b y) :
    x.order y = .lt := by
  obtain ⟨hdx, u, hu⟩ := hx.steps
  obtain ⟨hdy, v, hv⟩ := hy.steps
  by_cases hid : a.document.id = b.document.id
  · have hd : a.document = b.document := F.identified _ ha.1 _ hb.1 hid
    have ho : Place.orderPaths a.address b.address = .lt := by
      simpa [Node.order, hid, Std.ReflCmp.compare_self] using h
    rcases Place.orderPaths_lt ho with ⟨s, w, hw⟩ | ⟨r, s, t, w, z, hw, hz, hst⟩
    · have hb' : b.steps = (w.reverse ++ [s]) ++ a.steps := by
        have := congrArg List.reverse hw
        simpa [address] using this
      obtain ⟨c, hc, hcs⟩ := exists_within_of_steps hb'
      have hca : c = a := (hb.of_within hc).2.eq_of_steps ha.2 (hc.steps.1.trans hd.symm) hcs
      subst hca
      rcases hc with rfl | hc
      · simp at h
      · exact absurd hc hn
    · have hu' : x.steps = (u ++ w.reverse) ++ s :: r.reverse := by
        have := congrArg List.reverse hw
        simp only [address, List.reverse_reverse, List.reverse_append, List.reverse_cons,
          List.append_assoc, List.cons_append, List.nil_append] at this
        simp [hu, this]
      have hv' : y.steps = (v ++ z.reverse) ++ t :: r.reverse := by
        have := congrArg List.reverse hz
        simp only [address, List.reverse_reverse, List.reverse_append, List.reverse_cons,
          List.append_assoc, List.cons_append, List.nil_append] at this
        simp [hv, this]
      exact (before_iff.mp (before_of_steps (hdx.symm.trans (hd.trans hdy)) hu' hv' hst)).2
  · have hlt : compare a.document.id b.document.id = .lt := by
      have hne : compare a.document.id b.document.id ≠ .eq := by simpa using hid
      rw [Node.order] at h
      rcases hc : compare a.document.id b.document.id with _ | _ | _ <;> simp_all
    rw [Node.order, ← hdx, ← hdy, hlt]
    rfl

theorem before_of_within {a b x y : Node} (ha : F.Holds a) (hb : F.Holds b)
    (h : a.Before b) (hn : a ∉ b.ancestors) (hx : Within a x) (hy : Within b y) : x.Before y := by
  rw [before_iff] at h ⊢
  refine ⟨?_, order_of_within ha hb h.2 hn hx hy⟩
  rw [Comparable, ← hx.steps.1, ← hy.steps.1]
  exact h.1

end Forest

end PathLanguage
