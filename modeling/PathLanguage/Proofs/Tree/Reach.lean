/- The nodes that the definition of an axis puts on it, told by parents, kinds and document order, are
the nodes that the axis lists. -/
import Mathlib.Logic.Relation
import PathLanguage.Proofs.Tree.Walk

namespace PathLanguage

namespace Node

/-- A node above another: its parent, the parent of that one, and so on. -/
def Above : Node → Node → Prop := Relation.TransGen fun p n => n.parent = some p

/-- A node that the document of another really has. -/
def InTreeOf (n o : Node) : Prop := n.Valid ∧ n.document = o.document

end Node

/-- What the definition of an axis asks of a node of the tree of the origin. -/
def Axis.Joins : Axis → (origin n : Node) → Prop
  | .self, o, n => n = o
  | .parent, o, n => o.parent = some n
  | .child, o, n => n.parent = some o ∧ n.isAttached = false
  | .attribute, o, n => n.parent = some o ∧ n.kind = .attribute
  | .namespaces, o, n => n.parent = some o ∧ n.kind = .namespaceNode
  | .ancestor, o, n => n.Above o
  | .ancestorOrSelf, o, n => n = o ∨ n.Above o
  | .descendant, o, n => o.Above n ∧ n.isAttached = false
  | .descendantOrSelf, o, n => n = o ∨ o.Above n ∧ n.isAttached = false
  | .following, o, n => o.Before n ∧ ¬ o.Above n ∧ n.isAttached = false
  | .preceding, o, n => n.Before o ∧ ¬ n.Above o ∧ n.isAttached = false
  | .followingSibling, o, n => o.isAttached = false ∧
      (∃ p, o.parent = some p ∧ n.parent = some p) ∧ o.Before n ∧ n.isAttached = false
  | .precedingSibling, o, n => o.isAttached = false ∧
      (∃ p, o.parent = some p ∧ n.parent = some p) ∧ n.Before o ∧ n.isAttached = false

namespace Node

theorem above_iff {a n : Node} : a.Above n ↔ a ∈ n.ancestors := by
  constructor
  · intro h
    induction h with
    | single h => exact mem_ancestors_of_parent h
    | tail _ h ih => exact ancestors_trans ih (mem_ancestors_of_parent h)
  · intro h
    induction n with
    | root d => simp [ancestors] at h
    | child p i t ih =>
      rcases List.mem_cons.mp h with rfl | h
      · exact .single rfl
      · exact .tail (ih h) rfl
    | «attribute» p i x ih =>
      rcases List.mem_cons.mp h with rfl | h
      · exact .single rfl
      · exact .tail (ih h) rfl
    | namespaceNode p i x ih =>
      rcases List.mem_cons.mp h with rfl | h
      · exact .single rfl
      · exact .tail (ih h) rfl

theorem Before.asymm {F : Forest} {a b : Node} (ha : F.Holds a) (hb : F.Holds b)
    (h : a.Before b) : ¬ b.Before a :=
  fun h' => Before.irrefl a (ha.before_trans hb h h')

theorem mem_children_iff {n o : Node} (h : n.Valid) :
    n ∈ o.children ↔ n.parent = some o ∧ n.isAttached = false := by
  rw [mem_children]
  constructor
  · rintro ⟨i, t, -, rfl⟩
    exact ⟨rfl, rfl⟩
  · rintro ⟨hp, ha⟩
    cases n with
    | root d => cases hp
    | child p i t =>
      obtain rfl := Option.some.inj hp
      exact ⟨i, t, (valid_child.mp h).2, rfl⟩
    | «attribute» p i a => cases ha
    | namespaceNode p i b => cases ha

theorem mem_attributes_iff {n o : Node} (h : n.Valid) :
    n ∈ o.attributes ↔ n.parent = some o ∧ n.kind = .attribute := by
  rw [mem_attributes]
  constructor
  · rintro ⟨i, a, -, rfl⟩
    exact ⟨rfl, rfl⟩
  · rintro ⟨hp, hk⟩
    cases n with
    | root d => cases hp
    | child p i t => cases t <;> cases hk
    | «attribute» p i a =>
      obtain rfl := Option.some.inj hp
      exact ⟨i, a, (valid_attribute.mp h).2, rfl⟩
    | namespaceNode p i b => cases hk

theorem mem_namespaces_iff {n o : Node} (h : n.Valid) :
    n ∈ o.namespaces ↔ n.parent = some o ∧ n.kind = .namespaceNode := by
  rw [mem_namespaces]
  constructor
  · rintro ⟨i, b, -, rfl⟩
    exact ⟨rfl, rfl⟩
  · rintro ⟨hp, hk⟩
    cases n with
    | root d => cases hp
    | child p i t => cases t <;> cases hk
    | «attribute» p i a => cases hk
    | namespaceNode p i b =>
      obtain rfl := Option.some.inj hp
      exact ⟨i, b, (valid_namespaceNode.mp h).2, rfl⟩

theorem mem_descendantsOrSelf {n m : Node} :
    m ∈ n.descendantsOrSelf ↔ m = n ∨ m ∈ n.descendants := by
  rw [descendantsOrSelf_eq, descendants_eq, List.mem_cons]

theorem isAttached_of_mem_descendants {n m : Node} (h : m ∈ n.descendants) :
    m.isAttached = false := by
  induction n using down_induction with
  | step n ih =>
    rw [descendants_eq, List.mem_flatMap] at h
    obtain ⟨c, hc, h⟩ := h
    rcases mem_descendantsOrSelf.mp h with rfl | h
    · obtain ⟨i, t, -, rfl⟩ := mem_children.mp hc
      rfl
    · exact ih c hc h

theorem mem_descendants_of_children {n m c : Node} (h : m ∈ n.descendantsOrSelf)
    (hc : c ∈ m.children) : c ∈ n.descendants := by
  induction n using down_induction with
  | step n ih =>
    rw [descendants_eq, List.mem_flatMap]
    rcases mem_descendantsOrSelf.mp h with rfl | h
    · exact ⟨c, hc, mem_descendantsOrSelf.mpr (.inl rfl)⟩
    · rw [descendants_eq, List.mem_flatMap] at h
      obtain ⟨d, hd, h⟩ := h
      exact ⟨d, hd, mem_descendantsOrSelf.mpr (.inr (ih d hd h))⟩

/-- The descendants of a node are the nodes below it that no element carries as a part. -/
theorem mem_descendants_iff {n o : Node} (h : n.Valid) :
    n ∈ o.descendants ↔ o.Above n ∧ n.isAttached = false := by
  constructor
  · intro hn
    obtain ⟨c, hc, hw⟩ := exists_child_of_mem_descendants hn
    have ho := mem_ancestors_of_parent (parent_of_mem_children hc)
    refine ⟨above_iff.mpr ?_, isAttached_of_mem_descendants hn⟩
    rcases hw with rfl | hw
    · exact ho
    · exact ancestors_trans ho hw
  · rintro ⟨ha, hn⟩
    induction ha with
    | single hp =>
      exact mem_descendants_of_children (mem_descendantsOrSelf.mpr (.inl rfl))
        ((mem_children_iff h).mpr ⟨hp, hn⟩)
    | @tail p n ha hp ih =>
      obtain ⟨hv, hp'⟩ := h.parent hp
      exact mem_descendants_of_children (mem_descendantsOrSelf.mpr (.inr (ih hv hp')))
        ((mem_children_iff h).mpr ⟨hp, hn⟩)

theorem isAttached_of_mem_flatMap {cs : List Node} {p m : Node} (hs : cs ⊆ p.children)
    (h : m ∈ cs.flatMap descendantsOrSelf) : m.isAttached = false := by
  obtain ⟨c, hc, h⟩ := List.mem_flatMap.mp h
  refine isAttached_of_mem_descendants (n := p) ?_
  rw [descendants_eq]
  exact List.mem_flatMap.mpr ⟨c, hs hc, h⟩

theorem isAttached_of_mem_followers {n m : Node} (h : m ∈ n.followers) : m.isAttached = false := by
  induction n with
  | root d => simp [followers] at h
  | child p i t ih =>
    rcases List.mem_append.mp h with h | h
    · exact isAttached_of_mem_flatMap (List.drop_subset _ _) h
    · exact ih h
  | «attribute» p i a ih =>
    exact (List.mem_append.mp h).elim isAttached_of_mem_descendants ih
  | namespaceNode p i b ih =>
    exact (List.mem_append.mp h).elim isAttached_of_mem_descendants ih

theorem isAttached_of_mem_predecessors {n m : Node} (h : m ∈ n.predecessors) :
    m.isAttached = false := by
  induction n with
  | root d => simp [predecessors] at h
  | child p i t ih =>
    rcases List.mem_append.mp h with h | h
    · exact isAttached_of_mem_flatMap (List.take_subset _ _) (List.mem_reverse.mp h)
    · exact ih h
  | «attribute» p i a ih => exact ih h
  | namespaceNode p i b ih => exact ih h

theorem within_top (n : Node) : Within n.top n := by
  induction n with
  | root d => exact .inl rfl
  | child p i t ih => exact Within.trans ih (within_of_parent rfl)
  | «attribute» p i a ih => exact Within.trans ih (within_of_parent rfl)
  | namespaceNode p i b ih => exact Within.trans ih (within_of_parent rfl)

/-- A child with what its parent has before and after it. -/
theorem children_split {p : Node} {i : Nat} {t : Tree} (h : (Node.child p i t).Valid) :
    p.children = p.children.take i ++ .child p i t :: p.children.drop (i + 1) := by
  have hi : p.children[i]? = some (.child p i t) := by
    rw [children, getElem?_childNodes, (valid_child.mp h).2, Option.map_some, Nat.zero_add]
  obtain ⟨hlt, he⟩ := List.getElem?_eq_some_iff.mp hi
  rw [← he, List.getElem_cons_drop, List.take_append_drop]

/-- From any node, every node that no element carries as a part is the same, above, below, later or
earlier. -/
theorem mem_some_axis {n o : Node} (ho : o.Valid) (hn : n.InTreeOf o) (ha : n.isAttached = false) :
    n = o ∨ n ∈ o.ancestors ∨ n ∈ o.descendants ∨ n ∈ o.followers ∨ n ∈ o.predecessors := by
  induction o with
  | root d =>
    have ht : n.top = .root d := congrArg Node.root hn.2
    rcases ht ▸ within_top n with h | h
    · exact .inl h.symm
    · exact .inr (.inr (.inl ((mem_descendants_iff hn.1).mpr ⟨above_iff.mpr h, ha⟩)))
  | child p i t ih =>
    rcases ih (ho.parent rfl).1 hn with rfl | h | h | h | h
    · exact .inr (.inl List.mem_cons_self)
    · exact .inr (.inl (List.mem_cons_of_mem _ h))
    · rw [descendants_eq, children_split ho, List.flatMap_append, List.flatMap_cons,
        List.mem_append, List.mem_append, mem_descendantsOrSelf] at h
      rcases h with h | (h | h) | h
      · exact .inr (.inr (.inr (.inr (List.mem_append_left _ (List.mem_reverse.mpr h)))))
      · exact .inl h
      · exact .inr (.inr (.inl h))
      · exact .inr (.inr (.inr (.inl (List.mem_append_left _ h))))
    · exact .inr (.inr (.inr (.inl (List.mem_append_right _ h))))
    · exact .inr (.inr (.inr (.inr (List.mem_append_right _ h))))
  | «attribute» p i a ih =>
    rcases ih (ho.parent rfl).1 hn with rfl | h | h | h | h
    · exact .inr (.inl List.mem_cons_self)
    · exact .inr (.inl (List.mem_cons_of_mem _ h))
    · exact .inr (.inr (.inr (.inl (List.mem_append_left _ h))))
    · exact .inr (.inr (.inr (.inl (List.mem_append_right _ h))))
    · exact .inr (.inr (.inr (.inr h)))
  | namespaceNode p i b ih =>
    rcases ih (ho.parent rfl).1 hn with rfl | h | h | h | h
    · exact .inr (.inl List.mem_cons_self)
    · exact .inr (.inl (List.mem_cons_of_mem _ h))
    · exact .inr (.inr (.inr (.inl (List.mem_append_left _ h))))
    · exact .inr (.inr (.inr (.inl (List.mem_append_right _ h))))
    · exact .inr (.inr (.inr (.inr h)))

variable {n o : Node}

theorem InTreeOf.holds (h : n.InTreeOf o) : (Forest.single o.document).Holds n :=
  ⟨List.mem_singleton.mpr h.2, h.1⟩

theorem Above.before {a b : Node} (h : a.Above b) : a.Before b :=
  before_of_mem_ancestors (above_iff.mp h)

theorem mem_followers_iff (ho : o.Valid) (hn : n.InTreeOf o) :
    n ∈ o.followers ↔ o.Before n ∧ ¬ o.Above n ∧ n.isAttached = false := by
  have hasymm : o.Before n → ¬ n.Before o :=
    Before.asymm (InTreeOf.holds ⟨ho, rfl⟩) hn.holds
  constructor
  · intro h
    refine ⟨mem_followers h (.inl rfl), fun ha => ?_, isAttached_of_mem_followers h⟩
    exact Before.irrefl n (mem_followers h (.inr (above_iff.mp ha)))
  · rintro ⟨hb, hna, ha⟩
    rcases mem_some_axis ho hn ha with rfl | h | h | h | h
    · exact (Before.irrefl n hb).elim
    · exact (hasymm hb (before_of_mem_ancestors h)).elim
    · exact (hna ((mem_descendants_iff hn.1).mp h).1).elim
    · exact h
    · exact (hasymm hb (mem_predecessors h (.inl rfl))).elim

theorem not_mem_ancestors_self (n : Node) : n ∉ n.ancestors :=
  fun h => Before.irrefl n (before_of_mem_ancestors h)

theorem not_mem_ancestors_of_mem_predecessors (h : n ∈ o.predecessors) : n ∉ o.ancestors := by
  have key : ∀ p : Node, (n ∈ p.predecessors → n ∉ p.ancestors) →
      n ∈ p.predecessors → n ∉ p :: p.ancestors := by
    intro p ih h ha
    rcases List.mem_cons.mp ha with rfl | ha
    · exact Before.irrefl n (mem_predecessors h (.inl rfl))
    · exact ih h ha
  induction o with
  | root d => simp [predecessors] at h
  | child p i t ih =>
    rcases List.mem_append.mp h with h | h
    · intro ha
      obtain ⟨c, hc, h⟩ := List.mem_flatMap.mp (List.mem_reverse.mp h)
      have hp : p ∈ n.ancestors := by
        have hp := mem_ancestors_of_parent (parent_of_mem_children (List.mem_of_mem_take hc))
        rcases within_of_mem_walk attaches_nil h with rfl | hw
        · exact hp
        · exact ancestors_trans hp hw
      rcases List.mem_cons.mp ha with rfl | ha
      · exact not_mem_ancestors_self n hp
      · exact not_mem_ancestors_self n (ancestors_trans ha hp)
    · exact key p ih h
  | «attribute» p i a ih => exact key p ih h
  | namespaceNode p i b ih => exact key p ih h

theorem mem_predecessors_iff (ho : o.Valid) (hn : n.InTreeOf o) :
    n ∈ o.predecessors ↔ n.Before o ∧ ¬ n.Above o ∧ n.isAttached = false := by
  have hasymm : n.Before o → ¬ o.Before n :=
    Before.asymm hn.holds (InTreeOf.holds ⟨ho, rfl⟩)
  constructor
  · intro h
    refine ⟨mem_predecessors h (.inl rfl), fun ha => ?_, isAttached_of_mem_predecessors h⟩
    exact not_mem_ancestors_of_mem_predecessors h (above_iff.mp ha)
  · rintro ⟨hb, hna, ha⟩
    rcases mem_some_axis ho hn ha with rfl | h | h | h | h
    · exact (Before.irrefl n hb).elim
    · exact (hna (above_iff.mpr h)).elim
    · exact (hasymm hb ((mem_descendants_iff hn.1).mp h).1.before).elim
    · exact (hasymm hb (mem_followers h (.inl rfl))).elim
    · exact h

/-- The children before and after one of them are those that come before and after it. -/
theorem mem_siblings_iff {p : Node} {i : Nat} {t : Tree} (ho : (Node.child p i t).Valid)
    (hn : n.InTreeOf (.child p i t)) :
    (n ∈ p.children.drop (i + 1) ↔ n ∈ p.children ∧ (Node.child p i t).Before n) ∧
    (n ∈ p.children.take i ↔ n ∈ p.children ∧ n.Before (.child p i t)) := by
  have hasymm : n.Before (.child p i t) → ¬ (Node.child p i t).Before n :=
    Before.asymm hn.holds (InTreeOf.holds ⟨ho, rfl⟩)
  have hsplit := children_split ho
  have hasc := children_ascending p
  rw [hsplit, Ascending, List.pairwise_append, List.pairwise_cons] at hasc
  obtain ⟨-, ⟨hafter, -⟩, hbefore⟩ := hasc
  have hmem : n ∈ p.children ↔ n ∈ p.children.take i ∨ n = .child p i t ∨
      n ∈ p.children.drop (i + 1) := by
    conv_lhs => rw [hsplit]
    rw [List.mem_append, List.mem_cons]
  have htake (h : n ∈ p.children.take i) : n.Before (.child p i t) :=
    hbefore n h _ List.mem_cons_self
  refine ⟨⟨fun h => ⟨hmem.mpr (.inr (.inr h)), hafter n h⟩, ?_⟩,
    ⟨fun h => ⟨hmem.mpr (.inl h), htake h⟩, ?_⟩⟩
  · rintro ⟨hc, hb⟩
    rcases hmem.mp hc with h | rfl | h
    · exact (hasymm (htake h) hb).elim
    · exact (Before.irrefl _ hb).elim
    · exact h
  · rintro ⟨hc, hb⟩
    rcases hmem.mp hc with h | rfl | h
    · exact h
    · exact (Before.irrefl _ hb).elim
    · exact (hasymm hb (hafter n h)).elim

theorem mem_followingSiblings_iff (ho : o.Valid) (hn : n.InTreeOf o) :
    n ∈ o.followingSiblings ↔ o.isAttached = false ∧
      (∃ p, o.parent = some p ∧ n.parent = some p) ∧ o.Before n ∧ n.isAttached = false := by
  cases o with
  | root d => simp [followingSiblings, Node.parent]
  | child p i t =>
    simp only [followingSiblings, (mem_siblings_iff ho hn).1, mem_children_iff hn.1, Node.parent,
      Option.some.injEq, exists_eq_left', isAttached, true_and]
    tauto
  | «attribute» | namespaceNode => simp [followingSiblings, isAttached]

theorem mem_precedingSiblings_iff (ho : o.Valid) (hn : n.InTreeOf o) :
    n ∈ o.precedingSiblings ↔ o.isAttached = false ∧
      (∃ p, o.parent = some p ∧ n.parent = some p) ∧ n.Before o ∧ n.isAttached = false := by
  cases o with
  | root d => simp [precedingSiblings, Node.parent]
  | child p i t =>
    simp only [precedingSiblings, List.mem_reverse, (mem_siblings_iff ho hn).2,
      mem_children_iff hn.1, Node.parent, Option.some.injEq, exists_eq_left', isAttached, true_and]
    tauto
  | «attribute» | namespaceNode => simp [precedingSiblings, isAttached]

theorem InTreeOf.along {a : Axis} (ho : o.Valid) (h : n ∈ o.along a) : n.InTreeOf o := by
  obtain ⟨hd, hv⟩ := (InTreeOf.holds ⟨ho, rfl⟩).along a n h
  exact ⟨hv, List.mem_singleton.mp hd⟩

/-- An axis lists the nodes of the tree that its definition puts on it. -/
theorem mem_along_iff (ho : o.Valid) (hn : n.InTreeOf o) (a : Axis) :
    n ∈ o.along a ↔ a.Joins o n := by
  cases a with
  | self => exact List.mem_singleton
  | parent => simp [along, Axis.Joins, eq_comm]
  | child => exact mem_children_iff hn.1
  | «attribute» => exact mem_attributes_iff hn.1
  | namespaces => exact mem_namespaces_iff hn.1
  | ancestor => exact above_iff.symm
  | ancestorOrSelf => exact List.mem_cons.trans (or_congr .rfl above_iff.symm)
  | descendant => exact mem_descendants_iff hn.1
  | descendantOrSelf =>
    exact mem_descendantsOrSelf.trans (or_congr .rfl (mem_descendants_iff hn.1))
  | following => exact mem_followers_iff ho hn
  | preceding => exact mem_predecessors_iff ho hn
  | followingSibling => exact mem_followingSiblings_iff ho hn
  | precedingSibling => exact mem_precedingSiblings_iff ho hn

theorem isAttached_of_above (ho : o.Valid) (h : n.Above o) : n.isAttached = false := by
  induction h with
  | single hp => exact (ho.parent hp).2
  | tail _ hp ih => exact ih (ho.parent hp).1

theorem along_nodup (o : Node) (a : Axis) : (o.along a).Nodup := by
  cases hf : a.isForward with
  | true => exact (along_ascending hf o).inOrder.nodup
  | false =>
    have hr : a.isReverse = true := by simpa [Axis.isForward] using hf
    exact List.nodup_reverse.mp (along_descending hr o).inOrder.nodup

/-- Each node that no element carries as a part is on just one of the axes that divide the tree. -/
theorem exists_unique_along (ho : o.Valid) (hn : n.InTreeOf o) (ha : n.isAttached = false) :
    ∃! a, a ∈ [Axis.self, .ancestor, .descendant, .following, .preceding] ∧ n ∈ o.along a := by
  have hasymm : n.Before o → ¬ o.Before n := Before.asymm hn.holds (InTreeOf.holds ⟨ho, rfl⟩)
  have hself : n = o → ¬ n.Before o ∧ ¬ o.Before n := by
    rintro rfl
    exact ⟨Before.irrefl n, Before.irrefl n⟩
  have habove : n.Above o → n.Before o := Above.before
  have hbelow : o.Above n → o.Before n := Above.before
  have hjoins : ∀ a, n ∈ o.along a ↔ a.Joins o n := mem_along_iff ho hn
  obtain ⟨a, had, hna⟩ : ∃ a ∈ [Axis.self, .ancestor, .descendant, .following, .preceding],
      n ∈ o.along a := by
    rcases mem_some_axis ho hn ha with h | h | h | h | h
    · exact ⟨.self, by simp, List.mem_singleton.mpr h⟩
    · exact ⟨.ancestor, by simp, h⟩
    · exact ⟨.descendant, by simp, h⟩
    · exact ⟨.following, by simp, h⟩
    · exact ⟨.preceding, by simp, h⟩
  refine ⟨a, ⟨had, hna⟩, fun b ⟨hbd, hnb⟩ => ?_⟩
  rw [hjoins] at hna hnb
  simp only [List.mem_cons, List.not_mem_nil, or_false] at had hbd
  rcases had with rfl | rfl | rfl | rfl | rfl <;> rcases hbd with rfl | rfl | rfl | rfl | rfl <;>
    simp only [Axis.Joins] at hna hnb <;> first | rfl | tauto

/-- Only elements, documents and leaves among them are above, below, later or earlier. -/
theorem isAttached_of_mem_along {a : Axis} (ho : o.Valid)
    (had : a ∈ [Axis.ancestor, .descendant, .following, .preceding]) (h : n ∈ o.along a) :
    n.isAttached = false := by
  simp only [List.mem_cons, List.not_mem_nil, or_false] at had
  rcases had with rfl | rfl | rfl | rfl
  · exact isAttached_of_above ho (above_iff.mpr h)
  · exact isAttached_of_mem_descendants h
  · exact isAttached_of_mem_followers h
  · exact isAttached_of_mem_predecessors h

end Node

end PathLanguage
