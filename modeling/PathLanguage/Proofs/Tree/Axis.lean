/- Each axis lists nodes of the document of its origin, in document order or in its reverse, as its
flags say. -/
import PathLanguage.Proofs.Tree.Subtree
import PathLanguage.Tree.Axis

namespace PathLanguage

namespace Node

theorem childNodes_ascending (p : Node) (i : Nat) (ts : List Tree) :
    Ascending (p.childNodes i ts) := by
  induction ts generalizing i with
  | nil => simp [childNodes, Ascending]
  | cons t ts ih =>
    refine List.pairwise_cons.mpr ⟨?_, ih (i + 1)⟩
    intro m hm
    obtain ⟨j, u, -, rfl⟩ := mem_childNodes.mp hm
    refine before_of_parts (.child p i t) (.child p (i + 1 + j) u) rfl rfl rfl ?_ (.inl rfl)
      (.inl rfl)
    simp [Nat.compare_eq_lt]
    omega

theorem attributeNodes_ascending (p : Node) (i : Nat) (as : List Attribute) :
    Ascending (p.attributeNodes i as) := by
  induction as generalizing i with
  | nil => simp [attributeNodes, Ascending]
  | cons a as ih =>
    refine List.pairwise_cons.mpr ⟨?_, ih (i + 1)⟩
    intro m hm
    obtain ⟨j, u, -, rfl⟩ := mem_attributeNodes.mp hm
    refine before_of_parts (.attribute p i a) (.attribute p (i + 1 + j) u) rfl rfl rfl ?_ (.inl rfl)
      (.inl rfl)
    simp [Nat.compare_eq_lt]
    omega

theorem namespaceNodes_ascending (p : Node) (i : Nat) (bs : List NamespaceBinding) :
    Ascending (p.namespaceNodes i bs) := by
  induction bs generalizing i with
  | nil => simp [namespaceNodes, Ascending]
  | cons b bs ih =>
    refine List.pairwise_cons.mpr ⟨?_, ih (i + 1)⟩
    intro m hm
    obtain ⟨j, u, -, rfl⟩ := mem_namespaceNodes.mp hm
    refine before_of_parts (.namespaceNode p i b) (.namespaceNode p (i + 1 + j) u) rfl rfl rfl ?_
      (.inl rfl) (.inl rfl)
    simp [Nat.compare_eq_lt]
    omega

theorem children_ascending (p : Node) : Ascending p.children := childNodes_ascending p 0 _

theorem attributes_ascending (p : Node) : Ascending p.attributes := attributeNodes_ascending p 0 _

theorem namespaces_ascending (p : Node) : Ascending p.namespaces := namespaceNodes_ascending p 0 _

theorem parent_of_mem_children {p n : Node} (h : n ∈ p.children) : n.parent = some p := by
  obtain ⟨i, t, -, rfl⟩ := mem_children.mp h
  rfl

theorem parent_of_mem_attributes {p n : Node} (h : n ∈ p.attributes) : n.parent = some p := by
  obtain ⟨i, t, -, rfl⟩ := mem_attributes.mp h
  rfl

theorem parent_of_mem_namespaces {p n : Node} (h : n ∈ p.namespaces) : n.parent = some p := by
  obtain ⟨i, t, -, rfl⟩ := mem_namespaces.mp h
  rfl

/-- What a walk may add to each node: some of its attributes and namespace nodes, in order. -/
structure Attaches (attached : Node → List Node) : Prop where
  ascending : ∀ n, Ascending (attached n)
  parts : ∀ n, ∀ m ∈ attached n, m ∈ n.attributes ∨ m ∈ n.namespaces

theorem attaches_nil : Attaches fun _ => [] where
  ascending _ := List.Pairwise.nil
  parts _ _ h := by simp at h

theorem namespaces_before_attributes {p a b : Node} (ha : a ∈ p.namespaces)
    (hb : b ∈ p.attributes) : a.Before b := by
  obtain ⟨i, x, -, rfl⟩ := mem_namespaces.mp ha
  obtain ⟨j, y, -, rfl⟩ := mem_attributes.mp hb
  exact before_of_parts (.namespaceNode p i x) (.attribute p j y) rfl rfl rfl rfl (.inl rfl)
    (.inl rfl)

theorem attaches_all : Attaches fun n => n.namespaces ++ n.attributes where
  ascending n := List.pairwise_append.mpr ⟨namespaces_ascending n, attributes_ascending n,
    fun _ ha _ hb => namespaces_before_attributes ha hb⟩
  parts _ _ h := (List.mem_append.mp h).symm

theorem Attaches.parent {attached : Node → List Node} (h : Attaches attached) {n m : Node}
    (hm : m ∈ attached n) : m.parent = some n :=
  (h.parts n m hm).elim parent_of_mem_attributes parent_of_mem_namespaces

/-- What is attached to a node comes before all that lies below a child of the node. -/
theorem Attaches.before_child {attached : Node → List Node} (h : Attaches attached)
    {n m c x : Node} (hm : m ∈ attached n) (hc : c ∈ n.children) (hx : Within c x) :
    m.Before x := by
  obtain ⟨j, t, -, rfl⟩ := mem_children.mp hc
  rcases h.parts n m hm with hm | hm
  · obtain ⟨i, y, -, rfl⟩ := mem_attributes.mp hm
    exact before_of_parts (.attribute n i y) (.child n j t) rfl rfl rfl rfl (.inl rfl) hx
  · obtain ⟨i, y, -, rfl⟩ := mem_namespaces.mp hm
    exact before_of_parts (.namespaceNode n i y) (.child n j t) rfl rfl rfl rfl (.inl rfl) hx

theorem walkForest_eq (attached : Node → List Node) (p : Node) (i : Nat) (ts : List Tree) :
    walkForest attached p i ts = (p.childNodes i ts).flatMap (walk attached) := by
  induction ts generalizing i with
  | nil => rfl
  | cons t ts ih =>
    rw [walkForest, childNodes, List.flatMap_cons, ih]
    rfl

/-- A walk lists a node, what is attached to it, and the walks of its children. -/
theorem walk_eq {attached : Node → List Node} (h : Attaches attached) (n : Node) :
    n.walk attached = n :: (attached n ++ n.children.flatMap (walk attached)) := by
  cases ht : n.tree? with
  | none =>
    have hn : attached n = [] := by
      refine List.eq_nil_iff_forall_not_mem.mpr fun m hm => ?_
      rcases h.parts n m hm with hm | hm
      · simp [mem_attributes, ht] at hm
      · simp [mem_namespaces, ht] at hm
    simp [walk, children, childNodes, ht, hn]
  | some t =>
    simp only [walk, ht, children, Option.map_some, Option.getD_some]
    cases t <;> simp [walkTree, walkForest_eq, Tree.children, childNodes]

theorem within_of_mem_walk {attached : Node → List Node} (h : Attaches attached) {n m : Node}
    (hm : m ∈ n.walk attached) : Within n m := by
  induction n using down_induction with
  | step n ih =>
    rw [walk_eq h, List.mem_cons, List.mem_append, List.mem_flatMap] at hm
    rcases hm with rfl | hm | ⟨c, hc, hm⟩
    · exact .inl rfl
    · exact within_of_parent (h.parent hm)
    · exact (within_of_parent (parent_of_mem_children hc)).trans (ih c hc hm)

/-- The subtrees of children of one node come one after the other. -/
theorem before_of_children {p a b x y : Node} (ha : a ∈ p.children) (hb : b ∈ p.children)
    (h : a.Before b) (hx : Within a x) (hy : Within b y) : x.Before y := by
  obtain ⟨i, t, -, rfl⟩ := mem_children.mp ha
  obtain ⟨j, u, -, rfl⟩ := mem_children.mp hb
  refine before_of_parts (.child p i t) (.child p j u) rfl rfl rfl ?_ hx hy
  have ho := (before_iff.mp h).2
  simpa [Node.order, document, address, steps, Place.orderPaths_append_left, Place.orderPaths,
    Std.ReflCmp.compare_self] using ho

theorem flatMap_walk_ascending {attached : Node → List Node} (h : Attaches attached) {p : Node}
    {cs : List Node} (hs : cs ⊆ p.children) (ha : Ascending cs)
    (hw : ∀ c ∈ cs, Ascending (c.walk attached)) : Ascending (cs.flatMap (walk attached)) := by
  refine List.pairwise_flatMap.mpr ⟨hw, ?_⟩
  refine List.Pairwise.imp_of_mem ?_ ha
  intro a b ha hb hab x hx y hy
  exact before_of_children (hs ha) (hs hb) hab (within_of_mem_walk h hx) (within_of_mem_walk h hy)

theorem walk_ascending {attached : Node → List Node} (h : Attaches attached) (n : Node) :
    Ascending (n.walk attached) := by
  induction n using down_induction with
  | step n ih =>
    have hf := flatMap_walk_ascending h (fun c hc => hc) (children_ascending n) ih
    have hbelow : ∀ m ∈ attached n ++ n.children.flatMap (walk attached), n ∈ m.ancestors := by
      intro m hm
      rcases List.mem_append.mp hm with hm | hm
      · exact mem_ancestors_of_parent (h.parent hm)
      · obtain ⟨c, hc, hm⟩ := List.mem_flatMap.mp hm
        have hn := mem_ancestors_of_parent (parent_of_mem_children hc)
        rcases within_of_mem_walk h hm with rfl | hw
        · exact hn
        · exact ancestors_trans hn hw
    rw [walk_eq h]
    refine List.pairwise_cons.mpr ⟨fun m hm => before_of_mem_ancestors (hbelow m hm), ?_⟩
    refine List.pairwise_append.mpr ⟨h.ascending n, hf, ?_⟩
    intro a ha b hb
    obtain ⟨c, hc, hb⟩ := List.mem_flatMap.mp hb
    exact h.before_child ha hc (within_of_mem_walk h hb)

theorem descendants_eq (n : Node) : n.descendants = n.children.flatMap descendantsOrSelf := by
  rw [descendants, descendantsOrSelf, walk_eq attaches_nil, List.tail_cons, List.nil_append]
  rfl

theorem descendants_ascending (n : Node) : Ascending n.descendants :=
  (walk_ascending attaches_nil n).sublist (List.tail_sublist _)

theorem within_of_mem_descendants {n m : Node} (h : m ∈ n.descendants) : Within n m :=
  within_of_mem_walk attaches_nil (List.mem_of_mem_tail h)

theorem exists_child_of_mem_descendants {n m : Node} (h : m ∈ n.descendants) :
    ∃ c ∈ n.children, Within c m := by
  rw [descendants_eq, List.mem_flatMap] at h
  obtain ⟨c, hc, h⟩ := h
  exact ⟨c, hc, within_of_mem_walk attaches_nil h⟩

theorem getElem?_childNodes (p : Node) (i : Nat) (ts : List Tree) (k : Nat) :
    (p.childNodes i ts)[k]? = ts[k]?.map (.child p (i + k)) := by
  induction ts generalizing i k with
  | nil => rfl
  | cons t ts ih =>
    cases k with
    | zero => rfl
    | succ k => simp [childNodes, ih, Nat.add_right_comm, Nat.add_assoc]

/-- What follows a node comes after all that lies below it. -/
theorem mem_followers {n x y : Node} (hx : x ∈ n.followers) (hy : Within n y) : y.Before x := by
  induction n generalizing y with
  | root d => simp [followers] at hx
  | child p i t ih =>
    rcases List.mem_append.mp hx with hx | hx
    · obtain ⟨c, hc, hx⟩ := List.mem_flatMap.mp hx
      obtain ⟨j, hj, he⟩ := List.mem_iff_getElem.mp hc
      obtain ⟨k, u, -, rfl⟩ := mem_children.mp (List.mem_of_mem_drop hc)
      have hk : k = i + 1 + j := by
        have hg := List.getElem?_eq_getElem hj
        rw [he, List.getElem?_drop, children, getElem?_childNodes] at hg
        obtain ⟨-, hg⟩ : _ ∧ i + 1 + j = k := by simpa using hg
        exact hg.symm
      refine before_of_parts (.child p i t) (.child p k u) rfl rfl rfl ?_ hy
        (within_of_mem_walk attaches_nil hx)
      simp [Nat.compare_eq_lt]
      omega
    · exact ih hx ((within_of_parent rfl).trans hy)
  | «attribute» p i a ih =>
    rcases List.mem_append.mp hx with hx | hx
    · obtain ⟨c, hc, hw⟩ := exists_child_of_mem_descendants hx
      obtain ⟨j, u, -, rfl⟩ := mem_children.mp hc
      exact before_of_parts (.attribute p i a) (.child p j u) rfl rfl rfl rfl hy hw
    · exact ih hx ((within_of_parent rfl).trans hy)
  | namespaceNode p i b ih =>
    rcases List.mem_append.mp hx with hx | hx
    · obtain ⟨c, hc, hw⟩ := exists_child_of_mem_descendants hx
      obtain ⟨j, u, -, rfl⟩ := mem_children.mp hc
      exact before_of_parts (.namespaceNode p i b) (.child p j u) rfl rfl rfl rfl hy hw
    · exact ih hx ((within_of_parent rfl).trans hy)

theorem followers_ascending (n : Node) : Ascending n.followers := by
  induction n with
  | root d => simp [followers, Ascending]
  | child p i t ih =>
    refine List.pairwise_append.mpr ⟨?_, ih, ?_⟩
    · exact flatMap_walk_ascending attaches_nil (List.drop_subset _ _)
        ((children_ascending p).sublist (List.drop_sublist _ _)) fun c _ =>
          walk_ascending attaches_nil c
    · intro a ha b hb
      obtain ⟨c, hc, ha⟩ := List.mem_flatMap.mp ha
      have hp := within_of_parent (parent_of_mem_children (List.mem_of_mem_drop hc))
      exact mem_followers hb (hp.trans (within_of_mem_walk attaches_nil ha))
  | «attribute» p i a ih =>
    refine List.pairwise_append.mpr ⟨descendants_ascending p, ih, ?_⟩
    intro a ha b hb
    exact mem_followers hb (within_of_mem_descendants ha)
  | namespaceNode p i b ih =>
    refine List.pairwise_append.mpr ⟨descendants_ascending p, ih, ?_⟩
    intro a ha b hb
    exact mem_followers hb (within_of_mem_descendants ha)

/-- What precedes a node comes before all that lies below it. -/
theorem mem_predecessors {n x y : Node} (hx : x ∈ n.predecessors) (hy : Within n y) :
    x.Before y := by
  induction n generalizing y with
  | root d => simp [predecessors] at hx
  | child p i t ih =>
    rcases List.mem_append.mp hx with hx | hx
    · obtain ⟨c, hc, hx⟩ := List.mem_flatMap.mp (List.mem_reverse.mp hx)
      obtain ⟨j, hj, he⟩ := List.mem_iff_getElem.mp hc
      obtain ⟨k, u, -, rfl⟩ := mem_children.mp (List.mem_of_mem_take hc)
      have hk : k < i := by
        have hg := List.getElem?_eq_getElem hj
        have hji : j < i := by simp only [List.length_take] at hj; omega
        rw [he, List.getElem?_take_of_lt hji, children, getElem?_childNodes] at hg
        obtain ⟨-, hg⟩ : _ ∧ j = k := by simpa using hg
        exact hg ▸ hji
      exact before_of_parts (.child p k u) (.child p i t) rfl rfl rfl
        (by simpa [Nat.compare_eq_lt] using hk) (within_of_mem_walk attaches_nil hx) hy
    · exact ih hx ((within_of_parent rfl).trans hy)
  | «attribute» p i a ih => exact ih hx ((within_of_parent rfl).trans hy)
  | namespaceNode p i b ih => exact ih hx ((within_of_parent rfl).trans hy)

theorem predecessors_descending (n : Node) : Ascending n.predecessors.reverse := by
  induction n with
  | root d => simp [predecessors, Ascending]
  | child p i t ih =>
    rw [predecessors, List.reverse_append, List.reverse_reverse]
    refine List.pairwise_append.mpr ⟨ih, ?_, ?_⟩
    · exact flatMap_walk_ascending attaches_nil (List.take_subset _ _)
        ((children_ascending p).sublist (List.take_sublist _ _)) fun c _ =>
          walk_ascending attaches_nil c
    · intro a ha b hb
      obtain ⟨c, hc, hb⟩ := List.mem_flatMap.mp hb
      have hp := within_of_parent (parent_of_mem_children (List.mem_of_mem_take hc))
      exact mem_predecessors (List.mem_reverse.mp ha)
        (hp.trans (within_of_mem_walk attaches_nil hb))
  | «attribute» p i a ih => exact ih
  | namespaceNode p i b ih => exact ih

theorem ancestors_descending (n : Node) : Ascending n.ancestors.reverse := by
  have key : ∀ p : Node, Ascending p.ancestors.reverse → Ascending (p :: p.ancestors).reverse := by
    intro p hp
    rw [List.reverse_cons]
    refine List.pairwise_append.mpr ⟨hp, by simp, ?_⟩
    intro a ha b hb
    rw [List.mem_singleton.mp hb]
    exact before_of_mem_ancestors (List.mem_reverse.mp ha)
  induction n with
  | root d => simp [ancestors, Ascending]
  | child p i t ih => exact key p ih
  | «attribute» p i a ih => exact key p ih
  | namespaceNode p i b ih => exact key p ih

theorem ancestorsOrSelf_descending (n : Node) : Ascending (n :: n.ancestors).reverse := by
  rw [List.reverse_cons]
  refine List.pairwise_append.mpr ⟨ancestors_descending n, by simp, ?_⟩
  intro a ha b hb
  rw [List.mem_singleton.mp hb]
  exact before_of_mem_ancestors (List.mem_reverse.mp ha)

theorem followingSiblings_sublist (n : Node) :
    n.followingSiblings = [] ∨ ∃ p, n.parent = some p ∧ n.followingSiblings.Sublist p.children := by
  cases n with
  | child p i t => exact .inr ⟨p, rfl, List.drop_sublist _ _⟩
  | root d => exact .inl rfl
  | «attribute» p i a => exact .inl rfl
  | namespaceNode p i b => exact .inl rfl

theorem precedingSiblings_sublist (n : Node) : n.precedingSiblings = [] ∨
    ∃ p, n.parent = some p ∧ n.precedingSiblings.reverse.Sublist p.children := by
  cases n with
  | child p i t => exact .inr ⟨p, rfl, by simpa [precedingSiblings] using List.take_sublist _ _⟩
  | root d => exact .inl rfl
  | «attribute» p i a => exact .inl rfl
  | namespaceNode p i b => exact .inl rfl

/-- A forward axis lists its nodes in document order. -/
theorem along_ascending {a : Axis} (h : a.isForward = true) (n : Node) : Ascending (n.along a) := by
  cases a with
  | «attribute» => exact attributes_ascending n
  | child => exact children_ascending n
  | descendant => exact descendants_ascending n
  | descendantOrSelf => exact walk_ascending attaches_nil n
  | following => exact followers_ascending n
  | followingSibling =>
    rcases followingSiblings_sublist n with hs | ⟨p, -, hs⟩
    · simp [along, hs, Ascending]
    · exact (children_ascending p).sublist hs
  | namespaces => exact namespaces_ascending n
  | parent => cases hp : n.parent <;> simp [along, hp, Ascending]
  | self => simp [along, Ascending]
  | ancestor => cases h
  | ancestorOrSelf => cases h
  | preceding => cases h
  | precedingSibling => cases h

/-- A reverse axis lists its nodes in the reverse of document order. -/
theorem along_descending {a : Axis} (h : a.isReverse = true) (n : Node) :
    Ascending (n.along a).reverse := by
  cases a with
  | ancestor => exact ancestors_descending n
  | ancestorOrSelf => exact ancestorsOrSelf_descending n
  | preceding => exact predecessors_descending n
  | precedingSibling =>
    rcases precedingSiblings_sublist n with hs | ⟨p, -, hs⟩
    · simp [along, hs, Ascending]
    · exact (children_ascending p).sublist hs
  | «attribute» => cases h
  | child => cases h
  | descendant => cases h
  | descendantOrSelf => cases h
  | following => cases h
  | followingSibling => cases h
  | namespaces => cases h
  | parent => cases h
  | self => cases h

theorem separate_of_subset {p : Node} {ns : List Node} (h : ∀ n ∈ ns, n.parent = some p) :
    ns.Pairwise Separate :=
  List.pairwise_of_forall_mem_list fun a ha b hb => separate_of_parent (h a ha) (h b hb)

/-- No node of a peer axis is an ancestor of another. -/
theorem along_separate {a : Axis} (h : a.isPeer = true) (n : Node) :
    (n.along a).Pairwise Separate := by
  cases a with
  | «attribute» => exact separate_of_subset fun m hm => parent_of_mem_attributes hm
  | child => exact separate_of_subset fun m hm => parent_of_mem_children hm
  | namespaces => exact separate_of_subset fun m hm => parent_of_mem_namespaces hm
  | parent => cases hp : n.parent <;> simp [along, hp]
  | self => simp [along]
  | followingSibling =>
    rcases followingSiblings_sublist n with hs | ⟨p, -, hs⟩
    · simp [along, hs]
    · exact separate_of_subset fun m hm => parent_of_mem_children (hs.subset hm)
  | precedingSibling =>
    rcases precedingSiblings_sublist n with hs | ⟨p, -, hs⟩
    · simp [along, hs]
    · exact separate_of_subset fun m hm =>
        parent_of_mem_children (hs.subset (List.mem_reverse.mpr hm))
  | ancestor => cases h
  | ancestorOrSelf => cases h
  | descendant => cases h
  | descendantOrSelf => cases h
  | following => cases h
  | preceding => cases h

/-- A subtree axis stays at its origin and below. -/
theorem within_of_mem_along {a : Axis} (h : a.isSubtree = true) {n m : Node}
    (hm : m ∈ n.along a) : Within n m := by
  cases a with
  | «attribute» => exact within_of_parent (parent_of_mem_attributes hm)
  | child => exact within_of_parent (parent_of_mem_children hm)
  | descendant => exact within_of_mem_descendants hm
  | descendantOrSelf => exact within_of_mem_walk attaches_nil hm
  | namespaces => exact within_of_parent (parent_of_mem_namespaces hm)
  | self => exact .inl (List.mem_singleton.mp hm).symm
  | ancestor => cases h
  | ancestorOrSelf => cases h
  | following => cases h
  | followingSibling => cases h
  | parent => cases h
  | preceding => cases h
  | precedingSibling => cases h

end Node

namespace Forest

open Node

variable {F : Forest}

theorem Holds.walk {attached : Node → List Node} (h : Attaches attached) {n : Node}
    (hn : F.Holds n) : F.HoldsAll (n.walk attached) := by
  induction n using down_induction with
  | step n ih =>
    rw [walk_eq h]
    refine holdsAll_cons.mpr ⟨hn, holdsAll_append.mpr ⟨?_, ?_⟩⟩
    · intro m hm
      exact (h.parts n m hm).elim (hn.attributes m) (hn.namespaces m)
    · intro m hm
      obtain ⟨c, hc, hm⟩ := List.mem_flatMap.mp hm
      exact ih c hc (hn.children c hc) m hm

theorem HoldsAll.flatMap_walk {attached : Node → List Node} (h : Attaches attached)
    {ns : List Node} (hn : F.HoldsAll ns) : F.HoldsAll (ns.flatMap (Node.walk attached)) := by
  intro m hm
  obtain ⟨c, hc, hm⟩ := List.mem_flatMap.mp hm
  exact (hn c hc).walk h m hm

theorem Holds.descendants {n : Node} (h : F.Holds n) : F.HoldsAll n.descendants :=
  (h.walk attaches_nil).of_subset (List.tail_sublist _).subset

theorem Holds.followers {n : Node} (h : F.Holds n) : F.HoldsAll n.followers := by
  induction n with
  | root d => simp [Node.followers]
  | child p i t ih =>
    have hp := h.parent rfl
    exact holdsAll_append.mpr ⟨HoldsAll.flatMap_walk attaches_nil
      (hp.children.of_subset (List.drop_subset _ _)), ih hp⟩
  | «attribute» p i a ih =>
    have hp := h.parent rfl
    exact holdsAll_append.mpr ⟨hp.descendants, ih hp⟩
  | namespaceNode p i b ih =>
    have hp := h.parent rfl
    exact holdsAll_append.mpr ⟨hp.descendants, ih hp⟩

theorem Holds.predecessors {n : Node} (h : F.Holds n) : F.HoldsAll n.predecessors := by
  induction n with
  | root d => simp [Node.predecessors]
  | child p i t ih =>
    have hp := h.parent rfl
    have hf := HoldsAll.flatMap_walk attaches_nil (hp.children.of_subset (List.take_subset i _))
    exact holdsAll_append.mpr ⟨fun m hm => hf m (List.mem_reverse.mp hm), ih hp⟩
  | «attribute» p i a ih => exact ih (h.parent rfl)
  | namespaceNode p i b ih => exact ih (h.parent rfl)

/-- All axes stay among the nodes of the documents. -/
theorem Holds.along {n : Node} (h : F.Holds n) (a : Axis) : F.HoldsAll (n.along a) := by
  cases a with
  | ancestor => exact h.ancestors
  | ancestorOrSelf => exact holdsAll_cons.mpr ⟨h, h.ancestors⟩
  | «attribute» => exact h.attributes
  | child => exact h.children
  | descendant => exact h.descendants
  | descendantOrSelf => exact h.walk attaches_nil
  | following => exact h.followers
  | followingSibling =>
    rcases followingSiblings_sublist n with hs | ⟨p, hp, hs⟩
    · simp [Node.along, hs]
    · exact (h.parent hp).children.of_subset hs.subset
  | namespaces => exact h.namespaces
  | parent =>
    cases hp : n.parent with
    | none => simp [Node.along, hp]
    | some p => simpa [Node.along, hp] using h.parent hp
  | preceding => exact h.predecessors
  | precedingSibling =>
    rcases precedingSiblings_sublist n with hs | ⟨p, hp, hs⟩
    · simp [Node.along, hs]
    · exact fun m hm => (h.parent hp).children m (hs.subset (List.mem_reverse.mpr hm))
  | self => simpa [Node.along] using h

end Forest

end PathLanguage
