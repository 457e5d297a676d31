/- The documents of a run. Their nodes are told apart by the steps that lead to them, and document
order is a strict total order on them, so that a set of nodes has one list in that order. -/
import Mathlib.Data.List.Sort
import PathLanguage.NodeSet.Extent
import PathLanguage.Tree.Order

namespace PathLanguage

namespace Place

theorem order_eq : order = compareLex (compareOn fun p => p.rank.1) (compareOn fun p => p.rank.2) :=
  rfl

theorem rank_injective {a b : Place} (h : a.rank = b.rank) : a = b := by
  cases a <;> cases b <;> simp_all [rank]

instance : Std.TransCmp order := by
  rw [order_eq]
  infer_instance

instance : Std.LawfulEqCmp order where
  eq_of_compare {a b} h := by
    simp only [order, Ordering.then_eq_eq, Std.LawfulEqCmp.compare_eq_iff_eq] at h
    exact rank_injective (Prod.ext h.1 h.2)

theorem orderPaths_eq (p q : List Place) : orderPaths p q = List.compareLex order p q := by
  induction p generalizing q with
  | nil => cases q <;> rfl
  | cons a p ih =>
    cases q with
    | nil => rfl
    | cons b q => rw [orderPaths, ih, List.compareLex_cons_cons]

instance : Std.TransCmp orderPaths := by
  have h : orderPaths = List.compareLex order := funext fun p => funext (orderPaths_eq p)
  rw [h]
  infer_instance

instance : Std.LawfulEqCmp orderPaths where
  eq_of_compare {p q} h := by
    rw [orderPaths_eq] at h
    exact Std.LawfulEqCmp.eq_of_compare h

@[simp] theorem order_childAt (i j : Nat) : order (.childAt i) (.childAt j) = compare i j := rfl

@[simp] theorem order_attributeAt (i j : Nat) :
    order (.attributeAt i) (.attributeAt j) = compare i j := rfl

@[simp] theorem order_namespaceAt (i j : Nat) :
    order (.namespaceAt i) (.namespaceAt j) = compare i j := rfl

/-- A common beginning does not count. -/
theorem orderPaths_append_left (r p q : List Place) :
    orderPaths (r ++ p) (r ++ q) = orderPaths p q := by
  induction r with
  | nil => rfl
  | cons c r ih =>
    have hc : order c c = .eq := Std.ReflCmp.compare_self
    simpa [orderPaths, hc] using ih

/-- Paths that part are ordered by the first steps that differ. -/
theorem orderPaths_of_order {a b : Place} (h : order a b = .lt) (p u v : List Place) :
    orderPaths (p ++ a :: u) (p ++ b :: v) = .lt := by
  simp [orderPaths_append_left, orderPaths, h]

theorem orderPaths_append (p : List Place) (a : Place) (u : List Place) :
    orderPaths p (p ++ a :: u) = .lt := by
  simpa [orderPaths] using orderPaths_append_left p [] (a :: u)

end Place

namespace Node

/-- Document order in which the documents themselves come by their identities, so that any two nodes
have one. -/
def order (a b : Node) : Ordering :=
  (compare a.document.id b.document.id).then (Place.orderPaths a.address b.address)

instance : Std.TransCmp fun a b : Node => Place.orderPaths a.address b.address where
  eq_swap := Std.OrientedCmp.eq_swap
  isLE_trans := Std.TransCmp.isLE_trans

instance : Std.TransCmp order :=
  inferInstanceAs (Std.TransCmp (compareLex (compareOn fun n : Node => n.document.id)
    fun a b => Place.orderPaths a.address b.address))

/-- Nodes that the documents themselves put in order. -/
def Comparable (a b : Node) : Prop :=
  a.document.id = b.document.id ∨ a.document.structural = false

/-- One node precedes another in document order. -/
def Before (a b : Node) : Prop := a.order? b = some .lt

theorem order?_eq_some {a b : Node} {o : Ordering} :
    a.order? b = some o ↔ a.Comparable b ∧ a.order b = o := by
  unfold order? Comparable order
  by_cases hid : a.document.id = b.document.id
  · simp [hid, Std.ReflCmp.compare_self]
  · have hne : compare a.document.id b.document.id ≠ .eq := by simpa using hid
    rcases hs : a.document.structural with _ | _
    · rcases hc : compare a.document.id b.document.id with _ | _ | _ <;> simp_all
    · simp [hid]

theorem order?_eq_none {a b : Node} : a.order? b = none ↔ ¬ a.Comparable b := by
  unfold order? Comparable
  by_cases hid : a.document.id = b.document.id
  · simp [hid]
  · rcases hs : a.document.structural with _ | _ <;> simp [hid]

theorem before_iff {a b : Node} : a.Before b ↔ a.Comparable b ∧ a.order b = .lt :=
  order?_eq_some

@[simp] theorem Comparable.refl (a : Node) : a.Comparable a := .inl rfl

@[simp] theorem order_self (a : Node) : a.order a = .eq := Std.ReflCmp.compare_self

theorem order_lt_iff_gt {a b : Node} : a.order b = .lt ↔ b.order a = .gt :=
  Std.OrientedCmp.gt_iff_lt.symm

theorem Before.irrefl (a : Node) : ¬ a.Before a := by
  intro h
  have := (before_iff.mp h).2
  simp at this

/-- Nodes below a common point are ordered by the steps in which their addresses part. -/
theorem before_of_steps {a b : Node} {p u v : List Place} {x y : Place}
    (hd : a.document = b.document) (ha : a.steps = u ++ x :: p) (hb : b.steps = v ++ y :: p)
    (h : x.order y = .lt) : a.Before b := by
  have h1 : a.address = p.reverse ++ x :: u.reverse := by simp [address, ha]
  have h2 : b.address = p.reverse ++ y :: v.reverse := by simp [address, hb]
  unfold Before order?
  rw [if_pos (congrArg Document.id hd), h1, h2, Place.orderPaths_of_order h]

/-- An ancestor precedes what lies below it. -/
theorem before_of_suffix {a b : Node} {u : List Place} {x : Place} (hd : a.document = b.document)
    (h : b.steps = u ++ x :: a.steps) : a.Before b := by
  have hb : b.address = a.address ++ x :: u.reverse := by simp [address, h]
  unfold Before order?
  rw [if_pos (congrArg Document.id hd), hb, Place.orderPaths_append]

end Node

namespace Node

theorem mem_childNodes {p n : Node} {i : Nat} {ts : List Tree} :
    n ∈ p.childNodes i ts ↔ ∃ j t, ts[j]? = some t ∧ n = .child p (i + j) t := by
  induction ts generalizing i with
  | nil => simp [childNodes]
  | cons t ts ih =>
    simp only [childNodes, List.mem_cons, ih]
    constructor
    · rintro (rfl | ⟨j, u, hu, rfl⟩)
      · exact ⟨0, t, rfl, rfl⟩
      · exact ⟨j + 1, u, hu, by rw [Nat.add_right_comm, Nat.add_assoc]⟩
    · rintro ⟨_ | j, u, hu, rfl⟩
      · left
        simpa using hu.symm
      · exact .inr ⟨j, u, hu, by rw [Nat.add_right_comm, Nat.add_assoc]⟩

theorem mem_attributeNodes {p n : Node} {i : Nat} {as : List Attribute} :
    n ∈ p.attributeNodes i as ↔ ∃ j a, as[j]? = some a ∧ n = .attribute p (i + j) a := by
  induction as generalizing i with
  | nil => simp [attributeNodes]
  | cons a as ih =>
    simp only [attributeNodes, List.mem_cons, ih]
    constructor
    · rintro (rfl | ⟨j, u, hu, rfl⟩)
      · exact ⟨0, a, rfl, rfl⟩
      · exact ⟨j + 1, u, hu, by rw [Nat.add_right_comm, Nat.add_assoc]⟩
    · rintro ⟨_ | j, u, hu, rfl⟩
      · left
        simpa using hu.symm
      · exact .inr ⟨j, u, hu, by rw [Nat.add_right_comm, Nat.add_assoc]⟩

theorem mem_namespaceNodes {p n : Node} {i : Nat} {bs : List NamespaceBinding} :
    n ∈ p.namespaceNodes i bs ↔ ∃ j b, bs[j]? = some b ∧ n = .namespaceNode p (i + j) b := by
  induction bs generalizing i with
  | nil => simp [namespaceNodes]
  | cons b bs ih =>
    simp only [namespaceNodes, List.mem_cons, ih]
    constructor
    · rintro (rfl | ⟨j, u, hu, rfl⟩)
      · exact ⟨0, b, rfl, rfl⟩
      · exact ⟨j + 1, u, hu, by rw [Nat.add_right_comm, Nat.add_assoc]⟩
    · rintro ⟨_ | j, u, hu, rfl⟩
      · left
        simpa using hu.symm
      · exact .inr ⟨j, u, hu, by rw [Nat.add_right_comm, Nat.add_assoc]⟩

theorem mem_children {p n : Node} :
    n ∈ p.children ↔ ∃ i t, ((p.tree?.map Tree.children).getD [])[i]? = some t ∧
      n = .child p i t := by
  simp [children, mem_childNodes]

theorem mem_attributes {p n : Node} :
    n ∈ p.attributes ↔ ∃ i a, ((p.tree?.map Tree.attributes).getD [])[i]? = some a ∧
      n = .attribute p i a := by
  simp [attributes, mem_attributeNodes]

theorem mem_namespaces {p n : Node} :
    n ∈ p.namespaces ↔ ∃ i b, ((p.tree?.map Tree.namespaces).getD [])[i]? = some b ∧
      n = .namespaceNode p i b := by
  simp [namespaces, mem_namespaceNodes]

theorem valid_child {p : Node} {i : Nat} {t : Tree} : (Node.child p i t).Valid ↔
    p.Valid ∧ ((p.tree?.map Tree.children).getD [])[i]? = some t := by
  constructor
  · intro h
    cases h with
    | child hp hn =>
      obtain ⟨j, u, hu, he⟩ := mem_children.mp hn
      cases he
      exact ⟨hp, hu⟩
    | «attribute» hp hn => simp [mem_attributes] at hn
    | namespaceNode hp hn => simp [mem_namespaces] at hn
  · rintro ⟨hp, ht⟩
    exact .child hp (mem_children.mpr ⟨i, t, ht, rfl⟩)

theorem valid_attribute {p : Node} {i : Nat} {a : Attribute} : (Node.attribute p i a).Valid ↔
    p.Valid ∧ ((p.tree?.map Tree.attributes).getD [])[i]? = some a := by
  constructor
  · intro h
    cases h with
    | child hp hn => simp [mem_children] at hn
    | «attribute» hp hn =>
      obtain ⟨j, b, hb, he⟩ := mem_attributes.mp hn
      cases he
      exact ⟨hp, hb⟩
    | namespaceNode hp hn => simp [mem_namespaces] at hn
  · rintro ⟨hp, ha⟩
    exact .attribute hp (mem_attributes.mpr ⟨i, a, ha, rfl⟩)

theorem valid_namespaceNode {p : Node} {i : Nat} {b : NamespaceBinding} :
    (Node.namespaceNode p i b).Valid ↔
      p.Valid ∧ ((p.tree?.map Tree.namespaces).getD [])[i]? = some b := by
  constructor
  · intro h
    cases h with
    | child hp hn => simp [mem_children] at hn
    | «attribute» hp hn => simp [mem_attributes] at hn
    | namespaceNode hp hn =>
      obtain ⟨j, c, hc, he⟩ := mem_namespaces.mp hn
      cases he
      exact ⟨hp, hc⟩
  · rintro ⟨hp, hb⟩
    exact .namespaceNode hp (mem_namespaces.mpr ⟨i, b, hb, rfl⟩)

/-- A valid node is determined by its document and the steps that lead to it. -/
theorem Valid.eq_of_steps {a b : Node} (ha : a.Valid) (hb : b.Valid)
    (hd : a.document = b.document) (hs : a.steps = b.steps) : a = b := by
  induction a generalizing b with
  | root d => cases b <;> simp_all [steps, document]
  | child p i t ih =>
    cases b <;> simp only [steps, List.cons.injEq, Place.childAt.injEq, reduceCtorEq,
      false_and] at hs
    obtain ⟨rfl, hs⟩ := hs
    rw [valid_child] at ha hb
    obtain rfl := ih ha.1 hb.1 hd hs
    rw [Option.some.inj (ha.2.symm.trans hb.2)]
  | «attribute» p i a ih =>
    cases b <;> simp only [steps, List.cons.injEq, Place.attributeAt.injEq, reduceCtorEq,
      false_and] at hs
    obtain ⟨rfl, hs⟩ := hs
    rw [valid_attribute] at ha hb
    obtain rfl := ih ha.1 hb.1 hd hs
    rw [Option.some.inj (ha.2.symm.trans hb.2)]
  | namespaceNode p i b ih =>
    cases b <;> simp only [steps, List.cons.injEq, Place.namespaceAt.injEq, reduceCtorEq,
      false_and] at hs
    obtain ⟨rfl, hs⟩ := hs
    rw [valid_namespaceNode] at ha hb
    obtain rfl := ih ha.1 hb.1 hd hs
    rw [Option.some.inj (ha.2.symm.trans hb.2)]

end Node

/-- The documents of a run: each has an identity of its own, and either all of them put their nodes
in order among documents or none does. -/
structure Forest where
  documents : List Document
  identified : ∀ d ∈ documents, ∀ e ∈ documents, d.id = e.id → d = e
  uniform : ∀ d ∈ documents, ∀ e ∈ documents, d.structural = e.structural

/-- A document of an element with two children. -/
def Document.pair : Document :=
  let leaf := Tree.element (.unqualified "e") none [] [] []
  ⟨0, false, .document none [] [.element (.unqualified "e") none [] [] [leaf, leaf]]⟩

namespace Forest

/-- The forest of one document. -/
def single (d : Document) : Forest := ⟨[d], by simp, by simp⟩

/-- A node that one of the documents has. -/
def Holds (F : Forest) (n : Node) : Prop := n.document ∈ F.documents ∧ n.Valid

/-- A list of nodes of the documents. -/
def HoldsAll (F : Forest) (ns : List Node) : Prop := ∀ n ∈ ns, F.Holds n

variable {F : Forest} {a b c : Node}

theorem Holds.eq_of_order (ha : F.Holds a) (hb : F.Holds b) (h : a.order b = .eq) : a = b := by
  simp only [Node.order, Ordering.then_eq_eq, Std.LawfulEqCmp.compare_eq_iff_eq] at h
  have hd := F.identified _ ha.1 _ hb.1 h.1
  exact ha.2.eq_of_steps hb.2 hd (List.reverse_injective h.2)

theorem Holds.order_eq_iff (ha : F.Holds a) (hb : F.Holds b) : a.order b = .eq ↔ a = b :=
  ⟨ha.eq_of_order hb, fun h => h ▸ Node.order_self a⟩

theorem Holds.order?_eq_iff (ha : F.Holds a) (hb : F.Holds b) :
    a.order? b = some .eq ↔ a = b := by
  rw [Node.order?_eq_some, ha.order_eq_iff hb]
  exact ⟨fun h => h.2, fun h => ⟨h ▸ .refl a, h⟩⟩

theorem Holds.same_iff (ha : F.Holds a) (hb : F.Holds b) : a.same b = true ↔ a = b := by
  simp only [Node.same, Bool.and_eq_true, beq_iff_eq]
  constructor
  · rintro ⟨hid, hs⟩
    exact ha.2.eq_of_steps hb.2 (F.identified _ ha.1 _ hb.1 hid) hs
  · rintro rfl
    exact ⟨rfl, rfl⟩

theorem Holds.comparable_symm (ha : F.Holds a) (hb : F.Holds b) (h : a.Comparable b) :
    b.Comparable a := by
  rcases h with h | h
  · exact .inl h.symm
  · exact .inr (F.uniform _ ha.1 _ hb.1 ▸ h)

theorem Holds.comparable_trans (ha : F.Holds a) (hb : F.Holds b) (h : a.Comparable b)
    (h' : b.Comparable c) : a.Comparable c := by
  rcases h with h | h
  · rcases h' with h' | h'
    · exact .inl (h.trans h')
    · exact .inr (F.uniform _ ha.1 _ hb.1 ▸ h')
  · exact .inr h

theorem Holds.before_trans (ha : F.Holds a) (hb : F.Holds b) (h : a.Before b)
    (h' : b.Before c) : a.Before c := by
  rw [Node.before_iff] at h h' ⊢
  exact ⟨ha.comparable_trans hb h.1 h'.1, Std.TransCmp.lt_trans h.2 h'.2⟩

/-- Two comparable nodes are equal, or one precedes the other. -/
theorem Holds.before_or (ha : F.Holds a) (hb : F.Holds b) (h : a.Comparable b) :
    a.Before b ∨ a = b ∨ b.Before a := by
  rcases ho : a.order b with _ | _ | _
  · exact .inl (Node.before_iff.mpr ⟨h, ho⟩)
  · exact .inr (.inl (ha.eq_of_order hb ho))
  · exact .inr (.inr (Node.before_iff.mpr
      ⟨ha.comparable_symm hb h, Node.order_lt_iff_gt.mpr ho⟩))

theorem HoldsAll.of_subset {ns ms : List Node} (h : F.HoldsAll ns) (hs : ms ⊆ ns) :
    F.HoldsAll ms :=
  fun n hn => h n (hs hn)

@[simp] theorem holdsAll_nil : F.HoldsAll [] := by simp [HoldsAll]

@[simp] theorem holdsAll_cons {n : Node} {ns : List Node} :
    F.HoldsAll (n :: ns) ↔ F.Holds n ∧ F.HoldsAll ns := by simp [HoldsAll]

@[simp] theorem holdsAll_append {ns ms : List Node} :
    F.HoldsAll (ns ++ ms) ↔ F.HoldsAll ns ∧ F.HoldsAll ms := by
  simp only [HoldsAll, List.mem_append]
  exact ⟨fun h => ⟨fun n hn => h n (.inl hn), fun n hn => h n (.inr hn)⟩,
    fun h n hn => hn.elim (h.1 n) (h.2 n)⟩

/-- A list of nodes of the documents has a handle on a node just if the node is in it. -/
theorem HoldsAll.any_same_iff {a : Node} (h : F.HoldsAll ns) (ha : F.Holds a) :
    ns.any a.same = true ↔ a ∈ ns := by
  rw [List.any_eq_true]
  constructor
  · rintro ⟨n, hn, hs⟩
    exact (ha.same_iff (h n hn)).mp hs ▸ hn
  · exact fun hmem => ⟨a, hmem, (ha.same_iff ha).mpr rfl⟩

end Forest

end PathLanguage
