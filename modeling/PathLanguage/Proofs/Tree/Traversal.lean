/- Document order told from the ancestors of two nodes is the order in which a traversal of the
document meets them. -/
import PathLanguage.Proofs.Tree.Reach

namespace PathLanguage

namespace Node

theorem everything_eq (n : Node) :
    n.everything = n :: (n.namespaces ++ n.attributes ++ n.children.flatMap everything) :=
  walk_eq attaches_all n

/-- In a list in document order, nodes compare as their positions do. -/
theorem InOrder.order_eq {ns : List Node} (h : InOrder ns) {i j : Nat} {a b : Node}
    (ha : ns[i]? = some a) (hb : ns[j]? = some b) : a.order b = compare i j := by
  obtain ⟨hi, rfl⟩ := List.getElem?_eq_some_iff.mp ha
  obtain ⟨hj, rfl⟩ := List.getElem?_eq_some_iff.mp hb
  have hlt := List.pairwise_iff_getElem.mp h
  rcases Nat.lt_trichotomy i j with hij | rfl | hij
  · rw [hlt i j hi hj hij, Nat.compare_eq_lt.mpr hij]
  · simp
  · rw [order_lt_iff_gt.mp (hlt j i hj hi hij), Nat.compare_eq_gt.mpr hij]

theorem parent_of_mem_parts {p n : Node} (h : n ∈ p.parts) : n.parent = some p := by
  simp only [parts, List.mem_append] at h
  rcases h with (h | h) | h
  · exact parent_of_mem_namespaces h
  · exact parent_of_mem_attributes h
  · exact parent_of_mem_children h

/-- Valid nodes are reached from a root through parts. -/
theorem Valid.part_induction {motive : (n : Node) → n.Valid → Prop}
    (root : ∀ d, motive (.root d) (.root d))
    (part : ∀ {p n : Node} (hp : p.Valid) (h : n.Valid), n ∈ p.parts → motive p hp → motive n h)
    {n : Node} (h : n.Valid) : motive n h := by
  induction h with
  | root d => exact root d
  | child hp hn ih => exact part hp (.child hp hn) (by simp [parts, hn]) ih
  | «attribute» hp hn ih => exact part hp (.attribute hp hn) (by simp [parts, hn]) ih
  | namespaceNode hp hn ih => exact part hp (.namespaceNode hp hn) (by simp [parts, hn]) ih

theorem document_of_parent {p n : Node} (h : n.parent = some p) : n.document = p.document :=
  (within_of_parent h).steps.1.symm

theorem top_of_parent {p n : Node} (h : n.parent = some p) : n.top = p.top :=
  congrArg Node.root (document_of_parent h)

theorem parts_ascending (p : Node) : Ascending p.parts := by
  refine List.pairwise_append.mpr ⟨attaches_all.ascending p, children_ascending p, ?_⟩
  exact fun a ha c hc => attaches_all.before_child ha hc (.inl rfl)

theorem parts_of_isAttached {n : Node} (h : n.isAttached = true) : n.parts = [] := by
  cases n with
  | root d => cases h
  | child p i t => cases h
  | «attribute» p i a => rfl
  | namespaceNode p i b => rfl

theorem isAttached_of_mem {n m : Node} (h : m ∈ n.namespaces ++ n.attributes) :
    m.isAttached = true := by
  rcases List.mem_append.mp h with h | h
  · obtain ⟨i, b, -, rfl⟩ := mem_namespaces.mp h
    rfl
  · obtain ⟨i, a, -, rfl⟩ := mem_attributes.mp h
    rfl

theorem mem_everything_of_parts {n m c : Node} (h : m ∈ n.everything) (hc : c ∈ m.parts) :
    c ∈ n.everything := by
  induction n using down_induction with
  | step n ih =>
    rw [everything_eq, List.mem_cons, List.mem_append, List.mem_flatMap] at h ⊢
    right
    rcases h with rfl | h | ⟨d, hd, h⟩
    · rcases List.mem_append.mp hc with hc | hc
      · exact .inl hc
      · exact .inr ⟨c, hc, by simp [everything_eq c]⟩
    · simp [parts_of_isAttached (isAttached_of_mem h)] at hc
    · exact .inr ⟨d, hd, ih d hd h⟩

/-- The traversal of a document meets the nodes that the document has. -/
theorem mem_everything_root {d : Document} {n : Node} :
    n ∈ (root d).everything ↔ n.Valid ∧ n.document = d := by
  constructor
  · intro h
    have hr : (Forest.single d).Holds (root d) := ⟨by simp [Forest.single, document], .root d⟩
    obtain ⟨hd, hv⟩ := hr.walk attaches_all n h
    exact ⟨hv, List.mem_singleton.mp hd⟩
  · rintro ⟨hv, rfl⟩
    induction hv using Valid.part_induction with
    | root d => simp [document, everything_eq (root d)]
    | part hp _ hn ih =>
      rw [document_of_parent (parent_of_mem_parts hn)]
      exact mem_everything_of_parts ih hn

/-- A path down from a node to another, each of its nodes a part of the one before. -/
inductive Descends : Node → List Node → Node → Prop
  | here (n : Node) : Descends n [] n
  | part {p m n : Node} {ms : List Node} : m ∈ p.parts → Descends m ms n → Descends p (m :: ms) n

namespace Descends

variable {p m n : Node} {ms : List Node}

theorem snoc (h : Descends p ms m) (hn : n ∈ m.parts) : Descends p (ms ++ [n]) n := by
  induction h with
  | here m => exact .part hn (.here n)
  | part hm _ ih => exact .part hm (ih hn)

theorem within (h : Descends p ms n) : Within p n := by
  induction h with
  | here n => exact .inl rfl
  | part hm _ ih => exact (within_of_parent (parent_of_mem_parts hm)).trans ih

theorem before (hm : m ∈ p.parts) (h : Descends m ms n) : p.order n = .lt := by
  have hp := mem_ancestors_of_parent (parent_of_mem_parts hm)
  have hn : p ∈ n.ancestors := h.within.elim (fun he => he ▸ hp) (ancestors_trans hp)
  exact (before_iff.mp (before_of_mem_ancestors hn)).2

end Descends

theorem lineage_of_parent {p n : Node} (h : n.parent = some p) : n.lineage = p.lineage ++ [n] := by
  simp [lineage, ancestors_of_parent h]

/-- The path to a valid node starts at the root of its document and leads down to the node. -/
theorem Valid.descends {n : Node} (h : n.Valid) :
    ∃ ms, n.lineage = n.top :: ms ∧ Descends n.top ms n := by
  induction h using Valid.part_induction with
  | root d => exact ⟨[], rfl, .here _⟩
  | @part p n hp _ hn ih =>
    obtain ⟨ms, hl, hd⟩ := ih
    have hnp := parent_of_mem_parts hn
    have ht := top_of_parent hnp
    exact ⟨ms ++ [n], by rw [lineage_of_parent hnp, hl, ht, List.cons_append], ht ▸ hd.snoc hn⟩

/-- The path to any node starts at the root of its document. -/
theorem head?_lineage (n : Node) : n.lineage.head? = some n.top := by
  have step : ∀ {p n : Node}, n.parent = some p → p.lineage.head? = some p.top →
      n.lineage.head? = some n.top := by
    intro p n h hp
    rw [lineage_of_parent h, List.head?_append, hp, top_of_parent h, Option.some_or]
  induction n with
  | root d => rfl
  | child p i t ih => exact step rfl ih
  | «attribute» p i a ih => exact step rfl ih
  | namespaceNode p i b ih => exact step rfl ih

end Node

namespace Forest

open Node

variable {F : Forest}

theorem Holds.parts {p : Node} (h : F.Holds p) : F.HoldsAll p.parts :=
  holdsAll_append.mpr ⟨holdsAll_append.mpr ⟨h.namespaces, h.attributes⟩, h.children⟩

/-- A node of a list stands at the first place where the list has a handle on it. -/
theorem HoldsAll.findIdx?_same {ns : List Node} (h : F.HoldsAll ns) {n : Node} (hn : n ∈ ns) :
    ∃ i, ns.findIdx? (·.same n) = some i ∧ ns[i]? = some n := by
  have hsome : (ns.findIdx? (·.same n)).isSome := by
    rw [List.findIdx?_isSome, List.any_eq_true]
    exact ⟨n, hn, ((h n hn).same_iff (h n hn)).mpr rfl⟩
  obtain ⟨i, hi⟩ := Option.isSome_iff_exists.mp hsome
  obtain ⟨hlt, hsame, -⟩ := List.findIdx?_eq_some_iff_getElem.mp hi
  refine ⟨i, hi, ?_⟩
  rw [List.getElem?_eq_getElem hlt, ((h _ (List.getElem_mem hlt)).same_iff (h n hn)).mp hsame]

/-- Nodes below different parts of one node compare as the parts do. -/
theorem order_of_parts {p m k a b : Node} (hp : F.Holds p) (hm : m ∈ p.parts) (hk : k ∈ p.parts)
    (hne : m ≠ k) (ha : Within m a) (hb : Within k b) : a.order b = m.order k := by
  have hmF := hp.parts m hm
  have hkF := hp.parts k hk
  have hs := separate_of_parent (parent_of_mem_parts hm) (parent_of_mem_parts hk)
  rcases ho : m.order k with _ | _ | _
  · exact order_of_within hmF hkF ho hs.1 ha hb
  · exact absurd (hmF.eq_of_order hkF ho) hne
  · exact order_lt_iff_gt.mp (order_of_within hkF hmF (order_lt_iff_gt.mpr ho) hs.2 hb ha)

/-- Two paths that share their beginning up to a node put their ends in document order. -/
theorem compareLineages_eq {p a b : Node} {as bs : List Node} (hp : F.Holds p)
    (ha : Descends p as a) (hb : Descends p bs b) :
    compareLineages (some p) as bs = .ok (a.order b) := by
  induction ha generalizing b bs with
  | here a =>
    cases hb with
    | here => simp [compareLineages]
    | @part _ k _ bs hk hb =>
      have hc : compare 0 (k :: bs).length = .lt := Nat.compare_eq_lt.mpr (Nat.succ_pos _)
      rw [compareLineages, List.length_nil, hc, hb.before hk]
      simp
  | @part p m a as hm ha ih =>
    cases hb with
    | here b =>
      have hc : compare (m :: as).length 0 = .gt := Nat.compare_eq_gt.mpr (Nat.succ_pos _)
      rw [compareLineages, List.length_nil, hc, order_lt_iff_gt.mp (ha.before hm)]
      simp
    | @part _ k b bs hk hb =>
      have hmF := hp.parts m hm
      have hkF := hp.parts k hk
      rw [compareLineages]
      by_cases hmk : m = k
      · subst hmk
        rw [if_pos ((hmF.same_iff hmF).mpr rfl)]
        exact ih hmF hb
      · obtain ⟨i, hi, hgi⟩ := hp.parts.findIdx?_same hm
        obtain ⟨j, hj, hgj⟩ := hp.parts.findIdx?_same hk
        rw [if_neg (mt (hmF.same_iff hkF).mp hmk), hi, hj,
          order_of_parts hp hm hk hmk ha.within hb.within,
          (parts_ascending p).inOrder.order_eq hgi hgj]

/-- For nodes of one tree the order read off the ancestors is document order. -/
theorem Holds.compareByAncestry_eq {a b : Node} (ha : F.Holds a) (hb : F.Holds b)
    (h : a.document.id = b.document.id) : a.compareByAncestry b = .ok (a.order b) := by
  rw [compareByAncestry]
  split
  · next hs => rw [(ha.same_iff hb).mp hs, order_self]
  · have hd : a.document = b.document := F.identified _ ha.1 _ hb.1 h
    have ht : a.top = b.top := congrArg Node.root hd
    obtain ⟨as, hla, hda⟩ := ha.2.descends
    obtain ⟨bs, hlb, hdb⟩ := hb.2.descends
    rw [hla, hlb, compareLineages, if_pos ((ha.top.same_iff hb.top).mpr ht)]
    exact compareLineages_eq ha.top hda (ht ▸ hdb)

end Forest

namespace Node

/-- Nodes of different trees have no order by their ancestors. -/
theorem compareByAncestry_of_id_ne {a b : Node} (h : a.document.id ≠ b.document.id) :
    a.compareByAncestry b = .error .unordered := by
  obtain ⟨as, hla⟩ := List.head?_eq_some_iff.mp (head?_lineage a)
  obtain ⟨bs, hlb⟩ := List.head?_eq_some_iff.mp (head?_lineage b)
  have hs : a.same b = false := by simp [same, h]
  have ht : a.top.same b.top = false := by simp [same, Node.top, document, h]
  simp [compareByAncestry, hs, hla, hlb, compareLineages, ht]

theorem Valid.holds_single {d : Document} {n : Node} (h : n.Valid ∧ n.document = d) :
    (Forest.single d).Holds n :=
  ⟨List.mem_singleton.mpr h.2, h.1⟩

/-- In one document the order by ancestors is document order. -/
theorem Valid.compareByAncestry_eq {d : Document} {a b : Node} (ha : a.Valid ∧ a.document = d)
    (hb : b.Valid ∧ b.document = d) : a.compareByAncestry b = .ok (a.order b) :=
  (holds_single ha).compareByAncestry_eq (holds_single hb)
    (congrArg Document.id (ha.2.trans hb.2.symm))

/-- Nodes of one document that compare as equal are one node. -/
theorem Valid.compareByAncestry_eq_iff {d : Document} {a b : Node} (ha : a.Valid ∧ a.document = d)
    (hb : b.Valid ∧ b.document = d) : a.compareByAncestry b = .ok .eq ↔ a = b := by
  rw [compareByAncestry_eq ha hb, Except.ok.injEq, (holds_single ha).order_eq_iff (holds_single hb)]

/-- The order by ancestors puts the nodes of a document in one row. -/
theorem compareByAncestry_isStrictTotalOrder (d : Document) :
    IsStrictTotalOrder {n : Node // n.Valid ∧ n.document = d}
      (fun a b => a.1.compareByAncestry b.1 = .ok .lt) where
  trichotomous := by
    rintro ⟨a, ha⟩ ⟨b, hb⟩ hab hba
    rw [Valid.compareByAncestry_eq ha hb] at hab
    rw [Valid.compareByAncestry_eq hb ha] at hba
    refine Subtype.ext ((Valid.compareByAncestry_eq_iff ha hb).mp ?_)
    rw [Valid.compareByAncestry_eq ha hb]
    rcases ho : a.order b with _ | _ | _
    · exact absurd (congrArg _ ho) hab
    · rfl
    · exact absurd (congrArg _ (order_lt_iff_gt.mpr ho)) hba
  irrefl := by
    rintro ⟨a, ha⟩ h
    simp [Valid.compareByAncestry_eq ha ha] at h
  trans := by
    rintro ⟨a, ha⟩ ⟨b, hb⟩ ⟨c, hc⟩ hab hbc
    rw [Valid.compareByAncestry_eq ha hb] at hab
    rw [Valid.compareByAncestry_eq hb hc] at hbc
    rw [Valid.compareByAncestry_eq ha hc,
      Std.TransCmp.lt_trans (Except.ok.inj hab) (Except.ok.inj hbc)]

/-- Document order is the order in which the traversal of a document meets its nodes: a node, its
namespace nodes, its attributes, then the subtrees of its children. Nodes of different trees have
none. -/
theorem compareByAncestry_is_preorder :
    (∀ n : Node, n.everything =
      n :: (n.namespaces ++ n.attributes ++ n.children.flatMap everything)) ∧
    (∀ d : Document, (root d).everything.Nodup ∧
      (∀ n : Node, n ∈ (root d).everything ↔ n.Valid ∧ n.document = d) ∧
      (∀ (i j : Nat) (a b : Node), (root d).everything[i]? = some a →
        (root d).everything[j]? = some b →
        a.compareByAncestry b = .ok (compare i j) ∧ a.order? b = some (compare i j)) ∧
      IsStrictTotalOrder {n : Node // n.Valid ∧ n.document = d}
        (fun a b => a.1.compareByAncestry b.1 = .ok .lt) ∧
      ∀ a b : {n : Node // n.Valid ∧ n.document = d},
        a.1.compareByAncestry b.1 = .ok .eq ↔ a = b) ∧
    ∀ a b : Node, a.document.id ≠ b.document.id → a.compareByAncestry b = .error .unordered := by
  refine ⟨everything_eq, fun d => ?_, fun a b => compareByAncestry_of_id_ne⟩
  have hasc := (walk_ascending attaches_all (root d)).inOrder
  refine ⟨hasc.nodup, fun n => mem_everything_root, fun i j a b ha hb => ?_,
    compareByAncestry_isStrictTotalOrder d, fun a b =>
      (Valid.compareByAncestry_eq_iff a.2 b.2).trans Subtype.ext_iff.symm⟩
  have hma := mem_everything_root.mp (List.mem_of_getElem? ha)
  have hmb := mem_everything_root.mp (List.mem_of_getElem? hb)
  have ho : a.order b = compare i j := hasc.order_eq ha hb
  refine ⟨by rw [Valid.compareByAncestry_eq hma hmb, ho], order?_eq_some.mpr ⟨.inl ?_, ho⟩⟩
  exact congrArg Document.id (hma.2.trans hmb.2.symm)

/-- The attribute of an element comes after its namespace node and before its child. -/
theorem compareByAncestry_is_preorder_of_parts :
    let element : Tree := .element (.unqualified "e") none [⟨"p", "u"⟩] [⟨.unqualified "a", "v"⟩]
      [.text "t"]
    let document : Document := ⟨0, false, .document none [] [element]⟩
    let parent : Node := .child (root document) 0 element
    (Node.attribute parent 0 ⟨.unqualified "a", "v"⟩).compareByAncestry
        (.namespaceNode parent 0 ⟨"p", "u"⟩) = .ok .gt ∧
      (Node.attribute parent 0 ⟨.unqualified "a", "v"⟩).compareByAncestry
        (.child parent 0 (.text "t")) = .ok .lt := by
  intro element document parent
  have h := (compareByAncestry_is_preorder.2.1 document).2.2.1
  exact ⟨(h 3 2 _ _ rfl rfl).1, (h 3 4 _ _ rfl rfl).1⟩

end Node

end PathLanguage
