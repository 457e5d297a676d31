/- Nodes are told apart by their identifiers: the place of a node among the parts of its parent,
behind the identifier of the parent. -/
import PathLanguage.Proofs.Tree.Traversal

namespace PathLanguage

theorem toList_numeral (i : Nat) : (toString i).toList = Nat.toDigits 10 i := by
  rw [Nat.toString_eq_repr, Nat.toList_repr]

theorem toDigits_injective : Function.Injective (Nat.toDigits 10) :=
  Function.LeftInverse.injective fun _ => Nat.ofDigitChars_toDigits (by decide) (by decide)

theorem underscore_not_mem_numeral (i : Nat) : '_' ∉ (toString i).toList := by
  intro h
  rw [toList_numeral] at h
  exact absurd (Nat.isDigit_of_mem_toDigits (by decide) (by decide) h) (by decide)

/-- Splitting joined numerals at the separators gives them back. -/
theorem splitOn_numerals {is : List Nat} (h : is ≠ []) :
    ("_".intercalate (is.map toString)).toList.splitOn '_' =
      is.map (Nat.toDigits 10) := by
  rw [← funext toList_numeral, String.toList_intercalate, List.map_map]
  refine List.splitOn_intercalate '_' (fun l hl => ?_) (mt List.map_eq_nil_iff.mp h)
  obtain ⟨i, -, rfl⟩ := List.mem_map.mp hl
  exact underscore_not_mem_numeral i

/-- Numbers are told apart by their numerals, joined with a separator. -/
theorem intercalate_numerals_injective :
    Function.Injective fun is : List Nat => "_".intercalate (is.map toString) := by
  have hnil : ∀ {is : List Nat}, "_".intercalate (is.map toString) = "" → is = [] := by
    intro is h
    by_contra hne
    have hsplit := splitOn_numerals hne
    rw [h] at hsplit
    cases is with
    | nil => exact hne rfl
    | cons i is =>
      exact Nat.toDigits_ne_nil (List.cons.inj hsplit).1.symm
  intro is js h
  by_cases his : is = []
  · subst his
    exact (hnil h.symm).symm
  · by_cases hjs : js = []
    · subst hjs
      exact hnil h
    · have hsplit : is.map (Nat.toDigits 10) = js.map (Nat.toDigits 10) := by
        rw [← splitOn_numerals his, ← splitOn_numerals hjs]
        exact congrArg (fun s : String => s.toList.splitOn '_') h
      exact List.map_injective_iff.mpr toDigits_injective hsplit

namespace Node

variable {p n a b : Node}

theorem partIndexes_namespaceNodes (p : Node) (i : Nat) (bs : List NamespaceBinding) :
    (p.namespaceNodes i bs).map partIndexes =
      (List.range' i (p.namespaceNodes i bs).length).map (p.partIndexes ++ [·]) := by
  induction bs generalizing i with
  | nil => rfl
  | cons b bs ih => exact congrArg _ (ih (i + 1))

theorem partIndexes_attributeNodes (p : Node) (i : Nat) (as : List Attribute) :
    (p.attributeNodes i as).map partIndexes =
      (List.range' (p.namespaces.length + i) (p.attributeNodes i as).length).map
        (p.partIndexes ++ [·]) := by
  induction as generalizing i with
  | nil => rfl
  | cons a as ih => exact congrArg _ (ih (i + 1))

theorem partIndexes_childNodes (p : Node) (i : Nat) (ts : List Tree) :
    (p.childNodes i ts).map partIndexes =
      (List.range' (p.namespaces.length + p.attributes.length + i)
        (p.childNodes i ts).length).map (p.partIndexes ++ [·]) := by
  induction ts generalizing i with
  | nil => rfl
  | cons t ts ih => exact congrArg _ (ih (i + 1))

/-- The parts of a node are numbered through. -/
theorem partIndexes_parts (p : Node) :
    p.parts.map partIndexes = (List.range p.parts.length).map (p.partIndexes ++ [·]) := by
  have hns := partIndexes_namespaceNodes p 0 ((p.tree?.map Tree.namespaces).getD [])
  have has := partIndexes_attributeNodes p 0 ((p.tree?.map Tree.attributes).getD [])
  have hcs := partIndexes_childNodes p 0 ((p.tree?.map Tree.children).getD [])
  rw [← namespaces] at hns
  rw [← attributes, Nat.add_zero] at has
  rw [← children, Nat.add_zero] at hcs
  rw [parts, List.map_append, List.map_append, hns, has, hcs, ← List.map_append,
    ← List.map_append, List.range_eq_range', List.length_append, List.length_append,
    ← List.range'_append_1, ← List.range'_append_1, Nat.zero_add, Nat.zero_add]

/-- A part of a node is numbered by the place at which a search among the parts finds it. -/
theorem partIndexes_of_mem_parts (hp : p.Valid) (hn : n ∈ p.parts) :
    ∃ i, p.parts.findIdx? (·.same n) = some i ∧ p.parts[i]? = some n ∧
      n.partIndexes = p.partIndexes ++ [i] := by
  have hF : (Forest.single p.document).Holds p := Valid.holds_single ⟨hp, rfl⟩
  obtain ⟨i, hfound, hi⟩ := hF.parts.findIdx?_same hn
  refine ⟨i, hfound, hi, ?_⟩
  obtain ⟨hlt, -⟩ := List.getElem?_eq_some_iff.mp hi
  have hmap : (p.parts.map partIndexes)[i]? =
      ((List.range p.parts.length).map (p.partIndexes ++ [·]))[i]? :=
    congrArg (·[i]?) (partIndexes_parts p)
  rw [List.getElem?_map, List.getElem?_map, hi, List.getElem?_range hlt] at hmap
  exact Option.some.inj hmap

/-- The numbers on the path to a node tell it apart from all nodes of its document. -/
theorem Valid.partIndexes_inj (ha : a.Valid) (hb : b.Valid) (hd : a.document = b.document)
    (h : a.partIndexes = b.partIndexes) : a = b := by
  induction ha using Valid.part_induction generalizing b with
  | root d =>
    induction hb using Valid.part_induction with
    | root e => exact congrArg Node.root hd
    | part hq hb hbq _ =>
      obtain ⟨j, -, -, hj⟩ := partIndexes_of_mem_parts hq hbq
      exact absurd (hj.symm.trans h.symm) (List.append_ne_nil_of_right_ne_nil _ nofun)
  | @part p a hp ha hap ih =>
    obtain ⟨i, -, hi, hai⟩ := partIndexes_of_mem_parts hp hap
    induction hb using Valid.part_induction with
    | root e => exact absurd (hai.symm.trans h) (List.append_ne_nil_of_right_ne_nil _ nofun)
    | @part q b hq hb hbq _ =>
      obtain ⟨j, -, hj, hbj⟩ := partIndexes_of_mem_parts hq hbq
      rw [hai, hbj] at h
      obtain ⟨hpq, hij⟩ := List.append_inj' h rfl
      obtain rfl : p = q := by
        refine ih hq ?_ hpq
        rw [← document_of_parent (parent_of_mem_parts hap), hd,
          document_of_parent (parent_of_mem_parts hbq)]
      cases hij
      exact Option.some.inj (hi.symm.trans hj)

theorem Valid.placeId_inj (ha : a.Valid) (hb : b.Valid) (hd : a.document = b.document) :
    a.placeId = b.placeId ↔ a = b := by
  constructor
  · intro h
    exact ha.partIndexes_inj hb hd
      (intercalate_numerals_injective ((String.append_right_inj _).mp h))
  · exact congrArg placeId

/-- Two nodes of a structural document have the same identifier just if they are one node. -/
theorem generateId_eq_iff {d : Document} (hd : d.structural = true) {a b : Node}
    (ha : a ∈ (root d).everything) (hb : b ∈ (root d).everything) :
    a.generateId = b.generateId ↔ a.same b = true := by
  obtain ⟨hva, hda⟩ := mem_everything_root.mp ha
  obtain ⟨hvb, hdb⟩ := mem_everything_root.mp hb
  rw [generateId, generateId, hda, hdb, if_pos hd, if_pos hd,
    (Valid.holds_single ⟨hva, hda⟩).same_iff (Valid.holds_single ⟨hvb, hdb⟩)]
  exact hva.placeId_inj hvb (hda.trans hdb.symm)

/-- The tenth child of an element is told from the second child of its first child. -/
theorem generateId_eq_iff_deep :
    let leaf : Tree := .text "t"
    let first : Tree := .element (.unqualified "f") none [] [] [leaf, leaf]
    let element : Tree := .element (.unqualified "e") none [⟨"p", "u"⟩] [⟨.unqualified "a", "v"⟩]
      (first :: List.replicate 9 leaf)
    let document : Document := ⟨0, true, .document none [] [element]⟩
    let parent : Node := .child (root document) 0 element
    document.structural = true ∧
      Node.child parent 9 leaf ∈ (root document).everything ∧
      Node.child (.child parent 0 first) 1 leaf ∈ (root document).everything ∧
      (Node.child parent 9 leaf).generateId ≠
        (Node.child (.child parent 0 first) 1 leaf).generateId := by
  intro leaf first element document parent
  have ha : Node.child parent 9 leaf ∈ (root document).everything :=
    List.mem_of_getElem? (rfl : (root document).everything[15]? = some _)
  have hb : Node.child (.child parent 0 first) 1 leaf ∈ (root document).everything :=
    List.mem_of_getElem? (rfl : (root document).everything[6]? = some _)
  exact ⟨rfl, ha, hb, mt (generateId_eq_iff rfl ha hb).mp (by decide)⟩

end Node

end PathLanguage
