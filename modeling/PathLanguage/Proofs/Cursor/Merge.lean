/- Merges: read to the end they deliver the union, the intersection or the difference of what their
operands supply, in document order. -/
import Mathlib.Data.Finset.Card
import PathLanguage.Proofs.Cursor.Stream
import PathLanguage.Proofs.Selection.Lists

namespace PathLanguage

open Conditions Node

/-- Lists without repetition of a union and an intersection are as long as the lists of the two sets
together. -/
theorem length_union_add_length_intersect {α : Type} {as bs us is : List α} (ha : as.Nodup)
    (hb : bs.Nodup) (hu : us.Nodup) (hi : is.Nodup) (hus : ∀ x, x ∈ us ↔ x ∈ as ∨ x ∈ bs)
    (his : ∀ x, x ∈ is ↔ x ∈ as ∧ x ∈ bs) : us.length + is.length = as.length + bs.length := by
  classical
  have hunion : us.toFinset = as.toFinset ∪ bs.toFinset := by
    ext x
    simp [hus]
  have hinter : is.toFinset = as.toFinset ∩ bs.toFinset := by
    ext x
    simp [his]
  rw [← List.toFinset_card_of_nodup ha, ← List.toFinset_card_of_nodup hb,
    ← List.toFinset_card_of_nodup hu, ← List.toFinset_card_of_nodup hi, hunion, hinter]
  exact Finset.card_union_add_card_inter _ _

namespace Cursor

variable {K : Conditions} {F : Forest} {op : SetOperator} {ls rs ns : List Node} {n : Node}
  {left right : Cursor} {lh rh : Option Node}

/-- A merge of which some nodes are still to come on each side, the first of them read already. -/
def Merging (K : Conditions) (op : SetOperator) (ls rs : List Node) (q : Pull Unit) : Prop :=
  ∃ left lh right rh, q = ⟨.ok (), .merge op left lh right rh⟩ ∧
    Begins K ls ⟨.ok lh, left⟩ ∧ Begins K rs ⟨.ok rh, right⟩

theorem Begins.next (h : Begins K (n :: ns) ⟨.ok lh, left⟩) :
    K.Gives (fun E => E.next left) fun p =>
      ∃ o, p.outcome = .ok o ∧ Begins K ns ⟨.ok o, p.rest⟩ :=
  Gives.imp (supplies_iff.mp h.2) fun _ hp => hp.outcome

theorem merging_passLeft (op : SetOperator) (hl : Begins K (n :: ls) ⟨.ok lh, left⟩)
    (hr : Begins K rs ⟨.ok rh, right⟩) :
    K.Gives (fun E => passLeft E op left lh right rh) (Merging K op ls rs) := by
  refine Gives.bind hl.next fun p hp => ?_
  obtain ⟨h, ho, hb⟩ := hp
  rw [ho]
  exact Gives.pure ⟨_, _, _, _, rfl, hb, hr⟩

theorem merging_passRight (op : SetOperator) (hl : Begins K ls ⟨.ok lh, left⟩)
    (hr : Begins K (n :: rs) ⟨.ok rh, right⟩) :
    K.Gives (fun E => passRight E op left lh right rh) (Merging K op ls rs) := by
  refine Gives.bind hr.next fun p hp => ?_
  obtain ⟨h, ho, hb⟩ := hp
  rw [ho]
  exact Gives.pure ⟨_, _, _, _, rfl, hl, hb⟩

theorem merging_passBoth {m : Node} (op : SetOperator) (leftFirst : Bool)
    (hl : Begins K (n :: ls) ⟨.ok lh, left⟩)
    (hr : Begins K (m :: rs) ⟨.ok rh, right⟩) :
    K.Gives (fun E => passBoth E leftFirst op left lh right rh) (Merging K op ls rs) := by
  cases leftFirst with
  | true =>
    refine Gives.bind (merging_passLeft op hl hr) fun q hq => ?_
    obtain ⟨_, _, _, _, rfl, hl, hr⟩ := hq
    exact merging_passRight op hl hr
  | false =>
    refine Gives.bind (merging_passRight op hl hr) fun q hq => ?_
    obtain ⟨_, _, _, _, rfl, hl, hr⟩ := hq
    exact merging_passLeft op hl hr

/-- The node whose place was passed is delivered, and then what comes from the merge. -/
theorem begins_deliver {k : Nat} {pass : Engine → StateM Session (Pull Unit)}
    (hp : K.Gives pass (Merging K op ls rs))
    (hs : ∀ q, Merging K op ls rs q → Supplies (K.deeper k) ns q.rest) :
    (K.deeper k).Gives (fun E => do return deliver n (← pass E))
      (Begins (K.deeper k) (n :: ns)) := by
  refine Gives.bind (hp.deeper k) fun q hq => Gives.pure ⟨?_, hs q hq⟩
  obtain ⟨_, _, _, _, rfl, -, -⟩ := hq
  rfl

/-- Where nothing is delivered the next node of the merge is. -/
theorem begins_goOn {k : Nat} {pass : Engine → StateM Session (Pull Unit)}
    (hp : K.Gives pass (Merging K op ls rs))
    (hs : ∀ q, Merging K op ls rs q → Supplies (K.deeper k) ns q.rest) :
    (K.deeper k).Gives (fun E => do goOn E (← pass E)) (Begins (K.deeper k) ns) := by
  refine Gives.bind (hp.deeper k) fun q hq => ?_
  have hq' := hs q hq
  obtain ⟨_, _, _, _, rfl, -, -⟩ := hq
  exact supplies_iff.mp hq'

/-- One reading of a merge whose sides are in order gives the next node of the combination. -/
theorem begins_merge {k : Nat} (hl : F.HoldsAll ls) (hr : F.HoldsAll rs)
    (hc : ∀ a ∈ ls, ∀ b ∈ rs, a.Comparable b) (ol : InOrder ls) (or : InOrder rs)
    (bl : Begins K ls ⟨.ok lh, left⟩) (br : Begins K rs ⟨.ok rh, right⟩)
    (hrest : ∀ {ls' rs' : List Node}, ls'.Sublist ls → rs'.Sublist rs →
      ls'.length + rs'.length < ls.length + rs.length → ∀ q, Merging K op ls' rs' q →
        Supplies (K.deeper k) (op.combine ls' rs') q.rest) :
    (K.deeper k).Gives (fun E => Cursor.next E (.merge op left lh right rh))
      (Begins (K.deeper k) (op.combine ls rs)) := by
  show (K.deeper k).Gives (fun E => nextMerged E op left lh right rh) _
  match ls, rs with
  | [], [] =>
    obtain rfl : lh = none := Except.ok.inj bl
    obtain rfl : rh = none := Except.ok.inj br
    rw [SetOperator.combine_nil_left op or, ite_self]
    exact Gives.pure rfl
  | a :: ls, [] =>
    obtain rfl : lh = some a := Except.ok.inj bl.1
    obtain rfl : rh = none := Except.ok.inj br
    rw [SetOperator.combine_nil_right op ol]
    have hpass := merging_passLeft op bl br
    have hs := hrest (List.sublist_cons_self a ls) (.refl []) (by simp)
    rw [SetOperator.combine_nil_right op ol.of_cons] at hs
    cases op with
    | intersect => exact Gives.pure rfl
    | union => exact begins_deliver hpass hs
    | except => exact begins_deliver hpass hs
  | [], b :: rs =>
    obtain rfl : lh = none := Except.ok.inj bl
    obtain rfl : rh = some b := Except.ok.inj br.1
    rw [SetOperator.combine_nil_left op or]
    have hpass := merging_passRight op bl br
    have hs := hrest (.refl []) (List.sublist_cons_self b rs) (by simp)
    rw [SetOperator.combine_nil_left op or.of_cons] at hs
    cases op with
    | union => exact begins_deliver hpass hs
    | intersect => exact Gives.pure rfl
    | except => exact Gives.pure rfl
  | a :: ls, b :: rs =>
    obtain rfl : lh = some a := Except.ok.inj bl.1
    obtain rfl : rh = some b := Except.ok.inj br.1
    have hab : a.order? b = some (a.order b) :=
      order?_eq_some.mpr ⟨hc a List.mem_cons_self b List.mem_cons_self, rfl⟩
    -- The smaller head is passed; equal heads are passed together.
    rcases ho : a.order b with _ | _ | _
    · rw [SetOperator.combine_of_lt op hl hr ol or ho]
      have hpass := merging_passLeft op bl br
      have hs := hrest (List.sublist_cons_self a ls) (.refl _) (by simp)
      simp only [nextMerged, hab, ho]
      cases op with
      | union => exact begins_deliver hpass hs
      | intersect => exact begins_goOn hpass hs
      | except => exact begins_deliver hpass hs
    · rw [SetOperator.combine_of_eq op hl hr ol or
        ((hl a List.mem_cons_self).eq_of_order (hr b List.mem_cons_self) ho)]
      have hs := hrest (List.sublist_cons_self a ls) (List.sublist_cons_self b rs) (by simp; omega)
      simp only [nextMerged, hab, ho]
      cases op with
      | union => exact begins_deliver (merging_passBoth _ false bl br) hs
      | intersect => exact begins_deliver (merging_passBoth _ false bl br) hs
      | except => exact begins_goOn (merging_passBoth .except true bl br) hs
    · rw [SetOperator.combine_of_gt op hl hr ol or (order_lt_iff_gt.mpr ho)]
      have hpass := merging_passRight op bl br
      have hs := hrest (.refl _) (List.sublist_cons_self b rs) (by simp)
      simp only [nextMerged, hab, ho]
      cases op with
      | union => exact begins_deliver hpass hs
      | intersect => exact begins_goOn hpass hs
      | except => exact begins_goOn hpass hs

/-- What comes from a merge is the combination of what comes from its sides. -/
theorem supplies_merge (op : SetOperator) (hl : F.HoldsAll ls) (hr : F.HoldsAll rs)
    (hc : ∀ a ∈ ls, ∀ b ∈ rs, a.Comparable b) (ol : InOrder ls) (or : InOrder rs)
    (bl : Begins K ls ⟨.ok lh, left⟩) (br : Begins K rs ⟨.ok rh, right⟩) :
    Supplies (K.deeper (ls.length + rs.length + 1)) (op.combine ls rs)
      (.merge op left lh right rh) := by
  -- Each reading passes a head at least, so the induction is on the nodes to come on both sides.
  induction hk : ls.length + rs.length using Nat.strong_induction_on
    generalizing ls rs left lh right rh with
  | _ k ih =>
  refine supplies_iff.mpr (Gives.imp (Gives.next (begins_merge hl hr hc ol or bl br ?_))
    fun p hp => K.deeper_deeper k 1 ▸ hp.deeper 1)
  rintro ls' rs' hls hrs hlt _ ⟨left, lh, right, rh, rfl, bl, br⟩
  rw [hk] at hlt
  exact (ih _ hlt (hl.of_subset hls.subset) (hr.of_subset hrs.subset)
    (fun a ha b hb => hc a (hls.subset ha) b (hrs.subset hb)) (ol.sublist hls) (or.sublist hrs)
    bl br rfl).atLeast hlt

/-- A cursor that supplies nodes of the documents in the order that its flags promise. -/
structure Operand (K : Conditions) (F : Forest) (ns : List Node) (c : Cursor) : Prop where
  supplies : Supplies K ns c
  holds : F.HoldsAll ns
  sorted : c.flags.sorted = true → Ascending ns
  reverse : c.flags.reverse = true → Ascending ns.reverse

/-- An extent is an operand, whatever the order of its nodes and however often they are repeated. -/
theorem operand_ofExtent (K : Conditions) {e : Extent} (h : e.Honest) (hn : F.HoldsAll e.nodes) :
    Operand (K.deeper 1) F e.nodes (.ofExtent e) :=
  ⟨supplies_listed K _ _ _, hn, h.sorted, h.reverse⟩

/-- An operand is put in document order without a fault, repeated nodes being left out. -/
theorem Operand.sortedCursor (h : Operand K F ns left)
    (hc : ∀ a ∈ ns, ∀ b ∈ ns, a.Comparable b) :
    (K.deeper (ns.length + 1)).Succeeds (fun E => E.sortedCursor left)
      (Supplies (K.deeper (ns.length + 1)) (docOrder ns)) := by
  simp only [Engine.sortedCursor]
  by_cases hs : left.flags.sorted = true
  · simp only [if_pos hs]
    rw [(h.sorted hs).inOrder.docOrder_eq]
    exact Succeeds.pure (h.supplies.deeper _)
  · simp only [if_neg hs]
    refine Succeeds.bind (P := (· = Extent.ofSource ns left.flags.sorted left.flags.reverse)) ?_
      fun e he => ?_
    · refine Succeeds.bind h.supplies.streams.drain fun ms hms => ?_
      rw [hms]
      exact Succeeds.pure rfl
    · subst he
      obtain ⟨e', he, hn⟩ := Extent.sort_succeeds (Extent.ofSource_honest h.sorted h.reverse)
        h.holds hc
      rw [he]
      refine Succeeds.bind (P := (· = e')) (Succeeds.pure rfl) fun e'' he'' => Succeeds.pure ?_
      rw [he'', ofExtent, slice, hn]
      exact (supplies_listed K _ _ _).atLeast (by simp)

/-- A merge is started without a fault, and supplies the combination of its operands. -/
theorem Operand.startMerge (op : SetOperator) (hl : Operand K F ls left) (hr : Operand K F rs right)
    (hc : ∀ a ∈ ls ++ rs, ∀ b ∈ ls ++ rs, a.Comparable b) :
    (K.deeper (ls.length + rs.length + 1)).Succeeds (fun E => startMerge E op left right)
      (Supplies (K.deeper (2 * (ls.length + rs.length + 1)))
        (op.combine (docOrder ls) (docOrder rs))) := by
  have hcl : ∀ a ∈ ls, ∀ b ∈ ls, a.Comparable b := fun a ha b hb =>
    hc a (List.mem_append_left _ ha) b (List.mem_append_left _ hb)
  have hcr : ∀ a ∈ rs, ∀ b ∈ rs, a.Comparable b := fun a ha b hb =>
    hc a (List.mem_append_right _ ha) b (List.mem_append_right _ hb)
  have hclr : ∀ a ∈ docOrder ls, ∀ b ∈ docOrder rs, a.Comparable b := fun a ha b hb =>
    hc a (List.mem_append_left _ (hl.holds.mem_docOrder.mp ha)) b
      (List.mem_append_right _ (hr.holds.mem_docOrder.mp hb))
  have hlen := Nat.add_le_add hl.holds.length_docOrder_le hr.holds.length_docOrder_le
  refine Succeeds.bind ((hl.sortedCursor hcl).atLeast (by omega)) fun left hleft => ?_
  refine Succeeds.bind (hleft.atLeast (by omega)).pull fun ⟨lh, left⟩ hleft => ?_
  refine Succeeds.bind ((hr.sortedCursor hcr).atLeast (by omega)) fun right hright => ?_
  refine Succeeds.bind (hright.atLeast (by omega)).pull fun ⟨rh, right⟩ hright => ?_
  refine Succeeds.pure ?_
  have hmerge := supplies_merge op hl.holds.docOrder hr.holds.docOrder hclr
    (docOrder_inOrder ls) (docOrder_inOrder rs) hleft hright
  rw [Conditions.deeper_deeper] at hmerge
  exact hmerge.atLeast (by omega)

/-- Two operands in any order, with or without repeated nodes, are merged into the union, the
intersection and the difference of what they supply, each in document order and without repetition,
if document order is defined for their nodes. -/
theorem startMerge_delivers (hl : Operand K F ls left) (hr : Operand K F rs right)
    (hc : ∀ a ∈ ls ++ rs, ∀ b ∈ ls ++ rs, a.Comparable b) :
    ∃ merged : SetOperator → List Node,
      (∀ op, (K.deeper (3 * (ls.length + rs.length + 1))).Succeeds
          (fun E => do E.drain (← startMerge E op left right)) (· = merged op) ∧
        Ascending (merged op) ∧ (merged op).Nodup) ∧
      (∀ n, n ∈ merged .union ↔ n ∈ ls ∨ n ∈ rs) ∧
      (∀ n, n ∈ merged .intersect ↔ n ∈ ls ∧ n ∈ rs) ∧
      (∀ n, n ∈ merged .except ↔ n ∈ ls ∧ n ∉ rs) ∧
      (ls.Nodup → rs.Nodup →
        (merged .union).length + (merged .intersect).length = ls.length + rs.length) ∧
      (merged .except).Disjoint rs := by
  have hdl := hl.holds.docOrder
  have hdr := hr.holds.docOrder
  have hin (op : SetOperator) : InOrder (op.combine (docOrder ls) (docOrder rs)) :=
    SetOperator.combine_inOrder op (docOrder_inOrder ls)
  have hmem (op : SetOperator) : op.combine (docOrder ls) (docOrder rs) ⊆ ls ++ rs := by
    intro n hn
    have h := SetOperator.mem_or_of_mem_combine op hdl hdr hn
    rwa [hl.holds.mem_docOrder, hr.holds.mem_docOrder, ← List.mem_append] at h
  have hunion (n : Node) : n ∈ SetOperator.combine .union (docOrder ls) (docOrder rs) ↔
      n ∈ ls ∨ n ∈ rs := by
    rw [SetOperator.mem_combine_union hdl hdr, hl.holds.mem_docOrder, hr.holds.mem_docOrder]
  have hinter (n : Node) : n ∈ SetOperator.combine .intersect (docOrder ls) (docOrder rs) ↔
      n ∈ ls ∧ n ∈ rs := by
    rw [SetOperator.mem_combine_intersect hdl hdr, hl.holds.mem_docOrder, hr.holds.mem_docOrder]
  have hexcept (n : Node) : n ∈ SetOperator.combine .except (docOrder ls) (docOrder rs) ↔
      n ∈ ls ∧ n ∉ rs := by
    rw [SetOperator.mem_combine_except hdl hdr, hl.holds.mem_docOrder, hr.holds.mem_docOrder]
  refine ⟨fun op => op.combine (docOrder ls) (docOrder rs), fun op => ⟨?_, ?_, (hin op).nodup⟩,
    hunion, hinter, hexcept, ?_, ?_⟩
  · have hlen := (List.subperm_of_subset (hin op).nodup (hmem op)).length_le
    rw [List.length_append] at hlen
    refine Succeeds.bind ((hl.startMerge op hr hc).atLeast (by omega)) fun c hs => ?_
    have hdrain := hs.streams.drain
    rw [Conditions.deeper_deeper] at hdrain
    exact hdrain.atLeast (by omega)
  · refine (hin op).imp_of_mem fun ha hb hab => before_iff.mpr ⟨?_, hab⟩
    exact hc _ (hmem op ha) _ (hmem op hb)
  · exact fun hln hrn => length_union_add_length_intersect hln hrn
      (hin .union).nodup (hin .intersect).nodup hunion hinter
  · exact fun n hn hr => ((hexcept n).mp hn).2 hr

/-- The union of two lists in which one node occurs three times. -/
theorem startMerge_delivers_repeated : ∃ a b : Node, a.Before b ∧
    (Conditions.mk .bare (fun _ => True) 16).Succeeds (fun E => do
      E.drain (← startMerge E .union (.ofExtent ⟨[b, a, b], false, false⟩)
        (.ofExtent ⟨[b], false, false⟩))) (· = [a, b]) := by
  let a : Node := .root .pair
  let b : Node := .child a 0 (.element (.unqualified "e") none [] []
    [.element (.unqualified "e") none [] [] [], .element (.unqualified "e") none [] [] []])
  have ha : (Forest.single .pair).Holds a := ⟨List.mem_singleton.mpr rfl, .root _⟩
  have hb : (Forest.single .pair).Holds b :=
    ⟨List.mem_singleton.mpr rfl, valid_child.mpr ⟨.root _, rfl⟩⟩
  have hab : a.Before b := rfl
  have honest (ns : List Node) : (Extent.mk ns false false).Honest := ⟨nofun, nofun⟩
  have hl := operand_ofExtent ⟨.bare, fun _ => True, 0⟩ (honest [b, a, b])
    (show (Forest.single .pair).HoldsAll [b, a, b] by simp [ha, hb])
  have hr := operand_ofExtent ⟨.bare, fun _ => True, 0⟩ (honest [b])
    (show (Forest.single .pair).HoldsAll [b] by simp [hb])
  obtain ⟨merged, hm, hunion, -⟩ := startMerge_delivers hl hr (by simp [Comparable, a, b, document])
  obtain ⟨hdrain, hasc, -⟩ := hm .union
  have he : merged .union = [a, b] := by
    refine hasc.inOrder.eq_of_mem_iff (Ascending.inOrder (List.pairwise_pair.mpr hab)) fun n => ?_
    rw [hunion]
    simp only [List.mem_cons, List.not_mem_nil]
    tauto
  exact ⟨a, b, hab, hdrain.imp fun ms hms => hms.trans he⟩

end Cursor

end PathLanguage
