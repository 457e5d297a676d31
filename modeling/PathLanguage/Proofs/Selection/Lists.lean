/- What predicates, distinct texts and set operations make of lists in document order. -/
import PathLanguage.Proofs.Selection.Plain

namespace PathLanguage

open Node (docOrder InOrder)

/-- Every evaluation that might be asked for has an answer. -/
structure Oracle.Total (J : Oracle) : Prop where
  truth : ∀ p c n position size, ∃ b, J.truth p c n position size b
  text : ∀ e c n, ∃ k, J.text e c n k

namespace Oracle

variable {J : Oracle} {p : Expr} {c : Context} {ns ms : List Node}

theorem Picks.sublist {size position : Nat} (h : J.Picks p c size position ns ms) :
    ms.Sublist ns := by
  induction h with
  | nil => exact .slnil
  | pick _ _ ih => exact ih.cons_cons _
  | pass _ _ ih => exact ih.cons _

theorem Narrows.sublist {ps : List Expr} (h : J.Narrows c ps ns ms) : ms.Sublist ns := by
  induction h with
  | nil => exact .refl _
  | cons hp _ ih => exact ih.trans hp.sublist

theorem Total.picks (h : J.Total) (p : Expr) (c : Context) (size position : Nat)
    (ns : List Node) : ∃ ms, J.Picks p c size position ns ms := by
  induction ns generalizing position with
  | nil => exact ⟨[], .nil position⟩
  | cons n ns ih =>
    obtain ⟨ms, hms⟩ := ih (position + 1)
    obtain ⟨b, hb⟩ := h.truth p c n (position + 1) size
    cases b with
    | true => exact ⟨n :: ms, .pick hb hms⟩
    | false => exact ⟨ms, .pass hb hms⟩

theorem Total.narrows (h : J.Total) (c : Context) (ps : List Expr) (ns : List Node) :
    ∃ ms, J.Narrows c ps ns ms := by
  induction ps generalizing ns with
  | nil => exact ⟨ns, .nil ns⟩
  | cons p ps ih =>
    obtain ⟨ms, hms⟩ := h.picks p c ns.length 0 ns
    obtain ⟨ks, hks⟩ := ih ms
    exact ⟨ks, .cons hms hks⟩

theorem Total.textBy (h : J.Total) (key : Option (Expr × Context)) (n : Node) :
    ∃ k, J.textBy key n k := by
  cases key with
  | none => exact ⟨n.stringValue, rfl⟩
  | some p => exact h.text p.1 p.2 n

/-- What one predicate says in one oracle it says in another. -/
theorem Picks.imp {J' : Oracle} {size position : Nat} (h : J.Picks p c size position ns ms)
    (hJ : ∀ n k b, 0 < k → J.truth p c n k size b → J'.truth p c n k size b) :
    J'.Picks p c size position ns ms := by
  induction h with
  | nil position => exact .nil position
  | pick ht _ ih => exact .pick (hJ _ _ _ (by omega) ht) ih
  | pass ht _ ih => exact .pass (hJ _ _ _ (by omega) ht) ih

theorem Picks.truth_of_mem {size position : Nat} (h : J.Picks p c size position ns ms) {n : Node}
    (hn : n ∈ ms) : ∃ k, J.truth p c n k size true := by
  induction h with
  | nil => cases hn
  | pick ht _ ih =>
    rcases List.mem_cons.mp hn with rfl | hn
    · exact ⟨_, ht⟩
    · exact ih hn
  | pass _ _ ih => exact ih hn

theorem Picks.truth_of_not_mem {size position : Nat} (h : J.Picks p c size position ns ms)
    {n : Node} (hn : n ∈ ns) (hm : n ∉ ms) : ∃ k, J.truth p c n k size false := by
  induction h with
  | nil => cases hn
  | pick _ _ ih =>
    rw [List.mem_cons, not_or] at hm
    exact ih ((List.mem_cons.mp hn).resolve_left hm.1) hm.2
  | pass ht _ ih =>
    rcases List.mem_cons.mp hn with rfl | hn
    · exact ⟨_, ht⟩
    · exact ih hn hm

/-- A predicate that says one thing of each node leaves one list. -/
theorem Picks.unique {size position : Nat} (h : J.Picks p c size position ns ms)
    (hJ : ∀ n k b b', J.truth p c n k size b → J.truth p c n k size b' → b = b')
    {ks : List Node} (h' : J.Picks p c size position ns ks) : ms = ks := by
  induction h generalizing ks with
  | nil =>
    cases h'
    rfl
  | pick ht _ ih =>
    cases h' with
    | pick _ h' => rw [ih h']
    | pass ht' _ => cases hJ _ _ _ _ ht ht'
  | pass ht _ ih =>
    cases h' with
    | pick ht' _ => cases hJ _ _ _ _ ht ht'
    | pass _ h' => exact ih h'

theorem Narrows.unique {ps : List Expr} (h : J.Narrows c ps ns ms)
    (hJ : ∀ p ∈ ps, ∀ n k size b b', J.truth p c n k size b → J.truth p c n k size b' → b = b')
    {ks : List Node} (h' : J.Narrows c ps ns ks) : ms = ks := by
  induction h generalizing ks with
  | nil =>
    cases h'
    rfl
  | cons hp _ ih =>
    obtain ⟨hJ, hJs⟩ := List.forall_mem_cons.mp hJ
    cases h' with
    | cons hp' h' =>
      obtain rfl := hp.unique (fun n k => hJ n k _) hp'
      exact ih hJs h'

/-- A predicate to which positions do not matter may be applied before or after sorting. -/
theorem Picks.sort {F : Forest} {size size' position position' : Nat}
    (h : J.Picks p c size position ns ms) (hns : F.HoldsAll ns)
    (hJ : ∀ n k k' b, J.truth p c n k size b → J.truth p c n k' size' b) :
    J.Picks p c size' position' (docOrder ns) (docOrder ms) := by
  have hms : F.HoldsAll ms := hns.of_subset h.sublist.subset
  have hpick : ∀ (ks : List Node) (i : Nat), (∀ n ∈ ks, n ∈ ns) →
      ∃ rs, J.Picks p c size' i ks rs ∧ ∀ n, n ∈ rs ↔ n ∈ ks ∧ n ∈ ms := by
    intro ks
    induction ks with
    | nil => exact fun i _ => ⟨[], .nil i, by simp⟩
    | cons n ks ih =>
      intro i hk
      obtain ⟨rs, hrs, hmem⟩ := ih (i + 1) fun m hm => hk m (List.mem_cons_of_mem _ hm)
      by_cases hn : n ∈ ms
      · obtain ⟨k, ht⟩ := h.truth_of_mem hn
        refine ⟨n :: rs, .pick (hJ n k _ _ ht) hrs, fun m => ?_⟩
        by_cases he : m = n
        · simp [he, hn]
        · simp [he, hmem]
      · obtain ⟨k, ht⟩ := h.truth_of_not_mem (hk n List.mem_cons_self) hn
        refine ⟨rs, .pass (hJ n k _ _ ht) hrs, fun m => ?_⟩
        by_cases he : m = n
        · simp [he, hn, hmem]
        · simp [he, hmem]
  obtain ⟨rs, hrs, hmem⟩ := hpick (docOrder ns) position' fun n => hns.mem_docOrder.mp
  have hr : docOrder ms = rs := by
    refine hms.docOrder_eq ((Node.docOrder_inOrder ns).sublist hrs.sublist) fun n => ?_
    rw [hmem, hns.mem_docOrder]
    exact ⟨fun h => h.2, fun h' => ⟨h.sublist.subset h', h'⟩⟩
  exact hr ▸ hrs

end Oracle

namespace Firsts

variable {text : Node → String → Prop} {seen : List String} {ns ms : List Node}

theorem sublist (h : Firsts text seen ns ms) : ms.Sublist ns := by
  induction h with
  | nil => exact .slnil
  | fresh _ _ _ ih => exact ih.cons_cons _
  | known _ _ _ ih => exact ih.cons _

theorem total (h : ∀ n, ∃ k, text n k) (seen : List String) (ns : List Node) :
    ∃ ms, Firsts text seen ns ms := by
  induction ns generalizing seen with
  | nil => exact ⟨[], .nil seen⟩
  | cons n ns ih =>
    obtain ⟨k, hk⟩ := h n
    by_cases hs : k ∈ seen
    · obtain ⟨ms, hms⟩ := ih seen
      exact ⟨ms, .known hk hs hms⟩
    · obtain ⟨ms, hms⟩ := ih (k :: seen)
      exact ⟨n :: ms, .fresh hk hs hms⟩

theorem imp {text' : Node → String → Prop} (h : Firsts text seen ns ms)
    (ht : ∀ n k, text n k → text' n k) : Firsts text' seen ns ms := by
  induction h with
  | nil seen => exact .nil seen
  | fresh hk hs _ ih => exact .fresh (ht _ _ hk) hs ih
  | known hk hs _ ih => exact .known (ht _ _ hk) hs ih

theorem unique (h : Firsts text seen ns ms) (ht : ∀ n k k', text n k → text n k' → k = k')
    {ks : List Node} (h' : Firsts text seen ns ks) : ms = ks := by
  induction h generalizing ks with
  | nil =>
    cases h'
    rfl
  | fresh hn hnew _ ih =>
    cases h' with
    | fresh hn' _ h' =>
      obtain rfl := ht _ _ _ hn hn'
      rw [ih h']
    | known hn' hold _ => exact absurd (ht _ _ _ hn hn' ▸ hold) hnew
  | known hn hold _ ih =>
    cases h' with
    | fresh hn' hnew _ => exact absurd (ht _ _ _ hn hn' ▸ hold) hnew
    | known _ _ h' => exact ih h'

end Firsts

namespace SetOperator

variable {F : Forest} {a b n : Node} {ls rs : List Node} (op : SetOperator)

theorem any_same_eq_false (ha : F.Holds a) (hr : F.HoldsAll rs) (h : a ∉ rs) :
    rs.any a.same = false := by
  rwa [← Bool.not_eq_true, hr.any_same_iff ha]

theorem combine_nil_left (hr : InOrder rs) :
    op.combine [] rs = if op = .union then rs else [] := by
  cases op with
  | union => simpa [combine] using hr.docOrder_eq
  | intersect => rfl
  | except => rfl

theorem combine_nil_right (hl : InOrder ls) :
    op.combine ls [] = if op = .intersect then [] else ls := by
  cases op with
  | union => simpa [combine] using hl.docOrder_eq
  | intersect => simp [combine]
  | except => simp [combine]

/-- The filter that a set operation applies to the left list does not change when a node that it
lacks is left out on the right. -/
theorem filter_any_cons (hb : F.Holds b) (hl : F.HoldsAll ls) (h : b ∉ ls) (rs : List Node)
    (f : Bool → Bool) :
    (ls.filter fun n => f ((b :: rs).any n.same)) = ls.filter fun n => f (rs.any n.same) := by
  refine List.filter_congr fun n hn => ?_
  have hs : n.same b = false := by
    rw [← Bool.not_eq_true, (hl n hn).same_iff hb]
    rintro rfl
    exact h hn
  rw [List.any_cons, hs, Bool.false_or]

/-- A node before all others comes first. -/
theorem docOrder_of_first (hl : F.HoldsAll ls) (h : ∀ m ∈ ls, a.order m = .lt) :
    docOrder (a :: ls) = a :: docOrder ls :=
  Node.place_of_first fun m hm => h m (hl.mem_docOrder.mp hm)

theorem not_mem_of_lt (h : ∀ m ∈ ls, a.order m = .lt) : a ∉ ls := by
  intro ha
  have := h a ha
  simp at this

section heads

variable (hl : F.HoldsAll (a :: ls)) (hr : F.HoldsAll (b :: rs))
  (ol : InOrder (a :: ls)) (or : InOrder (b :: rs))
include hl hr ol or

/-- A left head that comes first. -/
theorem combine_of_lt (h : a.order b = .lt) : op.combine (a :: ls) (b :: rs) =
    (if op = .intersect then [] else [a]) ++ op.combine ls (b :: rs) := by
  rw [InOrder, List.pairwise_cons] at ol or
  have hfirst : ∀ m ∈ b :: rs, a.order m = .lt := by
    intro m hm
    rcases List.mem_cons.mp hm with rfl | hm
    · exact h
    · exact Std.TransCmp.lt_trans h (or.1 m hm)
  have hany := any_same_eq_false (hl a List.mem_cons_self) hr (not_mem_of_lt hfirst)
  cases op with
  | union =>
    have hall := Forest.holdsAll_append.mpr ⟨(Forest.holdsAll_cons.mp hl).2, hr⟩
    exact docOrder_of_first hall fun m hm =>
      (List.mem_append.mp hm).elim (ol.1 m) (hfirst m)
  | intersect => simp only [combine, List.filter_cons, hany]; rfl
  | except => simp only [combine, List.filter_cons, hany]; rfl

/-- A right head that comes first. -/
theorem combine_of_gt (h : b.order a = .lt) : op.combine (a :: ls) (b :: rs) =
    (if op = .union then [b] else []) ++ op.combine (a :: ls) rs := by
  rw [InOrder, List.pairwise_cons] at ol or
  have hfirst : ∀ m ∈ a :: ls, b.order m = .lt := by
    intro m hm
    rcases List.mem_cons.mp hm with rfl | hm
    · exact h
    · exact Std.TransCmp.lt_trans h (ol.1 m hm)
  have hb := hr b List.mem_cons_self
  have hnot := not_mem_of_lt hfirst
  cases op with
  | union =>
    have hall := Forest.holdsAll_append.mpr ⟨hl, (Forest.holdsAll_cons.mp hr).2⟩
    have hmove : docOrder (a :: ls ++ b :: rs) = docOrder (b :: (a :: ls ++ rs)) := by
      refine (Forest.holdsAll_cons.mpr ⟨hb, hall⟩).docOrder_congr fun n => ?_
      simp only [List.mem_append, List.mem_cons]
      tauto
    exact hmove.trans (docOrder_of_first hall fun m hm =>
      (List.mem_append.mp hm).elim (hfirst m) (or.1 m))
  | intersect => exact filter_any_cons hb hl hnot rs id
  | except => exact filter_any_cons hb hl hnot rs not

/-- The same head on both sides. -/
theorem combine_of_eq (h : a = b) : op.combine (a :: ls) (b :: rs) =
    (if op = .except then [] else [a]) ++ op.combine ls rs := by
  subst h
  rw [InOrder, List.pairwise_cons] at ol or
  have ha := hl a List.mem_cons_self
  have hsame : a.same a = true := (ha.same_iff ha).mpr rfl
  have hrest := (Forest.holdsAll_cons.mp hl).2
  have hnot := not_mem_of_lt ol.1
  cases op with
  | union =>
    have hall := Forest.holdsAll_append.mpr ⟨hrest, (Forest.holdsAll_cons.mp hr).2⟩
    have hmove : docOrder (a :: ls ++ a :: rs) = docOrder (a :: (ls ++ rs)) := by
      refine (Forest.holdsAll_cons.mpr ⟨ha, hall⟩).docOrder_congr fun n => ?_
      simp only [List.mem_append, List.mem_cons]
      tauto
    exact hmove.trans (docOrder_of_first hall fun m hm =>
      (List.mem_append.mp hm).elim (ol.1 m) (or.1 m))
  | intersect =>
    have := filter_any_cons ha hrest hnot rs id
    simpa [combine, List.filter_cons, hsame] using this
  | except =>
    have := filter_any_cons ha hrest hnot rs not
    simpa [combine, List.filter_cons, hsame] using this

end heads

theorem combine_inOrder (hl : InOrder ls) : InOrder (op.combine ls rs) := by
  cases op with
  | union => exact Node.docOrder_inOrder _
  | intersect => exact hl.sublist List.filter_sublist
  | except => exact hl.sublist List.filter_sublist

theorem mem_or_of_mem_combine (hl : F.HoldsAll ls) (hr : F.HoldsAll rs) {n : Node}
    (h : n ∈ op.combine ls rs) : n ∈ ls ∨ n ∈ rs := by
  cases op with
  | union => simpa using (Forest.holdsAll_append.mpr ⟨hl, hr⟩).mem_docOrder.mp h
  | intersect => exact .inl (List.mem_of_mem_filter h)
  | except => exact .inl (List.mem_of_mem_filter h)

theorem mem_combine_union (hl : F.HoldsAll ls) (hr : F.HoldsAll rs) :
    n ∈ combine .union ls rs ↔ n ∈ ls ∨ n ∈ rs := by
  rw [combine, (Forest.holdsAll_append.mpr ⟨hl, hr⟩).mem_docOrder, List.mem_append]

theorem mem_combine_intersect (hl : F.HoldsAll ls) (hr : F.HoldsAll rs) :
    n ∈ combine .intersect ls rs ↔ n ∈ ls ∧ n ∈ rs := by
  rw [combine, List.mem_filter]
  exact and_congr_right fun hn => hr.any_same_iff (hl n hn)

theorem mem_combine_except (hl : F.HoldsAll ls) (hr : F.HoldsAll rs) :
    n ∈ combine .except ls rs ↔ n ∈ ls ∧ n ∉ rs := by
  rw [combine, List.mem_filter]
  refine and_congr_right fun hn => ?_
  rw [Bool.not_eq_true', ← Bool.not_eq_true, hr.any_same_iff (hl n hn)]

end SetOperator

/-- What an expression stands for is in document order, each node once. -/
theorem Oracle.Selects.inOrder {J : Oracle} {g c : Context} {e : Expr} {ns : List Node}
    (h : J.Selects g e c ns) : InOrder ns := by
  have hone (o : Option Node) : InOrder o.toList := by
    cases o with
    | none => exact .nil
    | some n => exact List.pairwise_singleton _ n
  induction h with
  | root | contextNode | currentNode => exact List.pairwise_singleton _ _
  | parentNode | «attribute» | single => exact hone _
  | axis | path | extent | kept => exact Node.docOrder_inOrder _
  | filter _ hp ih => exact ih.sublist hp.sublist
  | set _ _ ihl _ => exact SetOperator.combine_inOrder _ ihl
  | distinct _ hf ih | distinctBy _ hf ih => exact ih.sublist hf.sublist
  | sorted _ ih | lazy _ ih | operand _ _ _ ih => exact ih
  | empty => exact .nil

end PathLanguage
