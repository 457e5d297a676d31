/- Comparison of lists of strings is existential: some string of one stands in the relation to some
string of the other. -/
import PathLanguage.Proofs.Number.Order

namespace PathLanguage

open Number (rank Extreme)

namespace Number

/-- The smaller of two numbers is one of them and at most the other. -/
theorem min_extreme {a b : Number} (ha : a.isNaN = false) (_ : b.isNaN = false) :
    (a.min b = a ∨ a.min b = b) ∧ (a.min b).rank ≤ a.rank ∧ (a.min b).rank ≤ b.rank := by
  simp only [min, ha, Bool.false_eq_true, if_false]
  split
  · next h => exact ⟨.inr rfl, (lt_iff.mp h).2.2.le, le_rfl⟩
  · next h => exact ⟨.inl rfl, le_rfl, not_lt.mp fun h' => h (lt_iff.mpr ⟨‹_›, ha, h'⟩)⟩

theorem max_extreme {a b : Number} (ha : a.isNaN = false) (hb : b.isNaN = false) :
    (a.max b = a ∨ a.max b = b) ∧ a.rank ≤ (a.max b).rank ∧ b.rank ≤ (a.max b).rank := by
  simp only [max, ha, Bool.false_eq_true, if_false]
  split
  · next h => exact ⟨.inr rfl, (lt_iff.mp h).2.2.le, le_rfl⟩
  · next h => exact ⟨.inl rfl, le_rfl, not_lt.mp fun h' => h (lt_iff.mpr ⟨ha, hb, h'⟩)⟩

end Number

namespace Comparison

variable {ns ms : List Number}

theorem extremes?_none (h : extremes? ns = none) : ∀ n ∈ ns, n.isNaN = true := by
  unfold extremes? at h
  split at h
  · next hf => simpa using List.filter_eq_nil_iff.mp hf
  · cases h

theorem extremes?_some {least greatest : Number} (h : extremes? ns = some (least, greatest)) :
    Extreme (fun a b => a.rank ≤ b.rank) ns least ∧
      Extreme (fun a b => b.rank ≤ a.rank) ns greatest := by
  unfold extremes? at h
  split at h
  · cases h
  · next n rest hf =>
    cases h
    have hmem : ∀ x, x ∈ n :: rest ↔ x ∈ ns ∧ x.isNaN = false := by
      intro x
      rw [← hf]
      simp
    have hproper : ∀ x ∈ n :: rest, x.isNaN = false := fun x hx => ((hmem x).mp hx).2
    have hmin := Number.extreme_foldl (R := fun a b => a.rank ≤ b.rank) (fun _ => le_rfl)
      le_trans (fun a b => Number.min_extreme) hproper
    have hmax := Number.extreme_foldl (R := fun a b => b.rank ≤ a.rank) (fun _ => le_rfl)
      (fun h h' => h'.trans h) (fun a b => Number.max_extreme) hproper
    constructor
    · exact ⟨((hmem _).mp hmin.mem).1, hmin.proper,
        fun x hx hp => hmin.bound x ((hmem x).mpr ⟨hx, hp⟩) hp⟩
    · exact ⟨((hmem _).mp hmax.mem).1, hmax.proper,
        fun x hx hp => hmax.bound x ((hmem x).mpr ⟨hx, hp⟩) hp⟩

/-- A relation of numbers that no NaN stands in, and that only grows when the left number falls or
the right one rises. -/
structure Monotone (rel : Number → Number → Bool) : Prop where
  proper : ∀ {a b}, rel a b = true → a.isNaN = false ∧ b.isNaN = false
  mono : ∀ {a b c d}, c.isNaN = false → d.isNaN = false → c.rank ≤ a.rank → b.rank ≤ d.rank →
    rel a b = true → rel c d = true

theorem monotone_lt : Monotone Number.lt where
  proper h := ⟨(Number.lt_iff.mp h).1, (Number.lt_iff.mp h).2.1⟩
  mono hc hd hca hbd h :=
    Number.lt_iff.mpr ⟨hc, hd, hca.trans_lt ((Number.lt_iff.mp h).2.2.trans_le hbd)⟩

theorem monotone_le : Monotone Number.le where
  proper h := ⟨(Number.le_iff.mp h).1, (Number.le_iff.mp h).2.1⟩
  mono hc hd hca hbd h :=
    Number.le_iff.mpr ⟨hc, hd, hca.trans ((Number.le_iff.mp h).2.2.trans hbd)⟩

/-- The least number of one list and the greatest of another stand for all of them. -/
theorem Monotone.extremes?_iff {rel : Number → Number → Bool} (hr : Monotone rel) :
    (∃ l r, extremes? ns = some l ∧ extremes? ms = some r ∧ rel l.1 r.2 = true) ↔
      ∃ a ∈ ns, ∃ b ∈ ms, rel a b = true := by
  constructor
  · rintro ⟨l, r, hn, hm, h⟩
    exact ⟨l.1, (extremes?_some hn).1.mem, r.2, (extremes?_some hm).2.mem, h⟩
  · rintro ⟨a, ha, b, hb, h⟩
    obtain ⟨hpa, hpb⟩ := hr.proper h
    cases hn : extremes? ns with
    | none => simp [extremes?_none hn a ha] at hpa
    | some l =>
      cases hm : extremes? ms with
      | none => simp [extremes?_none hm b hb] at hpb
      | some r =>
        have hleast := (extremes?_some hn).1
        have hgreatest := (extremes?_some hm).2
        exact ⟨l, r, rfl, rfl, hr.mono hleast.proper hgreatest.proper (hleast.bound a ha hpa)
          (hgreatest.bound b hb hpb) h⟩

/-- An order of lists asks for the extremes on the sides that face each other. -/
theorem stringLists_ordered (op : Comparison) (left right : List String) :
    op.isEquality = false → (op.stringLists left right = true ↔
      ∃ l r, extremes? (left.map .ofText) = some l ∧ extremes? (right.map .ofText) = some r ∧
        (match op with
          | .less => l.1.lt r.2
          | .atMost => l.1.le r.2
          | .greater => r.1.lt l.2
          | _ => r.1.le l.2) = true) := by
  intro hop
  match left, right with
  | [], _ => exact iff_of_false nofun (by simp [extremes?])
  | _ :: _, [] => exact iff_of_false nofun (by simp [extremes?])
  | a :: left, b :: right =>
    simp only [stringLists]
    generalize extremes? ((a :: left).map .ofText) = l, extremes? ((b :: right).map .ofText) = r
    cases op with
    | equal | unequal => cases hop
    | less | atMost | greater | atLeast => rcases l with _ | l <;> rcases r with _ | r <;> simp

theorem stringLists_unequal (left right : List String) :
    stringLists .unequal left right = true ↔ ∃ a ∈ left, ∃ b ∈ right, a ≠ b := by
  match left, right with
  | [], _ => exact iff_of_false nofun (by simp)
  | _ :: _, [] => exact iff_of_false nofun (by simp)
  | first :: left, other :: right =>
    simp only [stringLists, List.any_eq_true, List.mem_append, bne_iff_ne, ne_eq]
    constructor
    · rintro ⟨x, hx | hx, hne⟩
      · -- Two strings of the left list differ, so one of them differs from any right one.
        by_cases h : x = other
        · refine ⟨first, List.mem_cons_self, other, List.mem_cons_self, fun he => ?_⟩
          exact hne (h.trans he.symm)
        · exact ⟨x, hx, other, List.mem_cons_self, h⟩
      · exact ⟨first, List.mem_cons_self, x, hx, fun he => hne he.symm⟩
    · rintro ⟨a, ha, b, hb, hne⟩
      by_cases h : a = first
      · exact ⟨b, .inr hb, fun he => hne (h.trans he.symm)⟩
      · exact ⟨a, .inl ha, h⟩

/-- A list of strings stands in a relation to another if some string of it does to some string of
the other. -/
theorem stringLists_iff (op : Comparison) (left right : List String) :
    op.stringLists left right = true ↔ ∃ a ∈ left, ∃ b ∈ right, op.strings a b = true := by
  have hmap : ∀ {rel : Number → Number → Bool}, Monotone rel → ∀ as bs : List String,
      (∃ l r, extremes? (as.map .ofText) = some l ∧ extremes? (bs.map .ofText) = some r ∧
        rel l.1 r.2 = true) ↔ ∃ a ∈ as, ∃ b ∈ bs, rel (.ofText a) (.ofText b) = true := by
    intro rel hr as bs
    rw [hr.extremes?_iff]
    simp
  have hturn : ∀ {rel : Number → Number → Bool}, Monotone rel →
      ((∃ l r, extremes? (left.map .ofText) = some l ∧ extremes? (right.map .ofText) = some r ∧
        rel r.1 l.2 = true) ↔
        ∃ a ∈ left, ∃ b ∈ right, rel (.ofText b) (.ofText a) = true) := by
    intro rel hr
    have h := hmap hr right left
    constructor
    · rintro ⟨l, r, hl, hr, hrel⟩
      obtain ⟨b, hb, a, ha, hab⟩ := h.mp ⟨r, l, hr, hl, hrel⟩
      exact ⟨a, ha, b, hb, hab⟩
    · rintro ⟨a, ha, b, hb, hab⟩
      obtain ⟨r, l, hr, hl, hrel⟩ := h.mpr ⟨b, hb, a, ha, hab⟩
      exact ⟨l, r, hl, hr, hrel⟩
  cases op with
  | equal => cases left <;> cases right <;> simp [stringLists, strings]
  | unequal => simpa [strings] using stringLists_unequal left right
  | less => exact (stringLists_ordered _ left right rfl).trans (hmap monotone_lt left right)
  | atMost => exact (stringLists_ordered _ left right rfl).trans (hmap monotone_le left right)
  | greater => exact (stringLists_ordered _ left right rfl).trans (hturn monotone_lt)
  | atLeast => exact (stringLists_ordered _ left right rfl).trans (hturn monotone_le)

end Comparison

end PathLanguage
