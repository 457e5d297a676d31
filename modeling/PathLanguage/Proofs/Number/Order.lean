/- Numbers that are no NaN are in a linear order, in which the least and the greatest of a list
stand for all of them. -/
import Mathlib.Data.Prod.Lex
import PathLanguage.Proofs.Number.Whole

namespace PathLanguage

namespace Number

/-- The place of a number among the others that are no NaN; both zeros share theirs. -/
def rank : Number → ℤ ×ₗ ℤ
  | .nan => toLex (0, 0)
  | .infinite negative => toLex (if negative then -1 else 1, 0)
  | .finite negative ticks _ => toLex (0, signedTicks negative ticks)

variable {a b : Number}

theorem rank_infinite_lt_finite {s t : Bool} {n : Nat} (g : OnGrid n) :
    (Number.infinite s).rank < (Number.finite t n g).rank ↔ s = true := by
  cases s <;> simp [rank, Prod.Lex.toLex_lt_toLex]

theorem rank_finite_lt_infinite {s t : Bool} {n : Nat} (g : OnGrid n) :
    (Number.finite t n g).rank < (Number.infinite s).rank ↔ s = false := by
  cases s <;> simp [rank, Prod.Lex.toLex_lt_toLex]

theorem rank_finite_lt_finite {s t : Bool} {m n : Nat} (g : OnGrid m) (g' : OnGrid n) :
    (Number.finite s m g).rank < (Number.finite t n g').rank ↔
      signedTicks s m < signedTicks t n := by
  simp [rank, Prod.Lex.toLex_lt_toLex]

/-- One number is less than another if its place is before that of the other. -/
theorem lt_iff : a.lt b = true ↔ a.isNaN = false ∧ b.isNaN = false ∧ a.rank < b.rank := by
  cases a with
  | nan => simp [lt, cmp?, isNaN]
  | infinite s =>
    cases b with
    | nan => simp [lt, cmp?, isNaN]
    | infinite t => cases s <;> cases t <;> simp [lt, cmp?, isNaN, rank, Prod.Lex.toLex_lt_toLex]
    | finite t n g =>
      rw [rank_infinite_lt_finite]
      cases s <;> simp [lt, cmp?, isNaN]
  | finite s m g =>
    cases b with
    | nan => simp [lt, cmp?, isNaN]
    | infinite t =>
      rw [rank_finite_lt_infinite]
      cases t <;> simp [lt, cmp?, isNaN]
    | finite t n g' =>
      rw [rank_finite_lt_finite]
      simp [lt, cmp?, isNaN, compare_lt_iff_lt]

theorem le_iff : a.le b = true ↔ a.isNaN = false ∧ b.isNaN = false ∧ a.rank ≤ b.rank := by
  cases ha : a.isNaN with
  | true =>
    obtain rfl := eq_nan ha
    exact iff_of_false nofun fun h => nomatch h.1
  | false =>
    cases hb : b.isNaN with
    | true =>
      obtain rfl := eq_nan hb
      exact iff_of_false (by cases a <;> exact nofun) fun h => nomatch h.2.1
    | false =>
      have h := lt_eq_not_le hb ha
      rw [Bool.eq_not_iff, ne_eq, Bool.eq_iff_iff, lt_iff] at h
      simp only [ha, hb, true_and, ← not_lt] at h ⊢
      tauto

/-- What is in every list of numbers that can be compared: one before or after which all come. -/
structure Extreme (R : Number → Number → Prop) (ns : List Number) (x : Number) : Prop where
  mem : x ∈ ns
  proper : x.isNaN = false
  bound : ∀ n ∈ ns, n.isNaN = false → R x n

/-- Keeping the first or the last of two numbers all along a list finds the extreme one. -/
theorem extreme_foldl {R : Number → Number → Prop} {f : Number → Number → Number}
    (hr : ∀ a, R a a) (ht : ∀ {a b c}, R a b → R b c → R a c)
    (hf : ∀ a b, a.isNaN = false → b.isNaN = false →
      (f a b = a ∨ f a b = b) ∧ R (f a b) a ∧ R (f a b) b) {ns : List Number} {x : Number}
    (hns : ∀ n ∈ x :: ns, n.isNaN = false) : Extreme R (x :: ns) (ns.foldl f x) := by
  induction ns generalizing x with
  | nil =>
    refine ⟨List.mem_singleton_self x, hns x List.mem_cons_self, fun n hn _ => ?_⟩
    obtain rfl := List.mem_singleton.mp hn
    exact hr n
  | cons y ns ih =>
    have hx := hns x (by simp)
    have hy := hns y (by simp)
    obtain ⟨hmem, hbx, hby⟩ := hf x y hx hy
    have hfx : (f x y).isNaN = false := by
      rcases hmem with h | h
      · rw [h, hx]
      · rw [h, hy]
    have h := ih (x := f x y) fun n hn => by
      rcases List.mem_cons.mp hn with rfl | hn
      · exact hfx
      · exact hns n (by simp [hn])
    refine ⟨?_, h.proper, fun n hn hp => ?_⟩
    · have := h.mem
      simp only [List.foldl_cons, List.mem_cons] at this ⊢
      rcases this with this | this
      · rw [this]
        rcases hmem with h | h
        · exact .inl h
        · exact .inr (.inl h)
      · exact .inr (.inr this)
    · have hfirst := h.bound (f x y) List.mem_cons_self hfx
      rcases List.mem_cons.mp hn with rfl | hn
      · exact ht hfirst hbx
      · rcases List.mem_cons.mp hn with rfl | hn
        · exact ht hfirst hby
        · exact h.bound n (List.mem_cons_of_mem _ hn) hp

end Number

end PathLanguage
