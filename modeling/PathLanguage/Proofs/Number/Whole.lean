/- Whole numbers: below 2^53 positions are exact, so that a constant number holds just at the
position that it denotes; and how numbers compare with positions, also where arithmetic is
rounded. -/
import PathLanguage.Evaluation.Cursor
import PathLanguage.Number.Arithmetic

namespace PathLanguage

namespace Number

theorem one_shift_pos (u : Nat) : 0 < 1 <<< u := by
  rw [Nat.one_shiftLeft]
  exact Nat.two_pow_pos u

theorem mul_one_shift (n u : Nat) : n * 1 <<< u = n <<< u := by
  rw [Nat.one_shiftLeft, Nat.shiftLeft_eq]

theorem unit_pos : 0 < unit := one_shift_pos 1074

/-- A quotient without remainder is rounded to itself. -/
theorem nearest_shift {num e : Nat} (h : 1 <<< e ∣ num) : nearest num (1 <<< e) <<< e = num := by
  have hr : num % 1 <<< e = 0 := Nat.mod_eq_zero_of_dvd h
  have hpos := one_shift_pos e
  rw [nearest, hr, if_pos (by omega), Nat.shiftLeft_eq, ← Nat.one_shiftLeft, Nat.div_mul_cancel h]

theorem scaled_lt {n u v : Nat} (h : n < 1 <<< v) : n * 1 <<< u < 1 <<< (v + u) := by
  rw [Nat.shiftLeft_add, Nat.shiftLeft_eq (1 <<< v), ← Nat.one_shiftLeft u]
  exact Nat.mul_lt_mul_of_pos_right h (one_shift_pos u)

/-- The last place of a number of at most 53 significant bits divides it. -/
theorem place_dvd {n u : Nat} (h : n < 1 <<< 53) :
    1 <<< ((n * 1 <<< u).log2 - 52) ∣ n * 1 <<< u := by
  have hlog : (n * 1 <<< u).log2 - 52 ≤ u := by
    rcases Nat.eq_zero_or_pos (n * 1 <<< u) with h0 | h0
    · simp [h0]
    · have hlt := scaled_lt (u := u) h
      rw [Nat.one_shiftLeft (53 + u)] at hlt
      have := (Nat.log2_lt (Nat.ne_of_gt h0)).mpr hlt
      omega
  have hdvd := Nat.pow_dvd_pow 2 hlog
  rw [← Nat.one_shiftLeft, ← Nat.one_shiftLeft u] at hdvd
  exact Nat.dvd_mul_left_of_dvd hdvd n

theorem grid_of_lt {n u v : Nat} (h : n < 1 <<< 53) (hv : 53 + u ≤ v) : n * 1 <<< u < 1 <<< v := by
  refine Nat.lt_of_lt_of_le (scaled_lt h) ?_
  rw [Nat.one_shiftLeft, Nat.one_shiftLeft]
  exact Nat.pow_le_pow_right (by omega) hv

/-- Natural numbers below 2^53 are exact. -/
theorem ofNat_eq {n : Nat} (h : n < 1 <<< 53) : ∃ g, ofNat n = .finite false (n * unit) g := by
  have hdvd : 1 <<< ((n * unit / 1).log2 - 52) ∣ n * unit := by
    rw [Nat.div_one]
    exact place_dvd (u := 1074) h
  have hm := nearest_shift hdvd
  have hlt : n * unit < 1 <<< 2098 := grid_of_lt (u := 1074) (v := 2098) h (by omega)
  refine ⟨⟨n, 1074, Nat.le_of_lt h, mul_one_shift n 1074, hlt⟩, ?_⟩
  simp only [ofNat, ofTicks, ofRatio, hm, hlt, dite_true]

theorem eq_finite {negative : Bool} {s t : Nat} {g : OnGrid s} {g' : OnGrid t} (h : 0 < t) :
    (finite negative s g).eq (.finite false t g') = true ↔ negative = false ∧ s = t := by
  simp only [eq, cmp?, signedTicks, beq_iff_eq, Option.some.injEq, Int.compare_eq_eq]
  cases negative with
  | false => simp only [Bool.false_eq_true, if_false, true_and, Int.natCast_inj]
  | true =>
    simp only [if_true, Bool.true_eq_false, Bool.false_eq_true, if_false, false_and, iff_false]
    omega

end Number

namespace Strategy

open Number (unit unit_pos)

theorem eq_mul_iff {t p : Nat} : t = p * unit ↔ t % unit = 0 ∧ t / unit = p := by
  refine ⟨?_, fun ⟨hm, hd⟩ => ?_⟩
  · rintro rfl
    exact ⟨Nat.mul_mod_left p unit, Nat.mul_div_cancel p unit_pos⟩
  · rw [← hd, Nat.div_mul_cancel (Nat.dvd_of_mod_eq_zero hm)]

/-- The position of a finite number is its whole magnitude, up to the open end. -/
theorem position?_eq_some {negative : Bool} {t k : Nat} {g : OnGrid t} :
    position? (.finite negative t g) = some k ↔ negative = false ∧ t % unit = 0 ∧
      0 < t / unit ∧ t / unit ≤ openEnd + 1 ∧ min (t / unit) openEnd = k := by
  have htruncate : Number.truncate? (.finite negative t g) =
      if negative then if t = 0 then some 0 else none else some (t / unit) := by
    cases negative <;> cases t <;> rfl
  simp only [position?, Number.isWhole, htruncate]
  cases negative with
  | true => by_cases ht : t = 0 <;> simp [ht]
  | false =>
    simp only [beq_iff_eq, Bool.false_eq_true, if_false, true_and]
    split
    · simp_all
      omega
    · simp_all

/-- A constant number holds just at the position that it denotes. -/
theorem eq_position {x : Number} {p : Nat} (h0 : 0 < p) (h : p < 1 <<< 53) :
    x.eq (.ofNat p) = true ↔ position? x = some p := by
  obtain ⟨g', heq⟩ := Number.ofNat_eq h
  rw [heq]
  cases x with
  | nan => simp [Number.eq, Number.cmp?, position?, Number.isWhole]
  | infinite b => cases b <;> simp [Number.eq, Number.cmp?, position?, Number.isWhole]
  | finite negative t g =>
    rw [Number.eq_finite (Nat.mul_pos h0 unit_pos), eq_mul_iff, position?_eq_some]
    have hopen : 1 <<< 53 < openEnd := by decide
    have hlarge : min (t / unit) openEnd = p ↔ t / unit = p := by omega
    rw [hlarge]
    exact and_congr_right fun _ => and_congr_right fun _ => by omega

/-- The positions that a filter takes for a constant number are those that the number equals. -/
theorem eq_of_constant {x : Number} {least most p : Nat}
    (hs : ofPredicate (.value (.number x)) = .positions least most) (h0 : 0 < p)
    (h : p < 1 <<< 53) : x.eq (.ofNat p) = (least ≤ p && p ≤ most) := by
  have hiff := eq_position (x := x) h0 h
  rw [Bool.eq_iff_iff, hiff, Bool.and_eq_true, decide_eq_true_eq, decide_eq_true_eq]
  simp only [ofPredicate] at hs
  cases hp : position? x with
  | some k =>
    simp only [hp, positions.injEq] at hs
    rw [Option.some.injEq]
    omega
  | none =>
    simp only [hp, positions.injEq] at hs
    simp
    omega

end Strategy

namespace Number

theorem div_le_nearest (num den : Nat) : num / den ≤ nearest num den := by
  unfold nearest
  simp only
  split
  · exact Nat.le_refl _
  · split <;> omega

/-- Rounding keeps the leading place. -/
theorem leading_le_rounded {n : Nat} (h : n ≠ 0) :
    1 <<< n.log2 ≤ nearest n (1 <<< (n.log2 - 52)) <<< (n.log2 - 52) := by
  have hsplit : 2 ^ n.log2 = 2 ^ (n.log2 - (n.log2 - 52)) * 2 ^ (n.log2 - 52) := by
    rw [← Nat.pow_add]
    congr 1
    omega
  have hq : 2 ^ (n.log2 - (n.log2 - 52)) ≤ n / 1 <<< (n.log2 - 52) := by
    rw [Nat.one_shiftLeft, Nat.le_div_iff_mul_le (Nat.two_pow_pos _), ← hsplit]
    exact Nat.log2_self_le h
  rw [Nat.one_shiftLeft, Nat.shiftLeft_eq, hsplit]
  exact Nat.mul_le_mul_right _ (Nat.le_trans hq (div_le_nearest _ _))

/-- What lies on the grid is not rounded. -/
theorem ofTicks_of_grid (negative : Bool) {t : Nat} (g : OnGrid t) :
    ofTicks negative t = .finite negative t g := by
  have hdvd : 1 <<< (t.log2 - 52) ∣ t := by
    obtain ⟨m, e, hm, rfl, -⟩ := g
    rcases Nat.lt_or_eq_of_le hm with hm | rfl
    · rw [← mul_one_shift m e]
      exact place_dvd hm
    · rw [← Nat.shiftLeft_add, Nat.one_shiftLeft, Nat.one_shiftLeft, Nat.log2_two_pow]
      exact Nat.pow_dvd_pow 2 (by omega)
  have hm := nearest_shift hdvd
  obtain ⟨-, -, -, -, hlt⟩ := id g
  simp only [ofTicks, ofRatio, Nat.div_one, hm, hlt, dite_true]

/-- A product of places below a number is below its leading place. -/
theorem place_le_leading {n u v : Nat} (h : 1 <<< v * 1 <<< u ≤ n) :
    1 <<< v * 1 <<< u ≤ 1 <<< n.log2 := by
  have hpow : 1 <<< v * 1 <<< u = 2 ^ (v + u) := by
    rw [Nat.one_shiftLeft, Nat.one_shiftLeft, Nat.pow_add]
  have hne : n ≠ 0 := by
    have := Nat.two_pow_pos (v + u)
    omega
  rw [hpow] at h ⊢
  rw [Nat.one_shiftLeft]
  exact Nat.pow_le_pow_right (by decide) ((Nat.le_log2 hne).mpr h)

/-- Ticks are rounded to a value of their sign that keeps their leading place, or to an infinity. -/
theorem ofTicks_rounded (negative : Bool) (t : Nat) : ofTicks negative t = .infinite negative ∨
    ∃ r g, (t ≠ 0 → 1 <<< t.log2 ≤ r) ∧ ofTicks negative t = .finite negative r g := by
  unfold ofTicks ofRatio
  extract_lets e m
  split
  · next hlt =>
    refine .inr ⟨m <<< e, ⟨m, e, nearest_significand_le t 1, rfl, hlt⟩, fun hne => ?_, rfl⟩
    simp only [m, e, Nat.div_one]
    exact leading_le_rounded hne
  · exact .inl rfl

/-- A magnitude of 2^53 or more stays one, if it is not rounded to an infinity. -/
theorem ofTicks_large (negative : Bool) {t : Nat} (h : 1 <<< 53 * unit ≤ t) :
    ofTicks negative t = .infinite negative ∨
      ∃ r g, 1 <<< 53 * unit ≤ r ∧ ofTicks negative t = .finite negative r g := by
  have hne : t ≠ 0 := by
    have := Nat.mul_pos (one_shift_pos 53) unit_pos
    omega
  obtain hi | ⟨r, g, hr, hf⟩ := ofTicks_rounded negative t
  · exact .inl hi
  · exact .inr ⟨r, g, Nat.le_trans (place_le_leading h) (hr hne), hf⟩

section whole

@[simp] theorem finite_le_nan {s : Bool} {t : Nat} {g : OnGrid t} :
    (finite s t g).le nan = false := rfl

@[simp] theorem finite_lt_nan {s : Bool} {t : Nat} {g : OnGrid t} :
    (finite s t g).lt nan = false := rfl

@[simp] theorem finite_le_infinite {s b : Bool} {t : Nat} {g : OnGrid t} :
    (finite s t g).le (infinite b) = !b := by cases b <;> rfl

@[simp] theorem finite_lt_infinite {s b : Bool} {t : Nat} {g : OnGrid t} :
    (finite s t g).lt (infinite b) = !b := by cases b <;> rfl

variable {p t : Nat}

theorem le_finite {a b : Bool} {s t : Nat} {g : OnGrid s} {g' : OnGrid t} :
    (finite a s g).le (.finite b t g') = true ↔ signedTicks a s ≤ signedTicks b t := by
  simp only [le, cmp?, Bool.or_eq_true, beq_iff_eq, Option.some.injEq, Int.compare_eq_lt,
    Int.compare_eq_eq]
  omega

theorem lt_finite {a b : Bool} {s t : Nat} {g : OnGrid s} {g' : OnGrid t} :
    (finite a s g).lt (.finite b t g') = true ↔ signedTicks a s < signedTicks b t := by
  simp only [lt, cmp?, beq_iff_eq, Option.some.injEq, Int.compare_eq_lt]

theorem eq_finite_iff {a b : Bool} {s t : Nat} {g : OnGrid s} {g' : OnGrid t} :
    (finite a s g).eq (.finite b t g') = true ↔ signedTicks a s = signedTicks b t := by
  simp only [eq, cmp?, beq_iff_eq, Option.some.injEq, Int.compare_eq_eq]

theorem eq_comm (a b : Number) : a.eq b = b.eq a := by
  cases a with
  | nan => cases b <;> rfl
  | infinite s =>
    cases b with
    | infinite t => cases s <;> cases t <;> rfl
    | _ => cases s <;> rfl
  | finite s t g =>
    cases b with
    | nan => rfl
    | infinite t => cases t <;> rfl
    | finite s' t' g' =>
      rw [Bool.eq_iff_iff, eq_finite_iff, eq_finite_iff]
      exact Eq.comm

theorem eq_nan {a : Number} (h : a.isNaN = true) : a = nan := by
  cases a with
  | nan => rfl
  | _ => cases h

theorem eq_infinite {a : Number} {b : Bool} (h : a.eq (.infinite b) = true) : a = .infinite b := by
  cases a with
  | nan => cases h
  | infinite s => cases s <;> cases b <;> first | rfl | cases h
  | finite => cases b <;> cases h

/-- Numbers are ordered totally, NaN aside. -/
theorem lt_eq_not_le {a b : Number} (ha : a.isNaN = false) (hb : b.isNaN = false) :
    a.lt b = !b.le a := by
  cases a with
  | nan => cases ha
  | infinite s =>
    cases b with
    | nan => cases hb
    | infinite t => cases s <;> cases t <;> rfl
    | finite => cases s <;> rfl
  | finite s t g =>
    cases b with
    | nan => cases hb
    | infinite t => cases t <;> rfl
    | finite s' t' g' =>
      rw [Bool.eq_iff_iff, lt_finite, Bool.not_eq_true', ← Bool.not_eq_true, le_finite]
      omega

theorem isNaN_ofNat (p : Nat) : (ofNat p).isNaN = false := by
  obtain h | ⟨r, g, -, h⟩ := ofTicks_rounded false (p * unit) <;> rw [ofNat, h] <;> rfl

theorem ofNat_le_ofNat {q : Nat} (hp : p < 1 <<< 53) (hq : q < 1 <<< 53) :
    (ofNat p).le (ofNat q) = true ↔ p ≤ q := by
  obtain ⟨g, hg⟩ := ofNat_eq hp
  obtain ⟨g', hg'⟩ := ofNat_eq hq
  rw [hg, hg', le_finite]
  simp only [signedTicks, Bool.false_eq_true, if_false, Int.ofNat_le]
  exact Nat.mul_le_mul_right_iff unit_pos

theorem ofNat_eq_ofNat {q : Nat} (hp : p < 1 <<< 53) (hq : q < 1 <<< 53) :
    (ofNat p).eq (ofNat q) = true ↔ p = q := by
  obtain ⟨g, hg⟩ := ofNat_eq hp
  obtain ⟨g', hg'⟩ := ofNat_eq hq
  rw [hg, hg', eq_finite_iff]
  simp only [signedTicks, Bool.false_eq_true, if_false, Int.natCast_inj]
  exact Nat.mul_left_inj (Nat.ne_of_gt unit_pos)

/-- A position against a whole number of ones that may be rounded. -/
theorem le_ofTicks (hp : p < 1 <<< 53) (ht : unit ∣ t) :
    (ofNat p).le (ofTicks false t) = true ↔ p * unit ≤ t := by
  obtain ⟨g, hg⟩ := ofNat_eq hp
  have hfar : 1 <<< 53 * unit ≤ t → p * unit ≤ t := fun h =>
    Nat.le_trans (Nat.mul_le_mul_right unit (Nat.le_of_lt hp)) h
  rw [hg]
  by_cases hlarge : 1 <<< 53 * unit ≤ t
  · obtain h | ⟨r, g', hr, h⟩ := ofTicks_large false hlarge
    · simp [h, le, cmp?, hfar hlarge]
    · rw [h, le_finite]
      have := Nat.le_trans (Nat.mul_le_mul_right unit (Nat.le_of_lt hp)) hr
      simp only [signedTicks, Bool.false_eq_true, if_false, Int.ofNat_le]
      exact iff_of_true this (hfar hlarge)
  · obtain ⟨k, rfl⟩ := ht
    rw [Nat.mul_comm unit k] at hlarge ⊢
    obtain ⟨g', hk⟩ := ofNat_eq (Nat.lt_of_mul_lt_mul_right (Nat.lt_of_not_le hlarge))
    rw [show ofTicks false (k * unit) = ofNat k from rfl, hk, le_finite]
    simp only [signedTicks, Bool.false_eq_true, if_false, Int.ofNat_le]

/-- No position is below a negative value, however that is rounded. -/
theorem le_ofTicks_true (h0 : 0 < p) (hp : p < 1 <<< 53) (t : Nat) :
    (ofNat p).le (ofTicks true t) = false := by
  obtain ⟨g, hg⟩ := ofNat_eq hp
  have := Nat.mul_pos h0 unit_pos
  rw [hg]
  obtain h | ⟨r, g', -, h⟩ := ofTicks_rounded true t
  · rw [h]
    rfl
  · rw [h, Bool.eq_false_iff, ne_eq, le_finite]
    simp only [signedTicks, if_true, Bool.false_eq_true, if_false]
    omega

end whole

section sums

variable {a b : Bool} {s t p : Nat} {g : OnGrid s} {g' : OnGrid t}

theorem finite_add (a b : Bool) (g : OnGrid s) (g' : OnGrid t) :
    finite a s g + finite b t g' =
      match signedTicks a s + signedTicks b t with
      | .ofNat 0 => zero (a && b)
      | .ofNat n => ofTicks false n
      | .negSucc n => ofTicks true (n + 1) := rfl

/-- A position against a sum that is whole before it is rounded. -/
theorem le_add (h0 : 0 < p) (hp : p < 1 <<< 53)
    (hz : (unit : Int) ∣ signedTicks a s + signedTicks b t) :
    (ofNat p).le (finite a s g + finite b t g') = true ↔
      ((p * unit : Nat) : Int) ≤ signedTicks a s + signedTicks b t := by
  have hpos := Nat.mul_pos h0 unit_pos
  rw [finite_add]
  generalize signedTicks a s + signedTicks b t = z at hz
  cases z with
  | ofNat n =>
    cases n with
    | zero =>
      have hsum : ¬ ((p * unit : Nat) : Int) ≤ Int.ofNat 0 := by
        rw [Int.ofNat_eq_natCast]
        omega
      cases a && b with
      | true => exact iff_of_false (Bool.eq_false_iff.mp (le_ofTicks_true h0 hp 0)) hsum
      | false =>
        refine iff_of_false (fun h => ?_) hsum
        have := (le_ofTicks hp (Nat.dvd_zero unit)).mp h
        omega
    | succ n =>
      simp only [le_ofTicks hp (Int.natCast_dvd_natCast.mp hz)]
      exact Int.ofNat_le.symm
  | negSucc n =>
    refine iff_of_false (Bool.eq_false_iff.mp (le_ofTicks_true h0 hp _)) ?_
    have := Int.negSucc_lt_zero n
    omega

end sums

section parts

variable {s : Bool} {t p : Nat} {g : OnGrid t}

theorem signedTicks_dvd (s : Bool) (q : Nat) : (unit : Int) ∣ signedTicks s (q * unit) := by
  have h : (unit : Int) ∣ ((q * unit : Nat) : Int) :=
    Int.natCast_dvd_natCast.mpr (Nat.dvd_mul_left unit q)
  unfold signedTicks
  split
  · exact Int.dvd_neg.mpr h
  · exact h

/-- A significand that reaches below one leaves fewer places for the whole part. -/
theorem div_lt_of_fraction {m e u k : Nat} (hm : m ≤ 1 <<< k) (hw : m <<< e % 1 <<< u ≠ 0) :
    m <<< e / 1 <<< u < 1 <<< k := by
  have he : e < u := by
    refine Nat.lt_of_not_le fun he => hw (Nat.mod_eq_zero_of_dvd ?_)
    rw [Nat.one_shiftLeft, Nat.shiftLeft_eq]
    exact Nat.dvd_mul_left_of_dvd (Nat.pow_dvd_pow 2 he) m
  rw [Nat.div_lt_iff_lt_mul (one_shift_pos u), Nat.shiftLeft_eq, Nat.one_shiftLeft u]
  exact Nat.lt_of_le_of_lt (Nat.mul_le_mul_right _ hm)
    (Nat.mul_lt_mul_of_pos_left (Nat.pow_lt_pow_right (by decide) he) (one_shift_pos k))

theorem scaled_lt_of_le {q k u v : Nat} (hq : q ≤ 1 <<< k) (hv : k + u < v) :
    q * 1 <<< u < 1 <<< v := by
  refine Nat.lt_of_le_of_lt (Nat.mul_le_mul_right _ hq) ?_
  rw [Nat.one_shiftLeft, Nat.one_shiftLeft, Nat.one_shiftLeft, ← Nat.pow_add]
  exact Nat.pow_lt_pow_right (by decide) hv

/-- The whole part of a value, and the next whole number if there is more to it, lie on the grid. -/
theorem grid_whole (g : OnGrid t) {q : Nat} (h : q = t / unit ∨ t % unit ≠ 0 ∧ q = t / unit + 1) :
    OnGrid (q * unit) := by
  by_cases hw : t % unit = 0
  · have hq : q * unit = t := by
      rw [h.resolve_right fun h' => h'.1 hw, Nat.div_mul_cancel (Nat.dvd_of_mod_eq_zero hw)]
    exact hq.symm ▸ g
  · obtain ⟨m, e, hm, rfl, -⟩ := g
    have hlt := div_lt_of_fraction hm hw
    have hq : q ≤ 1 <<< 53 := by
      rcases h with rfl | ⟨-, rfl⟩
      · exact Nat.le_of_lt hlt
      · exact hlt
    exact ⟨q, 1074, hq, mul_one_shift q 1074, scaled_lt_of_le hq (by decide)⟩

/-- Multiples are compared alike with a value and with the multiple just below it. -/
theorem le_multiple_below {u w x z : Int} (hu : 0 < u) (hw : u ∣ w) (hx : u ∣ x) (hle : x ≤ z)
    (hlt : z < x + u) : w ≤ x ↔ w ≤ z := by
  obtain ⟨k, rfl⟩ := hw
  obtain ⟨j, rfl⟩ := hx
  refine ⟨fun h => Int.le_trans h hle, fun h => ?_⟩
  have hk : u * k < u * (j + 1) := by
    rw [Int.mul_add, Int.mul_one]
    exact Int.lt_of_le_of_lt h hlt
  exact Int.mul_le_mul_of_nonneg_left (Int.lt_add_one_iff.mp (Int.lt_of_mul_lt_mul_left hk
    (Int.le_of_lt hu))) (Int.le_of_lt hu)

/-- The same of the multiple just above it. -/
theorem multiple_above_le {u w x z : Int} (hu : 0 < u) (hw : u ∣ w) (hx : u ∣ x) (hle : z ≤ x)
    (hlt : x < z + u) : x ≤ w ↔ z ≤ w := by
  have h := le_multiple_below hu (Int.dvd_neg.mpr hw) (Int.dvd_neg.mpr hx) (z := -z)
    (by omega) (by omega)
  omega

theorem multiple_lt_iff {u w x : Int} (hu : 0 < u) (hw : u ∣ w) (hx : u ∣ x) :
    w < x ↔ w + u ≤ x := by
  obtain ⟨k, rfl⟩ := hw
  obtain ⟨j, rfl⟩ := hx
  refine ⟨fun h => ?_, fun h => by omega⟩
  have hkj : k + 1 ≤ j := Int.lt_of_mul_lt_mul_left h (Int.le_of_lt hu)
  have := Int.mul_le_mul_of_nonneg_left hkj (Int.le_of_lt hu)
  rwa [Int.mul_add, Int.mul_one] at this

/-- The whole part of a magnitude, raised by one if asked for and if there is more to it. -/
def wholePart (up : Bool) (t : Nat) : Nat :=
  if up && t % unit != 0 then t / unit + 1 else t / unit

theorem wholePart_cases (up : Bool) (t : Nat) : wholePart up t = t / unit ∨
    t % unit ≠ 0 ∧ wholePart up t = t / unit + 1 := by
  unfold wholePart
  split
  · next h =>
    rw [Bool.and_eq_true, bne_iff_ne] at h
    exact .inr ⟨h.2, rfl⟩
  · exact .inl rfl

theorem wholePart_false (t : Nat) :
    wholePart false t * unit ≤ t ∧ t < wholePart false t * unit + unit := by
  have hdiv := Nat.div_add_mod' t unit
  have hmod := Nat.mod_lt t unit_pos
  simp only [wholePart, Bool.false_and, Bool.false_eq_true, if_false]
  omega

theorem wholePart_true (t : Nat) :
    t ≤ wholePart true t * unit ∧ wholePart true t * unit < t + unit := by
  have hdiv := Nat.div_add_mod' t unit
  have hmod := Nat.mod_lt t unit_pos
  simp only [wholePart, Bool.true_and, bne_iff_ne]
  split
  · rw [Nat.succ_mul]
    omega
  · omega

theorem floor_eq (s : Bool) (g : OnGrid t) :
    ∃ g', (finite s t g).floor = finite s (wholePart s t * unit) g' :=
  ⟨grid_whole g (wholePart_cases s t), ofTicks_of_grid s _⟩

theorem ceil_eq (s : Bool) (g : OnGrid t) :
    ∃ g', (finite s t g).ceil = finite s (wholePart (!s) t * unit) g' :=
  ⟨grid_whole g (wholePart_cases (!s) t), ofTicks_of_grid s _⟩

/-- Whole numbers compare alike with a value and with the whole number below it. -/
theorem le_floor (s : Bool) (t : Nat) {w : Int} (hw : (unit : Int) ∣ w) :
    w ≤ signedTicks s (wholePart s t * unit) ↔ w ≤ signedTicks s t := by
  have hf := wholePart_false t
  have ht := wholePart_true t
  refine le_multiple_below (Int.natCast_pos.mpr unit_pos) hw (signedTicks_dvd s _) ?_ ?_
  · cases s <;> simp only [signedTicks, if_true, Bool.false_eq_true, if_false] <;> omega
  · cases s <;> simp only [signedTicks, if_true, Bool.false_eq_true, if_false] <;> omega

/-- And with the whole number above it. -/
theorem ceil_le (s : Bool) (t : Nat) {w : Int} (hw : (unit : Int) ∣ w) :
    signedTicks s (wholePart (!s) t * unit) ≤ w ↔ signedTicks s t ≤ w := by
  have hf := wholePart_false t
  have ht := wholePart_true t
  refine multiple_above_le (Int.natCast_pos.mpr unit_pos) hw (signedTicks_dvd s _) ?_ ?_
  · cases s <;> simp only [signedTicks, Bool.not_true, Bool.not_false, if_true,
      Bool.false_eq_true, if_false] <;> omega
  · cases s <;> simp only [signedTicks, Bool.not_true, Bool.not_false, if_true,
      Bool.false_eq_true, if_false] <;> omega

end parts

section positions

variable {p : Nat} (n : Number)

theorem sub_eq_add_neg (a b : Number) : a - b = a + b.neg := rfl

theorem nan_add (b : Number) : nan + b = nan := rfl

theorem infinite_add {a b : Bool} {t : Nat} (g : OnGrid t) :
    infinite a + finite b t g = infinite a := rfl

theorem one_eq : ∃ g, (1 : Number) = finite false (1 * unit) g := ofNat_eq (by decide)

theorem unit_dvd_position (p : Nat) : (unit : Int) ∣ ((p * unit : Nat) : Int) :=
  Int.natCast_dvd_natCast.mpr (Nat.dvd_mul_left unit p)

/-- A position is below a value if it is not above the last whole number below it. -/
theorem lt_eq_le_ceil_sub_one (h0 : 0 < p) (hp : p < 1 <<< 53) :
    (ofNat p).lt n = (ofNat p).le (n.ceil - 1) := by
  obtain ⟨g, hg⟩ := ofNat_eq hp
  obtain ⟨g1, h1⟩ := one_eq
  rw [sub_eq_add_neg, h1, neg]
  cases n with
  | nan => rw [show ceil nan = nan from rfl, nan_add, hg, finite_lt_nan, finite_le_nan]
  | infinite b =>
    rw [show ceil (infinite b) = infinite b from rfl, infinite_add, hg, finite_lt_infinite,
      finite_le_infinite]
  | finite s t gt =>
    obtain ⟨gc, hc⟩ := ceil_eq s gt
    have hone : signedTicks (!false) (1 * unit) = -(unit : Int) := by
      rw [Nat.one_mul]
      rfl
    have hdvd := signedTicks_dvd s (wholePart (!s) t)
    have hce := ceil_le s t (unit_dvd_position p)
    have hstep := multiple_lt_iff (Int.natCast_pos.mpr unit_pos) (unit_dvd_position p) hdvd
    have hz : (unit : Int) ∣ signedTicks s (wholePart (!s) t * unit) +
        signedTicks (!false) (1 * unit) := by
      rw [hone]
      exact Int.dvd_add hdvd (Int.dvd_neg.mpr (Int.dvd_refl _))
    rw [Bool.eq_iff_iff, hc, le_add h0 hp hz, hone, hg, lt_finite]
    simp only [signedTicks, Bool.false_eq_true, if_false] at hce hstep ⊢
    omega

theorem le_eq_le_floor (hp : p < 1 <<< 53) : (ofNat p).le n = (ofNat p).le n.floor := by
  obtain ⟨g, hg⟩ := ofNat_eq hp
  cases n with
  | nan => rfl
  | infinite b => rfl
  | finite s t gt =>
    obtain ⟨gf, hf⟩ := floor_eq s gt
    rw [Bool.eq_iff_iff, hf, hg, le_finite, le_finite]
    exact (le_floor s t (unit_dvd_position p)).symm

/-- The next position is not above the whole number after a value just if the position is not above
the value. -/
theorem succ_le_floor_add_one (hp : p + 1 < 1 <<< 53) :
    (ofNat (p + 1)).le (n.floor + 1) = (ofNat p).le n := by
  obtain ⟨g, hg⟩ := ofNat_eq (Nat.lt_of_succ_lt hp)
  obtain ⟨g', hg'⟩ := ofNat_eq hp
  obtain ⟨g1, h1⟩ := one_eq
  rw [h1]
  cases n with
  | nan => rw [show floor nan = nan from rfl, nan_add, hg', hg, finite_le_nan, finite_le_nan]
  | infinite b =>
    rw [show floor (infinite b) = infinite b from rfl, infinite_add, hg', hg,
      finite_le_infinite, finite_le_infinite]
  | finite s t gt =>
    obtain ⟨gf, hf⟩ := floor_eq s gt
    have hone : signedTicks false (1 * unit) = (unit : Int) := by
      rw [Nat.one_mul]
      rfl
    have hfl := le_floor s t (unit_dvd_position p)
    have hz : (unit : Int) ∣ signedTicks s (wholePart s t * unit) +
        signedTicks false (1 * unit) := by
      rw [hone]
      exact Int.dvd_add (signedTicks_dvd s _) (Int.dvd_refl _)
    rw [Bool.eq_iff_iff, hf, le_add (Nat.succ_pos p) hp hz, hone, hg, le_finite]
    simp only [signedTicks, Bool.false_eq_true, if_false, Nat.succ_mul, Int.natCast_add]
      at hfl ⊢
    omega

/-- The next position is not above the first whole number from a value on just if the position is
below the value. -/
theorem succ_le_ceil (hp : p + 1 < 1 <<< 53) :
    (ofNat (p + 1)).le n.ceil = (ofNat p).lt n := by
  obtain ⟨g, hg⟩ := ofNat_eq (Nat.lt_of_succ_lt hp)
  obtain ⟨g', hg'⟩ := ofNat_eq hp
  cases n with
  | nan => rw [show ceil nan = nan from rfl, hg', hg, finite_le_nan, finite_lt_nan]
  | infinite b =>
    rw [show ceil (infinite b) = infinite b from rfl, hg', hg, finite_le_infinite,
      finite_lt_infinite]
  | finite s t gt =>
    obtain ⟨gc, hc⟩ := ceil_eq s gt
    have hce := ceil_le s t (unit_dvd_position p)
    have hstep := multiple_lt_iff (Int.natCast_pos.mpr unit_pos) (unit_dvd_position p)
      (signedTicks_dvd s (wholePart (!s) t))
    rw [Bool.eq_iff_iff, hc, hg', hg, le_finite, lt_finite]
    simp only [signedTicks, Bool.false_eq_true, if_false, Nat.succ_mul, Int.natCast_add]
      at hce hstep ⊢
    omega

end positions

end Number

end PathLanguage
