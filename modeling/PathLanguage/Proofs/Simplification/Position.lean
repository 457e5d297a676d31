/- The rules for positions: a comparison with a number, or with the last position, says what the
range or the test that takes its place says. -/
import PathLanguage.Evaluation
import PathLanguage.Expr.Simplification
import PathLanguage.Proofs.Number.Whole
import PathLanguage.Proofs.Session.Returns

namespace PathLanguage

theorem Comparison.inverse_inverse (op : Comparison) : op.inverse.inverse = op := by
  cases op <;> rfl

/-- Exchanging the operands of numbers exchanges nothing else. -/
theorem Comparison.inverse_numbers (op : Comparison) (x y : Number) :
    op.inverse.numbers y x = op.numbers x y := by
  cases op with
  | equal => exact Number.eq_comm y x
  | unequal => exact congrArg not (Number.eq_comm y x)
  | _ => rfl

/-- A NaN is unequal to everything, and stands in no other relation. -/
theorem Comparison.numbers_nan (op : Comparison) (x : Number) :
    op.numbers x .nan = (op == .unequal) := by
  cases op <;> cases x <;> rfl

/-- The position is one of those up to the last one, which the bounds of positions can tell from an
open end. -/
structure Context.Focused (c : Context) : Prop where
  first : 0 < c.position
  ordered : c.position ≤ c.last
  near : c.last < 1000000000000000

namespace Expr

open Number (unit unit_pos ofNat_eq le_finite lt_finite signedTicks)

theorem far_exact : (1000000000000000 : Nat) < 1 <<< 53 := by decide

theorem far_lt_openEnd : (1000000000000000 : Nat) < openEnd := by decide

theorem zero_eq : ∃ g, (0 : Number) = .finite false (0 * unit) g := ofNat_eq (by decide)

section bounds

variable {p : Nat} {n : Number}

/-- A negative value counts as zero. -/
theorem truncate_max_zero (s : Bool) {t : Nat} (g : OnGrid t) :
    (((Number.finite s t g).max 0).truncate?).getD 0 = if s then 0 else t / unit := by
  obtain ⟨g0, h0⟩ := zero_eq
  rw [h0, Number.max, if_neg (by simp [Number.isNaN])]
  cases s with
  | false =>
    rw [if_neg]
    · rfl
    · rw [lt_finite]
      simp only [signedTicks, Bool.false_eq_true, if_false]
      omega
  | true =>
    cases t with
    | zero =>
      rw [if_neg]
      · rfl
      · rw [lt_finite]
        simp only [signedTicks, Bool.false_eq_true, if_false, if_true]
        omega
    | succ t =>
      rw [if_pos]
      · rw [if_pos rfl]
        exact Nat.mul_div_cancel 0 unit_pos
      · rw [lt_finite]
        simp only [signedTicks, Bool.false_eq_true, if_false, if_true]
        omega

theorem infinite_max_zero : ((Number.infinite true).max 0).truncate?.getD 0 = 0 := by
  obtain ⟨g0, h0⟩ := zero_eq
  rw [h0]
  exact Nat.mul_div_cancel 0 unit_pos

theorem nan_max_zero : (Number.nan.max 0).truncate?.getD 0 = 0 := by
  obtain ⟨g0, h0⟩ := zero_eq
  rw [h0]
  exact Nat.mul_div_cancel 0 unit_pos

/-- A position is within a bound just if it is not above the number that the bound stands for. -/
theorem le_positionOf (x : Number) (h0 : 0 < p) (hp : p ≤ 1000000000000000) :
    p ≤ positionOf x ↔ (Number.ofNat p).le x = true := by
  obtain ⟨g, hg⟩ := ofNat_eq (Nat.lt_of_le_of_lt hp far_exact)
  obtain ⟨g', hfar⟩ := ofNat_eq far_exact
  have hscale := Nat.mul_le_mul_right unit hp
  have hopen := Nat.le_trans hp (Nat.le_of_lt far_lt_openEnd)
  rw [positionOf, farPosition, hfar, hg]
  cases x with
  | nan =>
    rw [Number.finite_le_nan, nan_max_zero, Number.finite_le_nan, if_neg nofun]
    exact iff_of_false (by omega) nofun
  | infinite b =>
    rw [Number.finite_le_infinite, Number.finite_le_infinite]
    cases b with
    | false => simpa using hopen
    | true =>
      rw [infinite_max_zero, if_neg nofun]
      exact iff_of_false (by omega) nofun
  | finite s t gt =>
    rw [truncate_max_zero]
    split
    · next h =>
      rw [le_finite] at h ⊢
      refine iff_of_true hopen (Int.le_trans ?_ h)
      simpa only [signedTicks, Bool.false_eq_true, if_false, Int.ofNat_le] using hscale
    · rw [le_finite]
      cases s with
      | true =>
        simp only [signedTicks, Bool.false_eq_true, if_false, if_true]
        have := Nat.mul_pos h0 unit_pos
        omega
      | false =>
        simp only [signedTicks, Bool.false_eq_true, if_false, Int.ofNat_le]
        exact Nat.le_div_iff_mul_le unit_pos

/-- The position within a bound for a whole number, and no more than it, is the number. -/
theorem eq_iff_positionOf (hn : n.isWhole = true) (h0 : 0 < p) (hp : p < 1000000000000000) :
    (Number.ofNat p).eq n = true ↔ positionOf n ≤ p ∧ p ≤ positionOf n := by
  obtain ⟨g, hg⟩ := ofNat_eq (Nat.lt_trans hp far_exact)
  obtain ⟨g', hg'⟩ := ofNat_eq (Nat.lt_of_le_of_lt (Nat.succ_le_of_lt hp) far_exact)
  have hle := le_positionOf n h0 (Nat.le_of_lt hp)
  have hsucc := le_positionOf n (Nat.succ_pos p) hp
  rw [hg] at hle ⊢
  rw [hg'] at hsucc
  cases n with
  | nan => cases hn
  | infinite b => cases hn
  | finite s t gt =>
    simp only [Number.isWhole, beq_iff_eq] at hn
    obtain ⟨k, rfl⟩ : ∃ k, t = k * unit :=
      ⟨t / unit, (Nat.div_mul_cancel (Nat.dvd_of_mod_eq_zero hn)).symm⟩
    have hstep := Number.multiple_lt_iff (Int.natCast_pos.mpr unit_pos)
      (Number.unit_dvd_position p) (Number.signedTicks_dvd s k)
    rw [le_finite] at hle hsucc
    rw [Number.eq_finite_iff]
    simp only [signedTicks, Bool.false_eq_true, if_false, Nat.succ_mul, Int.natCast_add]
      at hle hsucc hstep ⊢
    omega

/-- A number that some position equals is whole and at least one. -/
theorem whole_of_eq (h0 : 0 < p) (hp : p < 1000000000000000)
    (h : (Number.ofNat p).eq n = true) : n.isWhole = true ∧ (1 : Number).le n = true := by
  obtain ⟨g, hg⟩ := ofNat_eq (Nat.lt_trans hp far_exact)
  obtain ⟨g1, h1⟩ := Number.one_eq
  rw [hg] at h
  rw [h1]
  cases n with
  | nan => cases h
  | infinite b => cases b <;> cases h
  | finite s t gt =>
    have hpos := Nat.mul_pos h0 unit_pos
    have hone := Nat.mul_le_mul_right unit h0
    rw [Number.eq_finite_iff] at h
    rw [le_finite, ← h]
    simp only [signedTicks, Bool.false_eq_true, if_false, Int.ofNat_le] at h ⊢
    cases s with
    | true =>
      rw [if_pos rfl] at h
      omega
    | false =>
      rw [if_neg Bool.false_ne_true, Int.natCast_inj] at h
      subst h
      exact ⟨by simp [Number.isWhole], hone⟩

end bounds

theorem compare_numbers {T : Transformation} (E : Engine) (op : Comparison) (x y : Number) :
    (Value.number x).compare T E op (.number y) = pure (op.numbers x y) := by
  cases op <;> rfl

/-- An expression says one thing, whatever session it is evaluated in, once the depth suffices. -/
structure Settles (T : Transformation) (c : Context) (e : Expr) (b : Bool) : Prop where
  only : ∀ d, Returns ((engine T d).boolean e c) (· = b)
  reached : ∀ d, (engine T (d + 2)).boolean e c = pure b

namespace Settles

variable {T : Transformation} {c : Context}

theorem of_reached {e : Expr} {b : Bool} (h1 : Returns ((engine T 1).boolean e c) (· = b))
    (h2 : ∀ d, (engine T (d + 2)).boolean e c = pure b) : Settles T c e b where
  only
    | 0 => .fail
    | 1 => h1
    | d + 2 => h2 d ▸ .pure rfl
  reached := h2

theorem of_eq {e : Expr} {a b : Bool} (h : Settles T c e b) (hab : a = b) : Settles T c e a :=
  hab ▸ h

theorem ofBool (b : Bool) : Settles T c (ofBool b) b := of_reached .fail fun _ => rfl

theorem isLast (wanted : Bool) :
    Settles T c (.isLast wanted) ((c.position == c.last) == wanted) :=
  of_reached (.pure rfl) fun _ => rfl

theorem positionRange (least most : Nat) :
    Settles T c (.positionRange least most) (least ≤ c.position && c.position ≤ most) :=
  of_reached (.pure rfl) fun _ => rfl

/-- The bounds of positions say which they hold; crossed bounds hold none. -/
theorem positions {least most : Nat} {b : Bool}
    (h : b = true ↔ least ≤ c.position ∧ c.position ≤ most) :
    Settles T c (positions least most) b := by
  obtain rfl : b = (least ≤ c.position && c.position ≤ most) := by
    rw [Bool.eq_iff_iff, h, Bool.and_eq_true, decide_eq_true_eq, decide_eq_true_eq]
  unfold Expr.positions
  split
  · refine (ofBool false).of_eq ?_
    simp
    omega
  · exact positionRange least most

/-- Of two numbers a comparison says what their order does, also with its sides exchanged. -/
theorem compare {l r : Expr} {x y : Number} (op : Comparison)
    (hl : ∀ d, (engine T (d + 1)).value l c = pure (.number x))
    (hr : ∀ d, (engine T (d + 1)).value r c = pure (.number y)) :
    Settles T c (.compare op l r) (op.numbers x y) ∧
      Settles T c (.compare op.inverse r l) (op.numbers x y) := by
  refine ⟨of_reached .fail fun d => ?_, of_reached .fail fun d => ?_⟩
  · change (do let a ← (engine T (d + 1)).value l c
               let b ← (engine T (d + 1)).value r c
               a.compare T (engine T (d + 1)) op b) = _
    rw [hl, hr, pure_bind, pure_bind, compare_numbers]
  · change (do let a ← (engine T (d + 1)).value r c
               let b ← (engine T (d + 1)).value l c
               a.compare T (engine T (d + 1)) op.inverse b) = _
    rw [hl, hr, pure_bind, pure_bind, compare_numbers, op.inverse_numbers]

end Settles

theorem isPlainCall_iff {f : SystemFunction} {e : Expr} :
    e.isPlainCall f = true ↔ ∃ scope, e = .call f [] none scope := by
  unfold isPlainCall
  split
  · next g scope =>
    rw [beq_iff_eq]
    refine ⟨?_, ?_⟩
    · rintro rfl
      exact ⟨scope, rfl⟩
    · rintro ⟨_, ⟨⟩⟩
      rfl
  · next h =>
    refine iff_of_false nofun ?_
    rintro ⟨scope, rfl⟩
    exact h f scope rfl

theorem number?_eq_some {e : Expr} {n : Number} :
    e.number? = some n ↔ e = .value (.number n) := by
  unfold number?
  split
  · simp
  · next h =>
    refine iff_of_false nofun ?_
    rintro rfl
    exact h n rfl

section rules

variable {T : Transformation} {c : Context}

theorem value_position (scope : Option Scope) (d : Nat) :
    (engine T (d + 1)).value (.call .position [] none scope) c =
      pure (.number (.ofNat c.position)) := rfl

theorem value_last (scope : Option Scope) (d : Nat) :
    (engine T (d + 1)).value (.call .last [] none scope) c = pure (.number (.ofNat c.last)) := rfl

theorem value_constant (v : Value) (d : Nat) : (engine T (d + 1)).value (.value v) c = pure v := rfl

/-- The positions that a rule names are those that stand in the relation. -/
theorem positionsBy?_settles {op : Comparison} {n : Number} {e : Expr}
    (h : positionsBy? n op = some e) (hn : n.isNaN = false) (hc : c.Focused) :
    Settles T c e (op.numbers (.ofNat c.position) n) := by
  have h0 := hc.first
  have h1 := Nat.lt_of_le_of_lt hc.ordered hc.near
  have hexact := Nat.lt_trans h1 far_exact
  have hsucc := Nat.lt_of_le_of_lt (Nat.succ_le_of_lt h1) far_exact
  have hopen := Nat.le_trans (Nat.le_of_lt h1) (Nat.le_of_lt far_lt_openEnd)
  have hle (x : Number) := le_positionOf x h0 (Nat.le_of_lt h1)
  have hge (x : Number) :
      positionOf x ≤ c.position ↔ (Number.ofNat (c.position + 1)).le x = false := by
    rw [← Bool.not_eq_true, ← le_positionOf x (Nat.succ_pos _) h1]
    omega
  have hp := Number.isNaN_ofNat c.position
  have hinfinite : (Number.ofNat c.position).le (.infinite false) = true ∧
      (Number.ofNat c.position).lt (.infinite false) = true := by
    obtain ⟨g, hg⟩ := ofNat_eq hexact
    rw [hg]
    exact ⟨rfl, rfl⟩
  simp only [positionsBy?] at h
  cases op with
  | equal =>
    simp only at h
    split at h
    · next hw =>
      rw [Bool.and_eq_true] at hw
      obtain rfl := Option.some.inj h
      exact .positions (eq_iff_positionOf hw.1 h0 h1)
    · next hw =>
      obtain rfl := Option.some.inj h
      have : Comparison.numbers .equal (.ofNat c.position) n = false := by
        rw [Bool.eq_false_iff]
        exact fun heq => hw (Bool.and_eq_true _ _ ▸ whole_of_eq h0 h1 heq)
      exact (Settles.ofBool false).of_eq this
  | unequal => cases h
  | less =>
    obtain rfl := Option.some.inj h
    refine .positions ?_
    rw [hle, ← Number.lt_eq_le_ceil_sub_one n h0 hexact]
    exact (and_iff_right h0).symm
  | atMost =>
    obtain rfl := Option.some.inj h
    refine .positions ?_
    rw [hle, ← Number.le_eq_le_floor n hexact]
    exact (and_iff_right h0).symm
  | greater =>
    have hbeyond : Comparison.numbers .greater (.ofNat c.position) n =
        !(Number.ofNat c.position).le n := Number.lt_eq_not_le hn hp
    simp only at h
    split at h
    · next hn =>
      obtain rfl := Option.some.inj h
      rw [hbeyond, Number.eq_infinite hn]
      exact (Settles.ofBool false).of_eq (congrArg not hinfinite.1)
    · obtain rfl := Option.some.inj h
      refine .positions ?_
      rw [hbeyond, Bool.not_eq_true', ← Number.succ_le_floor_add_one n hsucc, ← hge]
      omega
  | atLeast =>
    have hbeyond : Comparison.numbers .atLeast (.ofNat c.position) n =
        !(Number.ofNat c.position).lt n := by
      rw [Number.lt_eq_not_le hp hn, Bool.not_not]
      rfl
    simp only at h
    split at h
    · next hn =>
      obtain rfl := Option.some.inj h
      rw [hbeyond, Number.eq_infinite hn]
      exact (Settles.ofBool false).of_eq (congrArg not hinfinite.2)
    · obtain rfl := Option.some.inj h
      refine .positions ?_
      rw [hbeyond, Bool.not_eq_true', ← Number.succ_le_ceil n hsucc, ← hge]
      omega

/-- The test for the last position says how the position compares with the last one. -/
theorem positionToLast_settles (op : Comparison) (hc : c.Focused) :
    Settles T c (positionToLast op) (op.numbers (.ofNat c.position) (.ofNat c.last)) := by
  have h := hc.ordered
  have hlast := Nat.lt_trans hc.near far_exact
  have hposition := Nat.lt_of_le_of_lt h hlast
  have heq : (Number.ofNat c.position).eq (.ofNat c.last) = (c.position == c.last) := by
    rw [Bool.eq_iff_iff, Number.ofNat_eq_ofNat hposition hlast, beq_iff_eq]
  have hle : (Number.ofNat c.position).le (.ofNat c.last) = true :=
    (Number.ofNat_le_ofNat hposition hlast).mpr h
  have hge : (Number.ofNat c.last).le (.ofNat c.position) = (c.position == c.last) := by
    rw [Bool.eq_iff_iff, Number.ofNat_le_ofNat hlast hposition, beq_iff_eq]
    omega
  have hlt : (Number.ofNat c.position).lt (.ofNat c.last) = !(c.position == c.last) := by
    rw [Number.lt_eq_not_le (Number.isNaN_ofNat _) (Number.isNaN_ofNat _), hge]
  have hgt : (Number.ofNat c.last).lt (.ofNat c.position) = false := by
    rw [Number.lt_eq_not_le (Number.isNaN_ofNat _) (Number.isNaN_ofNat _), hle]
    rfl
  have htrue : Settles T c (.isLast true) (c.position == c.last) := by
    simpa only [beq_true] using Settles.isLast (T := T) (c := c) true
  have hfalse : Settles T c (.isLast false) !(c.position == c.last) := by
    simpa only [beq_false] using Settles.isLast (T := T) (c := c) false
  cases op with
  | equal => exact htrue.of_eq heq
  | unequal => exact hfalse.of_eq (congrArg not heq)
  | less => exact hfalse.of_eq hlt
  | atMost => exact (Settles.ofBool true).of_eq hle
  | greater => exact (Settles.ofBool false).of_eq hgt
  | atLeast => exact htrue.of_eq hge

/-- A rule for the position says what the comparison says, in either order of its operands. -/
theorem comparePosition?_settles {op : Comparison} {l r e : Expr}
    (h : comparePosition? op l r = some e) (hc : c.Focused) :
    ∃ b, Settles T c (.compare op l r) b ∧ Settles T c (.compare op.inverse r l) b ∧
      Settles T c e b := by
  unfold comparePosition? at h
  split at h
  · cases h
  · next hl =>
    obtain ⟨scope, rfl⟩ := isPlainCall_iff.mp (by simpa using hl)
    split at h
    · next hr =>
      obtain ⟨scope', rfl⟩ := isPlainCall_iff.mp hr
      obtain rfl := Option.some.inj h
      obtain ⟨hd, hs⟩ := Settles.compare (T := T) op (value_position (c := c) scope)
        (value_last scope')
      exact ⟨_, hd, hs, positionToLast_settles op hc⟩
    · split at h
      · cases h
      · next n hr =>
        obtain rfl := number?_eq_some.mp hr
        obtain ⟨hd, hs⟩ := Settles.compare (T := T) op (value_position (c := c) scope)
          (value_constant (.number n))
        refine ⟨_, hd, hs, ?_⟩
        split at h
        · next hn =>
          obtain rfl := Option.some.inj h
          refine (Settles.ofBool (op == .unequal)).of_eq ?_
          rw [Number.eq_nan hn, Comparison.numbers_nan]
        · next hn =>
          exact positionsBy?_settles h (by simpa using hn) hc

theorem range_of_positions {least most first last : Nat}
    (h : positions least most = .positionRange first last) : first = least := by
  unfold positions at h
  split at h
  · cases h
  · injection h with hfirst
    exact hfirst.symm

theorem type_positions (least most : Nat) : (positions least most).type = .boolean := by
  unfold positions
  split <;> rfl

/-- The positions that a rule names start at one. -/
theorem positionsBy?_form {op : Comparison} {n : Number} {e : Expr}
    (h : positionsBy? n op = some e) :
    e = Expr.ofBool false ∨ ∃ least most, e = positions least most ∧ 0 < least := by
  simp only [positionsBy?] at h
  cases op with
  | unequal => cases h
  | less | atMost => exact .inr ⟨_, _, (Option.some.inj h).symm, Nat.one_pos⟩
  | greater | atLeast =>
    simp only at h
    split at h
    · exact .inl (Option.some.inj h).symm
    · exact .inr ⟨_, _, (Option.some.inj h).symm, by omega⟩
  | equal =>
    simp only at h
    split at h
    · next hw =>
      rw [Bool.and_eq_true] at hw
      refine .inr ⟨_, _, (Option.some.inj h).symm, ?_⟩
      exact (le_positionOf n Nat.one_pos (by decide)).mpr hw.2
    · exact .inl (Option.some.inj h).symm

/-- What takes the place of a comparison is a test, and as a range it starts at a position. -/
theorem comparePosition?_form {op : Comparison} {l r e : Expr}
    (h : comparePosition? op l r = some e) :
    e.type = .boolean ∧ ∀ first last, e = .positionRange first last → 0 < first := by
  unfold comparePosition? at h
  split at h
  · cases h
  · split at h
    · obtain rfl := Option.some.inj h
      cases op <;> exact ⟨rfl, nofun⟩
    · split at h
      · cases h
      · next n _ =>
        split at h
        · obtain rfl := Option.some.inj h
          exact ⟨rfl, nofun⟩
        · obtain rfl | ⟨least, most, rfl, hleast⟩ := positionsBy?_form h
          · exact ⟨rfl, nofun⟩
          · exact ⟨type_positions least most, fun first last he =>
              range_of_positions he ▸ hleast⟩

end rules

end Expr

end PathLanguage
