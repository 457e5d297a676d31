/- A quotient is rounded to the binary64 value nearest to it, and of two that are equally near to
the one whose significand is even. -/
import Mathlib.Algebra.Order.Field.Basic
import Mathlib.Data.Nat.Cast.Order.Field
import Mathlib.Data.Rat.Cast.Order
import Mathlib.Tactic.Linarith
import Mathlib.Tactic.FieldSimp
import PathLanguage.Proofs.Number.Decimal
import PathLanguage.Proofs.Number.Whole

namespace PathLanguage.Number

/-- A count of ticks with at most 53 significant bits, however large it is. -/
def Representable (t : Nat) : Prop := ∃ m e, m ≤ 1 <<< 53 ∧ t = m <<< e

/-- A count of ticks with an even significand of at most 53 bits. -/
def EvenSignificand (t : Nat) : Prop := ∃ m e, 2 * m ≤ 1 <<< 53 ∧ t = (2 * m) <<< e

/-- A count of ticks is the nearest to an amount, the even one of two that are equally near. -/
structure Nearest (q : ℚ) (t : Nat) : Prop where
  representable : Representable t
  least : ∀ u, Representable u → |q - t| ≤ |q - u|
  even : ∀ u, Representable u → u ≠ t → |q - t| = |q - u| → EvenSignificand t

/-- A number is what an amount of a sign is rounded to: the nearest value, or an infinity where the
nearest count of ticks is that of 2^1024 or more. -/
inductive Rounds (negative : Bool) (q : ℚ) : Number → Prop
  | finite {t : Nat} {grid : OnGrid t} : Nearest (q * unit) t →
      Rounds negative q (.finite negative t grid)
  | infinite {t : Nat} : Nearest (q * unit) t → 1 <<< 2098 ≤ t →
      Rounds negative q (.infinite negative)

section Integers

variable {num den : Nat}

/-- The whole part of a quotient, what is left of it and what it is rounded to. -/
theorem nearest_cases (num : Nat) (h : 0 < den) :
    ∃ f : ℚ, (num : ℚ) / den = (num / den : Nat) + f ∧
    (0 ≤ f ∧ f < 1 / 2 ∧ nearest num den = num / den ∨
      1 / 2 < f ∧ f < 1 ∧ nearest num den = num / den + 1 ∨
      f = 1 / 2 ∧ nearest num den = num / den + num / den % 2) := by
  have hden : (0 : ℚ) < den := by exact_mod_cast h
  have hsplit : (num : ℚ) = (num / den : Nat) * den + (num % den : Nat) := by
    exact_mod_cast (Nat.div_add_mod' num den).symm
  refine ⟨(num % den : Nat) / den, ?_, ?_⟩
  · rw [div_eq_iff hden.ne', add_mul, div_mul_cancel₀ _ hden.ne']
    exact hsplit
  · unfold nearest
    simp only
    by_cases hlow : 2 * (num % den) < den
    · rw [if_pos hlow, div_lt_div_iff₀ hden two_pos]
      refine .inl ⟨by positivity, ?_, rfl⟩
      exact_mod_cast (by omega : num % den * 2 < 1 * den)
    · rw [if_neg hlow]
      by_cases hhigh : den < 2 * (num % den)
      · rw [if_pos hhigh, div_lt_div_iff₀ two_pos hden, div_lt_one hden]
        refine .inr (.inl ⟨?_, ?_, rfl⟩)
        · exact_mod_cast (by omega : 1 * den < num % den * 2)
        · exact_mod_cast Nat.mod_lt num h
      · rw [if_neg hhigh, div_eq_div_iff hden.ne' two_ne_zero]
        refine .inr (.inr ⟨?_, rfl⟩)
        exact_mod_cast (by omega : num % den * 2 = 1 * den)

/-- A quotient is off its rounded value by at most a half, and by less if that is odd. -/
theorem nearest_error (num : Nat) (h : 0 < den) :
    |(num : ℚ) / den - nearest num den| ≤ 1 / 2 ∧
    (|(num : ℚ) / den - nearest num den| = 1 / 2 → 2 ∣ nearest num den) := by
  obtain ⟨f, hf, ⟨h0, hlow, hn⟩ | ⟨hhigh, h1, hn⟩ | ⟨rfl, hn⟩⟩ := nearest_cases num h
  · rw [hf, hn, add_sub_cancel_left, abs_of_nonneg h0]
    exact ⟨hlow.le, fun he => absurd he hlow.ne⟩
  · rw [hf, hn, Nat.cast_add, Nat.cast_one, add_sub_add_left_eq_sub, abs_of_neg (by linarith)]
    exact ⟨by linarith, fun he => absurd he (by linarith)⟩
  · obtain hpar | hpar := Nat.mod_two_eq_zero_or_one (num / den)
    · rw [hf, hn, hpar, Nat.add_zero, add_sub_cancel_left, abs_of_pos one_half_pos]
      exact ⟨le_rfl, fun _ => Nat.dvd_of_mod_eq_zero hpar⟩
    · rw [hf, hn, hpar, Nat.cast_add, Nat.cast_one, add_sub_add_left_eq_sub,
        abs_of_neg (by norm_num)]
      exact ⟨by norm_num, fun _ => by omega⟩

/-- No natural number is nearer to an amount than one that is off by at most a half, and one that is
as near is on the other side of it. -/
theorem error_least {x : ℚ} {m : Nat} (h : |x - m| ≤ 1 / 2) (k : Nat) :
    |x - m| ≤ |x - k| ∧ (k ≠ m → |x - m| = |x - k| → |x - m| = 1 / 2) := by
  by_cases hk : k = m
  · subst hk
    exact ⟨le_rfl, fun hne => absurd rfl hne⟩
  · have hone : (1 : ℚ) ≤ |(k : ℚ) - m| := by
      have hint : (1 : ℤ) ≤ |(k : ℤ) - m| := Int.one_le_abs (by omega)
      exact_mod_cast hint
    have htriangle : |(k : ℚ) - m| ≤ |x - k| + |x - m| := by
      rw [abs_sub_comm x k]
      exact abs_sub_le _ _ _ |>.trans_eq rfl
    exact ⟨by linarith, fun _ he => by linarith⟩

end Integers

section Grid

variable {num den t u : Nat}

theorem shiftLeft_cast (m e : Nat) : ((m <<< e : Nat) : ℚ) = m * 2 ^ e := by
  rw [Nat.shiftLeft_eq]
  push_cast
  rfl

/-- A count of ticks that is no multiple of a place is below the leading place of 53 places. -/
theorem Representable.lt_of_not_dvd {e : Nat} (h : Representable u) (hu : ¬ 2 ^ e ∣ u) :
    u < 2 ^ (52 + e) := by
  obtain ⟨m, e', hm, rfl⟩ := h
  rw [Nat.shiftLeft_eq] at hu ⊢
  have he : e' < e := by
    by_contra hle
    exact hu (Nat.dvd_mul_left_of_dvd (Nat.pow_dvd_pow 2 (Nat.le_of_not_lt hle)) m)
  have hle : m * 2 ^ e' ≤ 2 ^ (52 + e) := by
    calc m * 2 ^ e' ≤ 2 ^ 53 * 2 ^ e' := Nat.mul_le_mul_right _ (by rwa [← Nat.one_shiftLeft])
      _ = 2 ^ (53 + e') := (Nat.pow_add 2 53 e').symm
      _ ≤ 2 ^ (52 + e) := Nat.pow_le_pow_right two_pos (by omega)
  refine lt_of_le_of_ne hle fun heq => hu ?_
  rw [heq]
  exact Nat.pow_dvd_pow 2 (by omega)

/-- Rounding a quotient in its last place gives the nearest count of ticks. -/
theorem nearest_shift_nearest (num : Nat) (hden : 0 < den) :
    Nearest (num / den) (nearest num (den <<< ((num / den).log2 - 52)) <<<
      ((num / den).log2 - 52)) := by
  set e := (num / den).log2 - 52 with he
  set m := nearest num (den <<< e) with hm
  set x : ℚ := (num : ℚ) / (den <<< e : Nat) with hx
  have hsignificand : m ≤ 1 <<< 53 := nearest_significand_le num den
  have hplace : (0 : ℚ) < 2 ^ e := by positivity
  have hq : (num : ℚ) / den = x * 2 ^ e := by
    rw [hx, shiftLeft_cast, div_mul_eq_div_div, div_mul_cancel₀ _ hplace.ne']
  have hscale (k : Nat) : |(num : ℚ) / den - (k <<< e : Nat)| = |x - k| * 2 ^ e := by
    rw [hq, shiftLeft_cast, ← sub_mul, abs_mul, abs_of_pos hplace]
  obtain ⟨herror, hparity⟩ := nearest_error num
    (by rw [Nat.shiftLeft_eq]; positivity : 0 < den <<< e)
  have hmultiple (k : Nat) :
      |(num : ℚ) / den - (m <<< e : Nat)| ≤ |(num : ℚ) / den - (k <<< e : Nat)| := by
    rw [hscale, hscale]
    exact mul_le_mul_of_nonneg_right (error_least herror k).1 hplace.le
  -- what is no multiple of the last place is below the leading one, which is no nearer
  have hother {u : Nat} (hu : Representable u) (hdvd : ¬ 2 ^ e ∣ u) :
      |(num : ℚ) / den - (m <<< e : Nat)| < |(num : ℚ) / den - u| := by
    have hpos : e ≠ 0 := by
      intro h0
      exact hdvd (h0 ▸ one_dvd u)
    have hleading : 2 ^ (52 + e) ≤ num / den := by
      rw [show 52 + e = (num / den).log2 by omega]
      refine Nat.log2_self_le fun h0 => hpos ?_
      rw [he, h0]
      rfl
    have hmid := hmultiple (2 ^ 52)
    rw [Nat.shiftLeft_eq (2 ^ 52), ← Nat.pow_add] at hmid
    have hbelow : ((2 ^ (52 + e) : Nat) : ℚ) ≤ (num : ℚ) / den :=
      (Nat.cast_le.mpr hleading).trans Nat.cast_div_le
    have hlt : (u : ℚ) < (2 ^ (52 + e) : Nat) := Nat.cast_lt.mpr (hu.lt_of_not_dvd hdvd)
    rw [abs_of_nonneg (sub_nonneg.mpr hbelow)] at hmid
    rw [abs_of_nonneg (sub_nonneg.mpr (hlt.le.trans hbelow))]
    exact hmid.trans_lt (sub_lt_sub_left hlt _)
  constructor
  · exact ⟨m, e, hsignificand, rfl⟩
  · intro u hu
    by_cases hdvd : 2 ^ e ∣ u
    · obtain ⟨k, rfl⟩ := hdvd
      rw [Nat.mul_comm, ← Nat.shiftLeft_eq]
      exact hmultiple k
    · exact (hother hu hdvd).le
  · intro u hu hne htie
    by_cases hdvd : 2 ^ e ∣ u
    · obtain ⟨k, rfl⟩ := hdvd
      rw [Nat.mul_comm, ← Nat.shiftLeft_eq] at hne htie
      rw [hscale, hscale] at htie
      have hk : k ≠ m := fun h => hne (h ▸ rfl)
      have hhalf := (error_least herror k).2 hk (mul_right_cancel₀ hplace.ne' htie)
      obtain ⟨c, hc⟩ := hparity hhalf
      exact ⟨c, e, hc ▸ hsignificand, by rw [← hc]⟩
    · exact absurd htie (hother hu hdvd).ne

/-- An even significand can be had below 2^53. -/
theorem EvenSignificand.normal (h : EvenSignificand t) :
    ∃ m e, 2 * m < 1 <<< 53 ∧ t = 2 * m * 2 ^ e := by
  obtain ⟨m, e, hm, rfl⟩ := h
  obtain hlt | heq := Nat.lt_or_eq_of_le hm
  · exact ⟨m, e, hlt, Nat.shiftLeft_eq _ _⟩
  · refine ⟨2 ^ 51, e + 1, by decide, ?_⟩
    rw [heq, Nat.shiftLeft_eq, Nat.one_shiftLeft, Nat.pow_succ 2 e]
    ring

/-- Between two counts of ticks with even significands there is one with an odd significand: beside
the one with the smaller last place. -/
theorem EvenSignificand.exists_between (ht : EvenSignificand t) (hu : EvenSignificand u)
    (h : t < u) : ∃ v, Representable v ∧ t < v ∧ v < u := by
  obtain ⟨m, e, hm, rfl⟩ := ht.normal
  obtain ⟨m', e', hm', rfl⟩ := hu.normal
  obtain hle | hle := Nat.le_total e e'
  · obtain ⟨d, rfl⟩ := Nat.exists_eq_add_of_le hle
    have hplace : 2 * m' * 2 ^ (e + d) = 2 * (m' * 2 ^ d) * 2 ^ e := by ring
    rw [hplace] at h ⊢
    have hmk : 2 * m < 2 * (m' * 2 ^ d) := lt_of_mul_lt_mul_right h (Nat.zero_le _)
    refine ⟨(2 * m + 1) * 2 ^ e, ⟨2 * m + 1, e, hm, (Nat.shiftLeft_eq _ _).symm⟩, ?_, ?_⟩
    · exact Nat.mul_lt_mul_of_pos_right (by omega) (Nat.two_pow_pos e)
    · exact Nat.mul_lt_mul_of_pos_right (by omega) (Nat.two_pow_pos e)
  · obtain ⟨d, rfl⟩ := Nat.exists_eq_add_of_le hle
    have hplace : 2 * m * 2 ^ (e' + d) = 2 * (m * 2 ^ d) * 2 ^ e' := by ring
    rw [hplace] at h ⊢
    have hkm : 2 * (m * 2 ^ d) < 2 * m' := lt_of_mul_lt_mul_right h (Nat.zero_le _)
    refine ⟨(2 * m' - 1) * 2 ^ e', ⟨2 * m' - 1, e', by omega, (Nat.shiftLeft_eq _ _).symm⟩, ?_, ?_⟩
    · exact Nat.mul_lt_mul_of_pos_right (by omega) (Nat.two_pow_pos e')
    · exact Nat.mul_lt_mul_of_pos_right (by omega) (Nat.two_pow_pos e')

/-- Only one count of ticks is the nearest. -/
theorem Nearest.unique {q : ℚ} (ht : Nearest q t) (hu : Nearest q u) : t = u := by
  by_contra hne
  have hequal : |q - t| = |q - u| :=
    le_antisymm (ht.least u hu.representable) (hu.least t ht.representable)
  wlog hlt : t < u generalizing t u
  · exact this hu ht (Ne.symm hne) hequal.symm (by omega)
  obtain ⟨v, hv, htv, hvu⟩ := (ht.even u hu.representable (Ne.symm hne) hequal).exists_between
    (hu.even t ht.representable hne hequal.symm) hlt
  have hleast := ht.least v hv
  have htv : (t : ℚ) < v := Nat.cast_lt.mpr htv
  have hvu : (v : ℚ) < u := Nat.cast_lt.mpr hvu
  have hmid : q = (t + u) / 2 := by
    obtain heq | heq := abs_eq_abs.mp hequal
    · linarith
    · linarith
  have ht' : |q - t| = (u - t) / 2 := by
    rw [hmid, abs_of_nonneg (by linarith)]
    ring
  have hv' : |q - v| < (u - t) / 2 := by
    rw [hmid, abs_lt]
    constructor <;> linarith
  exact absurd hleast (not_le.mpr (ht' ▸ hv'))

/-- A quotient of ticks is rounded. -/
theorem ofRatio_rounds (negative : Bool) (hden : 0 < den) :
    Rounds negative ((num : ℚ) / den / unit) (ofRatio negative num den) := by
  have hunit : (unit : ℚ) ≠ 0 := Nat.cast_ne_zero.mpr unit_pos.ne'
  have hnearest := nearest_shift_nearest num hden
  rw [← div_mul_cancel₀ ((num : ℚ) / den) hunit] at hnearest
  unfold ofRatio
  extract_lets e m
  split
  · exact .finite hnearest
  · next hlarge => exact .infinite hnearest (Nat.le_of_not_lt hlarge)

theorem Rounds.ne_nan {negative : Bool} {q : ℚ} {x : Number} (h : Rounds negative q x) :
    x ≠ .nan := by
  rintro rfl
  cases h

/-- An amount of a sign is rounded to one number only. -/
theorem Rounds.unique {negative : Bool} {q : ℚ} {x y : Number} (hx : Rounds negative q x)
    (hy : Rounds negative q y) : x = y := by
  have hoff {t u : Nat} (g : OnGrid t) (ht : Nearest (q * unit) t) (hu : Nearest (q * unit) u) :
      ¬ 1 <<< 2098 ≤ u := by
    obtain ⟨-, -, -, -, hsmall⟩ := g
    exact hu.unique ht ▸ Nat.not_le.mpr hsmall
  cases hx with
  | @finite t g ht =>
    cases hy with
    | finite hu =>
      cases ht.unique hu
      rfl
    | infinite hu hlarge => exact absurd hlarge (hoff g ht hu)
  | infinite hu hlarge =>
    cases hy with
    | @finite t g ht => exact absurd hlarge (hoff g ht hu)
    | infinite _ _ => rfl

end Grid

/-- Digits with some of them behind a point are rounded. -/
theorem ofDecimal_rounds (negative : Bool) (whole fraction : List Char) :
    Rounds negative (Decimal.amount whole fraction)
      (ofDecimal negative (ofDigits (whole ++ fraction)) (-(fraction.length : Int))) := by
  have hunit : (unit : ℚ) ≠ 0 := Nat.cast_ne_zero.mpr unit_pos.ne'
  have hamount : Decimal.amount whole fraction =
      (ofDigits (whole ++ fraction) * unit : Nat) / (10 ^ fraction.length : Nat) / unit := by
    have hpow : (10 : ℚ) ^ fraction.length ≠ 0 := pow_ne_zero _ (by norm_num)
    rw [Decimal.amount, ofDigits_append]
    push_cast
    field_simp
  have hdecimal : ofDecimal negative (ofDigits (whole ++ fraction)) (-(fraction.length : Int)) =
      ofRatio negative (ofDigits (whole ++ fraction) * unit) (10 ^ fraction.length) := by
    cases fraction.length with
    | zero => exact congrArg (fun n => ofRatio negative (n * unit) 1) (Nat.mul_one _)
    | succ n => rfl
  rw [hamount, hdecimal]
  exact ofRatio_rounds negative (Nat.pow_pos (by decide))

end PathLanguage.Number
