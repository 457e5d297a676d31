/- Digits before and after a decimal separator denote an amount, to which zeros at their outer ends
add nothing. -/
import Mathlib.Data.List.DropRight
import Mathlib.Data.Rat.Defs
import Mathlib.Tactic.Ring
import PathLanguage.Number.Text

namespace PathLanguage

namespace Number

theorem ofDigits_append (xs ys : List Char) :
    ofDigits (xs ++ ys) = ofDigits xs * 10 ^ ys.length + ofDigits ys := by
  induction ys using List.reverseRecOn with
  | nil => simp [ofDigits]
  | append_singleton ys y ih =>
    have hlast (zs : List Char) :
        ofDigits (zs ++ [y]) = 10 * ofDigits zs + (y.toNat - '0'.toNat) := by
      simp [ofDigits]
    rw [← List.append_assoc, hlast, hlast, ih, List.length_append, List.length_singleton]
    ring

theorem ofDigits_zeros {zs : List Char} (h : ∀ c ∈ zs, c = '0') : ofDigits zs = 0 := by
  induction zs with
  | nil => rfl
  | cons c zs ih =>
    obtain ⟨rfl, hzs⟩ := List.forall_mem_cons.mp h
    exact ih hzs

end Number

namespace Decimal

/-- What whole digits and the digits of a fraction denote together. -/
def amount (whole fraction : List Char) : ℚ :=
  Number.ofDigits whole + Number.ofDigits fraction / 10 ^ fraction.length

variable {zs whole fraction : List Char}

theorem amount_zeros_append (h : ∀ c ∈ zs, c = '0') :
    amount (zs ++ whole) fraction = amount whole fraction := by
  rw [amount, Number.ofDigits_append, Number.ofDigits_zeros h, zero_mul, zero_add]
  rfl

theorem amount_append_zeros (h : ∀ c ∈ zs, c = '0') :
    amount whole (fraction ++ zs) = amount whole fraction := by
  have hpow : (10 : ℚ) ^ zs.length ≠ 0 := pow_ne_zero _ (by norm_num)
  rw [amount, amount, Number.ofDigits_append, Number.ofDigits_zeros h, List.length_append, pow_add,
    add_zero, Nat.cast_mul, Nat.cast_pow, Nat.cast_ofNat, mul_div_mul_right _ _ hpow]

/-- Only zeros are dropped from the end of digits. -/
theorem dropTrailingZeros_append (cs : List Char) :
    ∃ zs, (∀ c ∈ zs, c = '0') ∧ cs = dropTrailingZeros cs ++ zs := by
  refine ⟨cs.rtakeWhile (· == '0'), fun c hc => ?_, ?_⟩
  · exact eq_of_beq (List.mem_rtakeWhile_imp (p := (· == '0')) hc)
  · exact (List.rdropWhile_append_rtakeWhile ..).symm

/-- Digits from whose end zeros are dropped end in no zero. -/
theorem getLast?_dropTrailingZeros (cs : List Char) :
    (dropTrailingZeros cs).getLast? ≠ some '0' := by
  intro h
  change (cs.rdropWhile (· == '0')).getLast? = some '0' at h
  have hne : cs.rdropWhile (· == '0') ≠ [] := List.ne_nil_of_mem (List.mem_of_getLast? h)
  rw [List.getLast?_eq_some_getLast hne, Option.some_inj] at h
  exact List.rdropWhile_last_not (· == '0') cs hne (beq_iff_eq.mpr h)

/-- As many of the digits of a number of units of a power of ten as its exponent are those of the
fraction; all of them are digits. -/
theorem split_spec (n places : Nat) :
    (∀ c ∈ (split n places).1 ++ (split n places).2, c.isDigit = true) ∧
      (split n places).2.length = places := by
  let padded := List.replicate (places + 1 - (digitChars n).length) '0' ++ digitChars n
  have hsplit : split n places =
      (padded.take (padded.length - places), padded.drop (padded.length - places)) :=
    List.splitAt_eq
  have hlength : places + 1 ≤ padded.length := by
    simp only [padded, List.length_append, List.length_replicate]
    omega
  refine ⟨fun c hc => ?_, ?_⟩
  · rw [hsplit, List.take_append_drop] at hc
    rcases List.mem_append.mp hc with hc | hc
    · rw [List.eq_of_mem_replicate hc]
      rfl
    · exact Nat.isDigit_of_mem_toDigits (by decide) (by decide) hc
  · rw [hsplit, List.length_drop]
    omega

end Decimal

/-- A finite number is rendered in digits, with as many of a fraction as wanted. -/
theorem Number.fixedPlaces_spec {x : Number} (hn : x.isNaN = false) (hi : x.isInfinite = false)
    (places : Nat) :
    (∀ c ∈ (x.fixedPlaces places).1 ++ (x.fixedPlaces places).2, c.isDigit = true) ∧
      (x.fixedPlaces places).2.length = places := by
  cases x with
  | nan => cases hn
  | infinite s => cases hi
  | finite s t g => exact Decimal.split_spec _ _

end PathLanguage
