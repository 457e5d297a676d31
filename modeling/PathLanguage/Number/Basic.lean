/-
Numbers: the binary64 values, with every finite one held exactly as a count of ticks of 2^-1074.
Rounding a quotient of naturals to the nearest value is the only source of inexactness.
-/

namespace PathLanguage

/-- Tick counts of finite values: at most 53 significant bits, below 2^1024 in magnitude. -/
def OnGrid (ticks : Nat) : Prop :=
  ∃ m e, m ≤ 1 <<< 53 ∧ ticks = m <<< e ∧ ticks < 1 <<< 2098

/-- A binary64 value. Both zeros are finite with no ticks; all NaNs are one. -/
inductive Number where
  | nan
  | infinite (negative : Bool)
  | finite (negative : Bool) (ticks : Nat) (grid : OnGrid ticks)
deriving DecidableEq

namespace Number

/-- The ticks of the number one. -/
def unit : Nat := 1 <<< 1074

/-- The integer nearest to a quotient, the even one of two equally near. -/
def nearest (num den : Nat) : Nat :=
  let q := num / den
  let r := num % den
  if 2 * r < den then q else if den < 2 * r then q + 1 else q + q % 2

theorem nearest_le (num den : Nat) : nearest num den ≤ num / den + 1 := by
  unfold nearest
  simp only
  split
  · omega
  · split
    · omega
    · omega

theorem nearest_significand_le (num den : Nat) :
    nearest num (den <<< ((num / den).log2 - 52)) ≤ 1 <<< 53 := by
  refine Nat.le_trans (nearest_le _ _) ?_
  rw [Nat.shiftLeft_eq, Nat.one_shiftLeft, ← Nat.div_div_eq_div_mul]
  have hlog : num / den < 2 ^ ((num / den).log2 + 1) := Nat.lt_log2_self
  have hpow : 2 ^ ((num / den).log2 + 1) ≤ 2 ^ (53 + ((num / den).log2 - 52)) :=
    Nat.pow_le_pow_right (by decide) (by omega)
  have hlt : num / den < 2 ^ 53 * 2 ^ ((num / den).log2 - 52) := by
    rw [← Nat.pow_add]; exact Nat.lt_of_lt_of_le hlog hpow
  exact (Nat.div_lt_iff_lt_mul (Nat.pow_pos (by decide))).mpr hlt

/-- The value nearest to a quotient of ticks, ties to the even significand. -/
def ofRatio (negative : Bool) (num den : Nat) : Number :=
  let e := (num / den).log2 - 52
  let m := nearest num (den <<< e)
  if h : m <<< e < 1 <<< 2098 then
    .finite negative (m <<< e) ⟨m, e, nearest_significand_le num den, rfl, h⟩
  else .infinite negative

/-- The value nearest to a whole number of ticks. -/
def ofTicks (negative : Bool) (ticks : Nat) : Number := ofRatio negative ticks 1

def ofNat (n : Nat) : Number := ofTicks false (n * unit)

instance (n : Nat) : OfNat Number n := ⟨ofNat n⟩

def zero (negative : Bool) : Number := ofTicks negative 0

/-- The value nearest to digits · 10^exponent. -/
def ofDecimal (negative : Bool) (digits : Nat) : (exponent : Int) → Number
  | .ofNat e => ofRatio negative (digits * Nat.pow 10 e * unit) 1
  | .negSucc e => ofRatio negative (digits * unit) (Nat.pow 10 (e + 1))

def isNaN : Number → Bool
  | .nan => true
  | _ => false

def isInfinite : Number → Bool
  | .infinite _ => true
  | _ => false

/-- The signed tick count of a finite value; the two zeros share theirs. -/
def signedTicks (negative : Bool) (ticks : Nat) : Int :=
  if negative then -(ticks : Int) else ticks

/-- Order of two values; a NaN has none, and the two zeros are equal. -/
def cmp? : Number → Number → Option Ordering
  | .nan, _ | _, .nan => none
  | .infinite a, .infinite b => some (if a = b then .eq else if a then .lt else .gt)
  | .infinite a, .finite .. => some (if a then .lt else .gt)
  | .finite .., .infinite b => some (if b then .gt else .lt)
  | .finite a s _, .finite b t _ => some (compare (signedTicks a s) (signedTicks b t))

def eq (a b : Number) : Bool := cmp? a b == some .eq

def lt (a b : Number) : Bool := cmp? a b == some .lt

def le (a b : Number) : Bool := cmp? a b == some .lt || cmp? a b == some .eq

/-- The smaller of two values, the other one beside a NaN. -/
def min (a b : Number) : Number := if a.isNaN then b else if b.lt a then b else a

/-- The larger of two values, the other one beside a NaN. -/
def max (a b : Number) : Number := if a.isNaN then b else if a.lt b then b else a

/-- Neither zero nor NaN. -/
def truth : Number → Bool
  | .nan => false
  | .infinite _ => true
  | .finite _ t _ => t != 0

end Number

end PathLanguage
