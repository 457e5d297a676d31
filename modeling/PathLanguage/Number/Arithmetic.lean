/-
Arithmetic on numbers: each operation is exact on ticks and rounds once.
-/
import PathLanguage.Number.Basic

namespace PathLanguage.Number

def neg : Number → Number
  | .nan => .nan
  | .infinite s => .infinite (!s)
  | .finite s t g => .finite (!s) t g

def abs : Number → Number
  | .nan => .nan
  | .infinite _ => .infinite false
  | .finite _ t g => .finite false t g

/-- A sum of finite values that cancel is zero, negative only when both were. -/
def add : Number → Number → Number
  | .nan, _ | _, .nan => .nan
  | .infinite a, .infinite b => if a = b then .infinite a else .nan
  | .infinite a, .finite .. => .infinite a
  | .finite .., .infinite b => .infinite b
  | .finite a s _, .finite b t _ =>
    match signedTicks a s + signedTicks b t with
    | .ofNat 0 => zero (a && b)
    | .ofNat n => ofTicks false n
    | .negSucc n => ofTicks true (n + 1)

def sub (a b : Number) : Number := add a (neg b)

def mul : Number → Number → Number
  | .nan, _ | _, .nan => .nan
  | .infinite a, .infinite b => .infinite (a != b)
  | .infinite a, .finite b t _ | .finite b t _, .infinite a =>
    if t = 0 then .nan else .infinite (a != b)
  | .finite a s _, .finite b t _ => ofRatio (a != b) (s * t) unit

def div : Number → Number → Number
  | .nan, _ | _, .nan => .nan
  | .infinite _, .infinite _ => .nan
  | .infinite a, .finite b _ _ => .infinite (a != b)
  | .finite a _ _, .infinite b => zero (a != b)
  | .finite a s _, .finite b t _ =>
    if t = 0 then (if s = 0 then .nan else .infinite (a != b))
    else ofRatio (a != b) (s * unit) t

/-- The remainder of the truncated quotient, with the sign of the dividend. -/
def rem : Number → Number → Number
  | .nan, _ | _, .nan => .nan
  | .infinite _, _ => .nan
  | .finite a s g, .infinite _ => .finite a s g
  | .finite a s _, .finite _ t _ => if t = 0 then .nan else ofTicks a (s % t)

instance : Neg Number := ⟨neg⟩
instance : Add Number := ⟨add⟩
instance : Sub Number := ⟨sub⟩
instance : Mul Number := ⟨mul⟩
instance : Div Number := ⟨div⟩
instance : Mod Number := ⟨rem⟩

/-- Whether a value is finite and whole. -/
def isWhole : Number → Bool
  | .finite _ t _ => t % unit == 0
  | _ => false

/-- The magnitude without its fraction, for finite values that are not negative. -/
def truncate? : Number → Option Nat
  | .finite false t _ => some (t / unit)
  | .finite true 0 _ => some 0
  | _ => none

def floor : Number → Number
  | .finite s t _ =>
    ofTicks s ((if s && t % unit != 0 then t / unit + 1 else t / unit) * unit)
  | n => n

def ceil : Number → Number
  | .finite s t _ =>
    ofTicks s ((if !s && t % unit != 0 then t / unit + 1 else t / unit) * unit)
  | n => n

/-- One half. -/
def half : Number := ofTicks false (1 <<< 1073)

/-- The nearest whole value, the upper of two equally near; what rounds to zero from below keeps
its sign. -/
def round (x : Number) : Number :=
  if x.isNaN || x.isInfinite || x.eq 0 then x
  else if (-half).le x && x.lt 0 then zero true
  else
    let f := x.floor
    if half.le (x - f) then f + 1 else f

end PathLanguage.Number
