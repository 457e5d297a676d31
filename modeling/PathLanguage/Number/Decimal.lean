/-
Decimal text of numbers: the fewest digits that read back, a fixed number of places, and reading.
-/
import PathLanguage.Number.Arithmetic

namespace PathLanguage

/-- A whole number of powers of ten. -/
structure Decimal where
  digits : Nat
  exponent : Int
deriving DecidableEq

namespace Decimal

/-- The decimal digits of a natural number, most significant first. -/
def digitChars (n : Nat) : List Char := Nat.toDigits 10 n

def dropTrailingZeros (cs : List Char) : List Char := (cs.reverse.dropWhile (· == '0')).reverse

/-- Integer digits and fraction digits of a number of units of 10^-places. -/
def split (n places : Nat) : List Char × List Char :=
  let cs := digitChars n
  let padded := List.replicate (places + 1 - cs.length) '0' ++ cs
  padded.splitAt (padded.length - places)

/-- Positional text with neither an exponent nor a trailing zero in the fraction. -/
def text (d : Decimal) : String :=
  match d.exponent with
  | .ofNat e => String.ofList (digitChars (d.digits * Nat.pow 10 e))
  | .negSucc e =>
    let (whole, fraction) := split d.digits (e + 1)
    match dropTrailingZeros fraction with
    | [] => String.ofList whole
    | f => String.ofList (whole ++ '.' :: f)

end Decimal

namespace Number

/-- Quarter ticks from a positive finite value down and up to where reading rounds to its
neighbours, and whether those ends still read back as the value. -/
def readingInterval (ticks : Nat) : Nat × Nat × Bool :=
  let e := ticks.log2 - 52
  let m := ticks >>> e
  let gap := 1 <<< e
  (if m = 1 <<< 52 ∧ e ≠ 0 then gap else 2 * gap, 2 * gap, m % 2 == 0)

/-- The decimal exponent k with 10^(k-1) ≤ value < 10^k. -/
def decimalExponent (ticks : Nat) : Int :=
  if unit ≤ ticks then ((Decimal.digitChars (ticks / unit)).length : Int)
  else lower 1 330
where
  lower (j : Nat) : Nat → Int
    | 0 => 1 - (j : Int)
    | fuel + 1 => if unit ≤ ticks * Nat.pow 10 j then 1 - (j : Int) else lower (j + 1) fuel

/-- The multiple of 10^exponent nearest to the value among its two neighbours that read back, the
upper one of two equally near. -/
def shortOn? (ticks : Nat) (exponent : Int) : Option Decimal :=
  let (low, high, closed) := readingInterval ticks
  let scale : Nat := match exponent with
    | .ofNat _ => 1
    | .negSucc e => Nat.pow 10 (e + 1)
  let grid : Nat := match exponent with
    | .ofNat e => Nat.pow 10 e * (4 * unit)
    | .negSucc _ => 4 * unit
  let value := 4 * ticks * scale
  let d := value / grid
  let r := value % grid
  let inside (gap limit : Nat) : Bool := decide (gap < limit) || (closed && gap == limit)
  let down := inside r (low * scale)
  let up := inside (grid - r) (high * scale)
  if up && (!down || decide (grid ≤ 2 * r)) then some ⟨d + 1, exponent⟩
  else if down then some ⟨d, exponent⟩
  else none

/-- The shortest decimal that reads back, by growing numbers of digits up to seventeen. -/
def shortest (ticks : Nat) : Decimal :=
  let k := decimalExponent ticks
  let rec search (count : Nat) : Nat → Decimal
    | 0 => ⟨ticks * Nat.pow 10 1074 / unit, -1074⟩
    | fuel + 1 => (shortOn? ticks (k - count)).getD (search (count + 1) fuel)
  search 1 17

/-- Shortest positional text; negative zero keeps its sign. -/
def text : Number → String
  | .nan => "NaN"
  | .infinite s => if s then "-Infinity" else "Infinity"
  | .finite s t _ =>
    let body := if t = 0 then "0" else (shortest t).text
    if s then "-" ++ body else body

/-- The decimal with exactly the given number of places nearest to the magnitude, ties to even:
its integer digits and its fraction digits. -/
def fixedPlaces (places : Nat) : Number → List Char × List Char
  | .finite _ t _ => Decimal.split (nearest (t * Nat.pow 10 places) unit) places
  | _ => ([], [])

end Number

end PathLanguage
