/-
Punycode: a text as ASCII. The ASCII characters come first, then for each further character, in the
order of code points, how many places and code points lie between it and the one before. These
distances are written with digits of base 36 whose weights adapt to the sizes met so far.
-/

namespace PathLanguage.Punycode

def digitChar (d : Nat) : Char := if d < 26 then Char.ofNat (0x61 + d) else Char.ofNat (0x16 + d)

/-- The value of a digit; either case of a letter will do. -/
def digitValue? (c : Char) : Option Nat :=
  if c.isLower then some (c.toNat - 0x61)
  else if c.isUpper then some (c.toNat - 0x41)
  else if c.isDigit then some (c.toNat - 0x30 + 26)
  else none

/-- Digits below the threshold of their place end a distance. -/
def threshold (bias place : Nat) : Nat := min 26 (max 1 (36 * place - bias))

theorem one_le_threshold (bias place : Nat) : 1 ≤ threshold bias place := by
  unfold threshold
  omega

theorem threshold_le (bias place : Nat) : threshold bias place ≤ 26 := by
  unfold threshold
  omega

/-- Divides a distance by 35 until it is small, and counts how often. -/
def scale (distance steps : Nat) : Nat × Nat :=
  if 455 < distance then scale (distance / 35) (steps + 1) else (distance, steps)
termination_by distance
decreasing_by omega

/-- The bias for the next distance, from the last one and the number of characters placed. -/
def adapt (distance count : Nat) (isFirst : Bool) : Nat :=
  let halved := if isFirst then distance / 700 else distance / 2
  let (small, steps) := scale (halved + halved / count) 0
  36 * steps + 36 * small / (small + 38)

/-- The digits of a distance. -/
def digits (bias place distance : Nat) : List Char :=
  let t := threshold bias place
  if distance < t then [digitChar distance]
  else digitChar (t + (distance - t) % (36 - t)) ::
    digits bias (place + 1) ((distance - t) / (36 - t))
termination_by distance
decreasing_by
  have lower := one_le_threshold bias place
  have upper := threshold_le bias place
  exact Nat.lt_of_le_of_lt (Nat.div_le_self _ _) (by omega)

/-- The digits written so far, and what the next distance is counted from. -/
structure Encoder where
  written : List Char
  distance : Nat
  bias : Nat
  count : Nat

/-- Passes one character while the characters with code point `n` are written: smaller ones are
placed already and count as a place. -/
def Encoder.pass (n basic : Nat) (e : Encoder) (c : Char) : Encoder :=
  if c.toNat < n then { e with distance := e.distance + 1 }
  else if c.toNat = n then
    ⟨e.written ++ digits e.bias 1 e.distance, 0,
      adapt e.distance (e.count + 1) (e.count == basic), e.count + 1⟩
  else e

/-- Writes all characters of the given code points, which ascend; `next` is the first code point not
yet counted. -/
def encodeFrom (cs : List Char) (basic next : Nat) (e : Encoder) : List Nat → Encoder
  | [] => e
  | n :: rest =>
    let start := { e with distance := e.distance + (n - next) * (e.count + 1) }
    let passed := cs.foldl (Encoder.pass n basic) start
    encodeFrom cs basic (n + 1) { passed with distance := passed.distance + 1 } rest

def isBasic (c : Char) : Bool := c.toNat < 0x80

def encode (cs : List Char) : List Char :=
  let basic := cs.filter isBasic
  let others := (((cs.filter (!isBasic ·)).map Char.toNat).mergeSort (· ≤ ·)).eraseDups
  let lead := if basic.isEmpty then [] else basic ++ ['-']
  lead ++ (encodeFrom cs basic.length 0x80 ⟨[], 0, 72, basic.length⟩ others).written

/-- A distance that the text begins with, and what follows it. -/
def distance? (bias : Nat) : (place weight : Nat) → List Char → Option (Nat × List Char)
  | _, _, [] => none
  | place, weight, c :: rest => do
    let d ← digitValue? c
    let t := threshold bias place
    if d < t then return (d * weight, rest)
    let (more, rest) ← distance? bias (place + 1) (weight * (36 - t)) rest
    return (d * weight + more, rest)

/-- Numbers up to here are told apart. -/
def limit : Nat := 1 <<< 32

/-- Places the characters that a text of distances tells of; `start` and `next` are the place and
the code point that the first distance counts from. -/
def placeUpTo : (most : Nat) → (placed : List Char) → (start next bias : Nat) → (isFirst : Bool) →
    List Char → Option (List Char)
  | _, placed, _, _, _, _, [] => some placed
  | 0, _, _, _, _, _, _ :: _ => none
  | n + 1, placed, start, next, bias, isFirst, c :: cs => do
    let (distance, rest) ← distance? bias 1 1 (c :: cs)
    let size := placed.length + 1
    let reached := start + distance
    let code := next + reached / size
    let place := reached % size
    if reached < limit && code.isValidChar then
      placeUpTo n (placed.take place ++ Char.ofNat code :: placed.drop place) (place + 1) code
        (adapt distance size isFirst) false rest
    else none

/-- The text that is written as another; what does not follow the last hyphen is basic. -/
def decode? (cs : List Char) : Option (List Char) :=
  let back := cs.reverse
  let tail := (back.takeWhile (· != '-')).reverse
  let basic := (back.dropWhile (· != '-')).reverse.dropLast
  let tail := if basic.isEmpty then cs else tail
  placeUpTo tail.length basic 0 0x80 72 true tail

end PathLanguage.Punycode
