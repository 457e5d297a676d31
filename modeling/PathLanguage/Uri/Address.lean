/-
Addresses as hosts: four bytes, or eight numbers of which the longest run of zeros is left out.
-/
import PathLanguage.Text.Blank
import PathLanguage.Uri.Encoding

namespace PathLanguage.Uri

def digitsValue? (base : Nat) (ds : List Char) : Option Nat :=
  let append (n : Nat) (c : Char) : Option Nat := do
    let d ← hexValue? c
    if d < base then some (base * n + d) else none
  ds.foldlM append 0

namespace IPv4

/-- The number of a part: decimal, octal behind a zero, or hexadecimal behind `0x`. -/
def number? : List Char → Option Nat
  | [] => none
  | '0' :: x :: rest =>
    if x == 'x' || x == 'X' then digitsValue? 16 rest else digitsValue? 8 (x :: rest)
  | ds => digitsValue? 10 ds

/-- The parts of a host, without the empty one behind a final dot. -/
def parts (host : List Char) : List (List Char) :=
  let all := Text.splitBy (· == '.') host
  if all.getLast? == some [] && 1 < all.length then all.dropLast else all

/-- A host is an address, proper or not, if its last part is a number. -/
def isMeant (host : List Char) : Bool :=
  match (parts host).getLast? with
  | some p => !p.isEmpty && (p.all Char.isDigit || (number? p).isSome)
  | none => false

def textOf (n : Nat) : List Char :=
  (".".intercalate ([3, 2, 1, 0].map fun i => toString (n >>> (8 * i) % 256))).toList

/-- The address that the parts of a host stand for, the last of them filling the remaining bytes. -/
def read? (host : List Char) : Option (List Char) := do
  let numbers ← (parts host).mapM number?
  let lead := numbers.dropLast
  let tail := numbers.getLastD 0
  if 4 < numbers.length || lead.any (255 < ·) || 1 <<< (8 * (5 - numbers.length)) ≤ tail then none
  else textOf (lead.zipIdx.foldl (fun sum (n, i) => sum + n <<< (8 * (3 - i))) tail)

end IPv4

namespace IPv6

/-- A part of four digits at most. -/
def piece? (ds : List Char) : Option Nat :=
  if ds.isEmpty || 4 < ds.length then none else digitsValue? 16 ds

/-- A decimal byte without leading zeros. -/
def byte? (ds : List Char) : Option Nat := do
  let n ← digitsValue? 10 ds
  if ds.isEmpty || 255 < n || (1 < ds.length && ds.head? == some '0') then none else n

/-- Four bytes in dotted form, as two pieces. -/
def dotted? (cs : List Char) : Option (List Nat) :=
  match (Text.splitBy (· == '.') cs).mapM byte? with
  | some [a, b, c, d] => some [256 * a + b, 256 * c + d]
  | _ => none

/-- The pieces between colons; the last ones may come in dotted form. -/
def pieces? : List (List Char) → Option (List Nat)
  | [] => some []
  | [last] => ((piece? last).map ([·])).or (dotted? last)
  | p :: rest => do return (← piece? p) :: (← pieces? rest)

/-- The parts before and after the first two colons in a row. -/
def splitGap? : List Char → Option (List Char × List Char)
  | [] => none
  | ':' :: ':' :: rest => some ([], rest)
  | c :: rest => (splitGap? rest).map fun (before, after) => (c :: before, after)

def sidePieces? (cs : List Char) : Option (List Nat) :=
  if cs.isEmpty then some [] else pieces? (Text.splitBy (· == ':') cs)

/-- The eight numbers of an address; two colons in a row stand for zeros. -/
def read? (cs : List Char) : Option (List Nat) :=
  match splitGap? cs with
  | none => do
    let all ← sidePieces? cs
    if all.length = 8 then some all else none
  | some (before, after) => do
    if before.contains '.' then none
    else
      let lead ← sidePieces? before
      let tail ← sidePieces? after
      let given := lead.length + tail.length
      if given < 8 then some (lead ++ List.replicate (8 - given) 0 ++ tail) else none

/-- The place and the length of the first of the longest runs of zeros. -/
def longestRun : (place : Nat) → List Nat → Nat × Nat
  | place, [] => (place, 0)
  | place, n :: rest =>
    let here := ((n :: rest).takeWhile (· == 0)).length
    let later := longestRun (place + 1) rest
    if later.2 ≤ here then (place, here) else later

def hexText (ns : List Nat) : List Char :=
  [':'].intercalate (ns.map (Nat.toDigits 16))

/-- The text of an address; two zeros or more in a row are left out once. -/
def textOf (ns : List Nat) : List Char :=
  let (place, length) := longestRun 0 ns
  if length < 2 then hexText ns
  else hexText (ns.take place) ++ [':', ':'] ++ hexText (ns.drop (place + length))

end IPv6

end PathLanguage.Uri
