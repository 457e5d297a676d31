/-
Percent encoding: bytes as a percent sign and two hexadecimal digits, and which characters of each
part of a URI are written so.
-/

namespace PathLanguage.Uri

def hexDigit (n : Nat) : Char := (Nat.toDigits 16 n).headD '0' |>.toUpper

def percentByte (b : UInt8) : List Char :=
  ['%', hexDigit (b.toNat / 16), hexDigit (b.toNat % 16)]

/-- Percent-encodes the bytes of the characters outside ASCII, of controls, and of those listed. -/
def encode (reserved : List Char) (cs : List Char) : List Char :=
  cs.flatMap fun c =>
    if c.toNat < 0x20 || 0x7f ≤ c.toNat || reserved.contains c then
      (String.singleton c).toUTF8.toList.flatMap percentByte
    else [c]

def reservedInPath : List Char := [' ', '"', '<', '>', '\x60', '#', '?', '\x7b', '\x7d']

def encodePath : List Char → List Char := encode reservedInPath

def encodeQuery (special : Bool) : List Char → List Char :=
  encode ([' ', '"', '<', '>', '#'] ++ if special then ['\''] else [])

/-- Encodes a user name or a password. -/
def encodeUser : List Char → List Char :=
  encode (reservedInPath ++ ['/', ':', ';', '=', '@', '[', '\\', ']', '^', '|'])

def hexValue? (c : Char) : Option Nat :=
  if c.isDigit then some (c.toNat - '0'.toNat)
  else if 'a' ≤ c && c ≤ 'f' then some (c.toNat - 'a'.toNat + 10)
  else if 'A' ≤ c && c ≤ 'F' then some (c.toNat - 'A'.toNat + 10)
  else none

/-- The number that two hexadecimal digits write. -/
def hexPair? (a b : Char) : Option Nat := do return 16 * (← hexValue? a) + (← hexValue? b)

/-- The bytes of a text in which a percent sign and two digits stand for a byte. -/
def decodedBytes : List Char → List UInt8
  | [] => []
  | '%' :: a :: b :: rest =>
    match hexPair? a b with
    | some n => n.toUInt8 :: decodedBytes rest
    | none => 0x25 :: decodedBytes (a :: b :: rest)
  | c :: rest => (String.singleton c).toUTF8.toList ++ decodedBytes rest

/-- The text that percent-encoded bytes write, if they write one. -/
def decode? (cs : List Char) : Option (List Char) :=
  (String.fromUTF8? ⟨(decodedBytes cs).toArray⟩).map String.toList

end PathLanguage.Uri
