/-
Number formats: the symbols of a decimal format, pictures, and the text of a number in a picture.
-/
import PathLanguage.Fault
import PathLanguage.Number.Decimal

namespace PathLanguage

/-- The symbols of a decimal format. -/
structure NumberFormat where
  decimalSeparator : Char := '.'
  groupingSeparator : Char := ','
  infinity : String := "Infinity"
  minus : Char := '-'
  nan : String := "NaN"
  percent : Char := '%'
  perMille : Char := '\u2030'
  zero : Char := '0'
  digit : Char := '#'
  patternSeparator : Char := ';'
deriving DecidableEq

/-- What a picture says: the text around the digits, how many digits there are at least and at
most, the group size, and the factor that percent and per-mille signs ask for. -/
structure Picture where
  lead : List Char := []
  trail : List Char := []
  leastWhole : Nat := 0
  leastFraction : Nat := 0
  mostFraction : Nat := 0
  grouping : Option Nat := none
  multiplier : Number := 1

/-- What is known of the digits of a picture while they are read. -/
structure DigitScan where
  inFraction : Bool := false
  sinceGrouping : Option Nat := none
  sawDigit : Bool := false
  sawWholeZero : Bool := false
  sawFractionDigit : Bool := false
  leastWhole : Nat := 0
  leastFraction : Nat := 0
  mostFraction : Nat := 0

/-- Text around the digits, without its quotes, and the factor its signs ask for. -/
structure Affix where
  text : List Char := []
  multiplier : Option Number := none

namespace NumberFormat

/-- Whether a character belongs to the digits of a picture. -/
def isPictureDigit (f : NumberFormat) (c : Char) : Bool :=
  c == f.digit || c == f.zero || c == f.groupingSeparator || c == f.decimalSeparator

def multiplier? (f : NumberFormat) (c : Char) : Option Number :=
  if c == f.percent then some 100 else if c == f.perMille then some 1000 else none

/-- One character of an affix outside the quotes that it may open or close. -/
def Affix.push (f : NumberFormat) (quoted : Bool) (c : Char) (a : Affix) : Affix where
  text := c :: a.text
  multiplier := if quoted then a.multiplier else a.multiplier <|> f.multiplier? c

/-- The text before the first digit that is not quoted, and the rest from there. -/
def readLead (f : NumberFormat) (quoted : Bool) : List Char → Affix × List Char
  | [] => ({}, [])
  | c :: cs =>
    if !quoted && f.isPictureDigit c then ({}, c :: cs)
    else if c == '\'' then f.readLead (!quoted) cs
    else
      let (a, rest) := f.readLead quoted cs
      (Affix.push f quoted c a, rest)

/-- The text after the digits; no further digit may stand in it unquoted. -/
def readTrail (f : NumberFormat) (quoted : Bool) : List Char → Except PictureFault Affix
  | [] => if quoted then .error .unclosedQuote else .ok {}
  | c :: cs =>
    if !quoted && f.isPictureDigit c then .error (.malformed c)
    else if c == '\'' then f.readTrail (!quoted) cs
    else (f.readTrail quoted cs).map (Affix.push f quoted c)

/-- Reads one character of the digits. -/
def DigitScan.step (f : NumberFormat) (s : DigitScan) (c : Char) : Except PictureFault DigitScan :=
  if c == f.decimalSeparator then
    if s.inFraction then .error .severalDecimalSeparators else .ok { s with inFraction := true }
  else if c == f.groupingSeparator then
    if s.inFraction then .error .groupingInFraction else .ok { s with sinceGrouping := some 0 }
  else if s.inFraction then
    if c == f.zero then
      if s.sawFractionDigit then .error (.unexpected c f.digit)
      else .ok { s with
        sawDigit := true
        leastFraction := s.leastFraction + 1
        mostFraction := s.mostFraction + 1 }
    else .ok { s with
      sawDigit := true
      sawFractionDigit := true
      mostFraction := s.mostFraction + 1 }
  else if c == f.zero then
    .ok { s with
      sawDigit := true
      sawWholeZero := true
      leastWhole := s.leastWhole + 1
      sinceGrouping := s.sinceGrouping.map (· + 1) }
  else if s.sawWholeZero then .error (.unexpected c f.zero)
  else .ok { s with sawDigit := true, sinceGrouping := s.sinceGrouping.map (· + 1) }

/-- Reads a picture without a pattern separator. -/
def readPicture (f : NumberFormat) (cs : List Char) : Except PictureFault Picture := do
  let (lead, rest) := f.readLead false cs
  let scan ← (rest.takeWhile f.isPictureDigit).foldlM (DigitScan.step f) {}
  if !scan.sawDigit then throw .noDigits
  let trail ← f.readTrail false (rest.dropWhile f.isPictureDigit)
  return {
    lead := lead.text
    trail := trail.text
    leastWhole := scan.leastWhole
    leastFraction := scan.leastFraction
    mostFraction := scan.mostFraction
    grouping := scan.sinceGrouping.filter (0 < ·)
    multiplier := (trail.multiplier <|> lead.multiplier).getD 1 }

/-- The digit of the format for a decimal digit; other characters stay. -/
def localize (f : NumberFormat) (c : Char) : Char :=
  if c.isDigit then
    let code := f.zero.toNat + (c.toNat - '0'.toNat)
    if code.isValidChar then Char.ofNat code else c
  else c

/-- Puts the separator before each character from which a multiple of `size` remain, the first
character excepted. -/
def group (separator : Char) (size : Nat) : List Char → List Char
  | [] => []
  | [c] => [c]
  | c :: d :: cs =>
    if (cs.length + 1) % size == 0 then c :: separator :: group separator size (d :: cs)
    else c :: group separator size (d :: cs)

/-- Drops zeros from the end of the fraction as long as more than `least` digits remain. -/
def trimFraction (least : Nat) (cs : List Char) : List Char :=
  cs.take least ++ Decimal.dropTrailingZeros (cs.drop least)

/-- The digits of a value that is not negative: its whole part and fraction, padded and grouped. -/
def formatDigits (f : NumberFormat) (n : Number) (p : Picture) : List Char :=
  let (wholeDigits, fractionDigits) :=
    if n.isInfinite then (['i', 'n', 'f'], []) else n.fixedPlaces p.mostFraction
  let fraction := trimFraction p.leastFraction fractionDigits
  let trimmed := wholeDigits.dropWhile (· == '0')
  let padded := List.replicate (p.leastWhole - trimmed.length) '0' ++ trimmed
  let whole := if padded.isEmpty && fraction.isEmpty then ['0'] else padded
  let localized := whole.map f.localize
  let grouped := match p.grouping with
    | some size => group f.groupingSeparator size localized
    | none => localized
  if fraction.isEmpty then grouped
  else grouped ++ f.decimalSeparator :: fraction.map f.localize

/-- The parts of a picture before and after the first pattern separator. -/
def splitPicture (f : NumberFormat) (cs : List Char) : List Char × Option (List Char) :=
  match cs.dropWhile (· != f.patternSeparator) with
  | [] => (cs, none)
  | _ :: rest => (cs.takeWhile (· != f.patternSeparator), some rest)

/-- The text of a number. Only the affixes of a negative picture are used; without one the minus
sign goes in front. -/
def format (f : NumberFormat) (n : Number) (picture : String) : Except Fault String := do
  let read (cs : List Char) : Except Fault Picture :=
    (f.readPicture cs).mapError (Fault.badPicture picture)
  let (positiveText, negativeText) := f.splitPicture picture.toList
  let positive ← read positiveText
  if n.isNaN then return f.nan
  let (lead, trail) ←
    if n.lt 0 then
      match negativeText with
      | some cs => do
        let negative ← read cs
        pure (negative.lead, negative.trail)
      | none => pure (f.minus :: positive.lead, positive.trail)
    else pure (positive.lead, positive.trail)
  let body :=
    if n.isInfinite then f.infinity.toList
    else f.formatDigits (n.abs * positive.multiplier) positive
  return String.ofList (lead ++ body ++ trail)

end NumberFormat

/-- The default format and the named ones; of two formats of one name the first counts. -/
structure NumberFormats where
  default : NumberFormat := {}
  named : List (ExpandedName × NumberFormat) := []

namespace NumberFormats

/-- Adds a format under a name, or replaces the default. -/
def register (fs : NumberFormats) (name : Option ExpandedName) (f : NumberFormat) : NumberFormats :=
  match name with
  | some n => { fs with named := (n, f) :: fs.named }
  | none => { fs with default := f }

end NumberFormats

end PathLanguage
