/-
Numbers as hosts write them: decimals with an optional sign and exponent, infinities and NaN. Every
text that a number prints reads back as that number.
-/
import PathLanguage.Number.Text

namespace PathLanguage.Number

/-- The sign of a literal, and what follows it. -/
def splitSign : List Char → Bool × List Char
  | '-' :: rest => (true, rest)
  | '+' :: rest => (false, rest)
  | cs => (false, cs)

/-- The exponent that digits with an optional sign denote. -/
def readExponent (cs : List Char) : Int :=
  let (negative, digits) := splitSign cs
  if negative then -(ofDigits digits : Int) else ofDigits digits

/-- The value nearest to a decimal literal. -/
def ofLiteral (s : String) : Number :=
  let (negative, cs) := splitSign s.toList
  let word := String.ofList (cs.map Char.toLower)
  if word == "inf" || word == "infinity" then .infinite negative
  else if word == "nan" then .nan
  else
    let marksExponent (c : Char) : Bool := c == 'e' || c == 'E'
    let mantissa := cs.takeWhile (!marksExponent ·)
    let exponent := (cs.dropWhile (!marksExponent ·)).drop 1
    let whole := mantissa.takeWhile (· != '.')
    let fraction := (mantissa.dropWhile (· != '.')).drop 1
    ofDecimal negative (ofDigits (whole ++ fraction)) (readExponent exponent - fraction.length)

end PathLanguage.Number
