/-
Numbers and text: the numeral grammar of XPath and the boolean and string forms of a number.
-/
import PathLanguage.Number.Decimal
import PathLanguage.Text.Blank

namespace PathLanguage.Number

/-- The natural number that decimal digits denote. -/
def ofDigits (cs : List Char) : Nat := cs.foldl (fun n c => 10 * n + (c.toNat - '0'.toNat)) 0

/-- Digits with an optional point among or before them, or digits and a final point. -/
def ofUnsignedNumeral (negative : Bool) (cs : List Char) : Number :=
  let whole := cs.takeWhile Char.isDigit
  match cs.dropWhile Char.isDigit with
  | [] => if whole.isEmpty then .nan else ofDecimal negative (ofDigits whole) 0
  | '.' :: fraction =>
    if fraction.all Char.isDigit && !(whole.isEmpty && fraction.isEmpty) then
      ofDecimal negative (ofDigits (whole ++ fraction)) (-(fraction.length : Int))
    else .nan
  | _ => .nan

/-- The number a text denotes: a numeral after an optional minus, with blanks around it; NaN for
any other text. -/
def ofText (s : String) : Number :=
  match Text.trim s.toList with
  | '-' :: cs => ofUnsignedNumeral true cs
  | cs => ofUnsignedNumeral false cs

/-- The string value of a number: its shortest text, with one zero. -/
def stringValue (n : Number) : String := if n.eq 0 then "0" else n.text

end PathLanguage.Number
