/-
Blanks: the four white-space characters of XML, the words between them, and the wider white space
of Unicode.
-/

namespace PathLanguage.Text

/-- Space, tab, carriage return and line feed. -/
def isBlank (c : Char) : Bool := c == ' ' || c == '\t' || c == '\r' || c == '\n'

/-- The property White_Space. -/
def isWhiteSpace (c : Char) : Bool :=
  let n := c.toNat
  (0x9 ≤ n && n ≤ 0xd) || n == 0x20 || n == 0x85 || n == 0xa0 || n == 0x1680 ||
    (0x2000 ≤ n && n ≤ 0x200a) || n == 0x2028 || n == 0x2029 || n == 0x202f || n == 0x205f ||
    n == 0x3000

/-- The text without its leading and trailing blanks. -/
def trim (cs : List Char) : List Char := ((cs.dropWhile isBlank).reverse.dropWhile isBlank).reverse

/-- The maximal runs of characters outside a class, in order. -/
def wordsBy (separates : Char → Bool) : List Char → List (List Char)
  | [] => []
  | c :: rest =>
    if separates c then wordsBy separates rest
    else match rest with
      | [] => [[c]]
      | d :: _ =>
        if separates d then [c] :: wordsBy separates rest
        else match wordsBy separates rest with
          | [] => [[c]]
          | w :: ws => (c :: w) :: ws

/-- The parts of a text between the characters of a class, empty ones included. -/
def splitBy (separates : Char → Bool) : List Char → List (List Char)
  | [] => [[]]
  | c :: rest =>
    if separates c then [] :: splitBy separates rest
    else match splitBy separates rest with
      | part :: parts => (c :: part) :: parts
      | [] => [[c]]

def words (s : String) : List String := (wordsBy isBlank s.toList).map String.ofList

/-- The words joined by single spaces. -/
def normalize (s : String) : String := " ".intercalate (words s)

end PathLanguage.Text
