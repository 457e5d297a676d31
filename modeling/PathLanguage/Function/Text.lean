/-
The string functions: substrings by position and by content, and the replacement of single
characters.
-/
import PathLanguage.Number.Arithmetic
import PathLanguage.Text.Blank

namespace PathLanguage.Function

/-- The characters at the positions from the rounded start on, below the rounded end if a length is
given; positions count from one. -/
def substring (s : String) (start : Number) (length : Option Number) : String :=
  let first := start.round
  let inside (p : Nat) : Bool :=
    first.le (.ofNat p) &&
      match length with
      | some l => (Number.ofNat p).lt (first + l.round)
      | none => true
  String.ofList ((s.toList.zipIdx 1).filterMap fun (c, p) => if inside p then some c else none)

/-- The parts of a text before and after the first occurrence of another. -/
def splitAt? (sep : List Char) : List Char → Option (List Char × List Char)
  | [] => if sep.isEmpty then some ([], []) else none
  | c :: rest =>
    if sep.isPrefixOf (c :: rest) then some ([], (c :: rest).drop sep.length)
    else (splitAt? sep rest).map fun p => (c :: p.1, p.2)

def contains (s part : String) : Bool := (splitAt? part.toList s.toList).isSome

def startsWith (s part : String) : Bool := part.toList.isPrefixOf s.toList

/-- The text before the first occurrence of another; nothing comes before an empty one. -/
def substringBefore (s sep : String) : String :=
  String.ofList (((splitAt? sep.toList s.toList).map (·.1)).getD [])

/-- The text after the first occurrence of another; everything comes after an empty one. -/
def substringAfter (s sep : String) : String :=
  String.ofList (((splitAt? sep.toList s.toList).map (·.2)).getD [])

/-- The character that another is translated to by its first occurrence in `source`: the one at the
same place of `target`, or none at all. -/
def translateChar (c : Char) : (source target : List Char) → Option Char
  | [], _ => some c
  | s :: source, target =>
    if c == s then target.head? else translateChar c source target.tail

def translate (s source target : String) : String :=
  String.ofList (s.toList.filterMap fun c => translateChar c source.toList target.toList)

def asciiLower (s : String) : String :=
  String.ofList (s.toList.map Char.toLower)

/-- Whether a language is the wanted one or a variety of it, whatever the case. -/
def speaks (actual wanted : String) : Bool :=
  asciiLower actual == asciiLower wanted ||
    ((asciiLower wanted).toList ++ ['-']).isPrefixOf (asciiLower actual).toList

end PathLanguage.Function
