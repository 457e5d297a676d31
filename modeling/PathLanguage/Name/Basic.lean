/-
Names: unprefixed and qualified names as text, and names expanded by their namespace.
-/
import PathLanguage.Text.Category

namespace PathLanguage

namespace Name

def isStartChar (c : Char) : Bool := Text.isAlphabetic c || c == '_'

def isChar (c : Char) : Bool :=
  Text.isAlphabetic c || Text.isNumeric c || c == '_' || c == '-' || c == '.' || c == '\u00b7'

/-- A name without a colon. -/
def isUnqualified : List Char → Bool
  | [] => false
  | c :: rest => isStartChar c && rest.all isChar

/-- The parts before and after the first colon. -/
def splitColon? : List Char → Option (List Char × List Char)
  | [] => none
  | c :: rest =>
    if c == ':' then some ([], rest) else (splitColon? rest).map fun p => (c :: p.1, p.2)

/-- An unqualified name, or two of them joined by a colon. -/
def isQualified (cs : List Char) : Bool :=
  match splitColon? cs with
  | some (lead, rest) => isUnqualified lead && isUnqualified rest
  | none => isUnqualified cs

/-- Namespace prefix and local part; the prefix is empty when there is no colon. -/
def split (s : String) : String × String :=
  match splitColon? s.toList with
  | some (lead, rest) => (String.ofList lead, String.ofList rest)
  | none => ("", s)

def xmlNamespace : String := "http://www.w3.org/XML/1998/namespace"

def xsltNamespace : String := "http://www.w3.org/1999/XSL/Transform"

/-- The namespace of the EXSLT set functions. -/
def setsNamespace : String := "http://exslt.org/sets"

end Name

/-- A name with its prefix resolved away; the empty URI is no namespace. -/
structure ExpandedName where
  uri : Option String
  localName : String
deriving DecidableEq, Inhabited

namespace ExpandedName

def make (uri : Option String) (localName : String) : ExpandedName :=
  ⟨uri.filter (· != ""), localName⟩

def unqualified (localName : String) : ExpandedName := ⟨none, localName⟩

/-- The URI in braces, if any, and the local name. -/
def text (n : ExpandedName) : String :=
  match n.uri with
  | some u => "\x7b" ++ u ++ "\x7d" ++ n.localName
  | none => n.localName

/-- The name that a text in the same form stands for. -/
def ofText (s : String) : ExpandedName :=
  match s.toList with
  | c :: rest =>
    if c == '\x7b' then
      .make (some (String.ofList (rest.takeWhile (· != '\x7d'))))
        (String.ofList ((rest.dropWhile (· != '\x7d')).drop 1))
    else .unqualified s
  | [] => .unqualified s

end ExpandedName

/-- A name as a document writes it, together with the namespace its prefix stands for. -/
structure QualifiedName where
  nsPrefix : Option String
  localName : String
  uri : Option String
deriving DecidableEq, Inhabited

namespace QualifiedName

def unqualified (localName : String) : QualifiedName := ⟨none, localName, none⟩

/-- Prefix, colon and local part, or the local part alone. -/
def text (n : QualifiedName) : String :=
  match n.nsPrefix with
  | none | some "" => n.localName
  | some p => p ++ ":" ++ n.localName

def expand (n : QualifiedName) : ExpandedName := .make n.uri n.localName

end QualifiedName

end PathLanguage
