/-
Static scopes: what an expression's text is read against. Prefixes, declared variables, the
namespaces and functions of the host, and the address of the text.
-/
import PathLanguage.Function.Catalog
import PathLanguage.Number.Decimal

namespace PathLanguage

/-- The value of a variable known before evaluation. -/
inductive Constant where
  | string (s : String)
  | number (n : Number)
  | boolean (b : Bool)
deriving DecidableEq

/-- A variable declaration as a reference sees it. -/
structure Binding where
  name : ExpandedName
  isGlobal : Bool
  constant : Option Constant := none
deriving DecidableEq

/-- A static scope; of two declarations of one name the first in a list counts. -/
structure Scope where
  namespaces : List (String × String) :=
    [("xml", Name.xmlNamespace), ("xsl", Name.xsltNamespace)]
  bindings : List (ExpandedName × Binding) := []
  extensionNamespaces : List String := []
  extensionFunctions : List ExpandedName := []
  forwardsCompatible : Bool := false
  allowsKey : Bool := false
  baseUri : Option String := none
  systemId : Option String := none
deriving DecidableEq

namespace Scope

/-- The scope of an expression outside any stylesheet. -/
def standalone : Scope := {}

/-- Declares a prefix; that of XML itself is fixed. -/
def declareNamespace (s : Scope) (declared uri : String) : Scope :=
  if declared = "xml" then s else { s with namespaces := (declared, uri) :: s.namespaces }

def declareVariable (s : Scope) (b : Binding) : Scope :=
  { s with bindings := (b.name, b) :: s.bindings }

/-- The same prefixes and variables with every other ability left out. -/
def withoutExtras (s : Scope) : Scope := { namespaces := s.namespaces, bindings := s.bindings }

def uriForPrefix (s : Scope) (declared : String) : Except StaticFault String :=
  match s.namespaces.lookup declared with
  | some uri => .ok uri
  | none => .error (.undeclaredPrefix declared)

/-- Resolves a name; without a prefix it is in no namespace. -/
def makeName (s : Scope) (text : String) : Except StaticFault ExpandedName :=
  if Name.isQualified text.toList then
    match Name.split text with
    | ("", localName) => .ok (.unqualified localName)
    | (declared, localName) => do return .make (some (← s.uriForPrefix declared)) localName
  else .error (.invalidName text)

def bindVariable (s : Scope) (name : ExpandedName) : Except StaticFault Binding :=
  if s.bindings.isEmpty then .error .variablesNotAllowed
  else match s.bindings.lookup name with
    | some b => .ok b
    | none => .error (.undeclaredVariable name)

def isExtensionNamespace (s : Scope) (uri : String) : Bool := s.extensionNamespaces.contains uri

/-- Names of all set functions, those that are set operations included. -/
def setFunctionNames : List String :=
  ["difference", "distinct", "has-same-node", "intersection", "leading", "trailing"]

def isFunctionAvailable (s : Scope) (name : ExpandedName) : Bool :=
  s.extensionFunctions.contains name ||
    match name.uri with
    | none => (SystemFunction.ofName? name.localName).isSome
    | some uri => uri == Name.setsNamespace && setFunctionNames.contains name.localName

/-- The instructions of XSLT 1.0. -/
def instructionNames : List String :=
  ["apply-imports", "apply-templates", "attribute", "call-template", "choose", "comment", "copy",
    "copy-of", "element", "fallback", "for-each", "if", "message", "number",
    "processing-instruction", "text", "value-of", "variable"]

def isElementAvailable (name : ExpandedName) : Bool :=
  name.uri == some Name.xsltNamespace && instructionNames.contains name.localName

end Scope

end PathLanguage
