/-
Trees: documents, elements and leaves as plain data. Attributes and namespace bindings exist on
elements only, by type.
-/
import PathLanguage.Name.Basic

namespace PathLanguage

structure Attribute where
  name : QualifiedName
  value : String

/-- A namespace node: the prefix it declares and the URI it binds. -/
structure NamespaceBinding where
  declared : String
  uri : String

inductive Tree where
  | document (base : Option String) (entities : List (String × String)) (children : List Tree)
  | element (name : QualifiedName) (base : Option String) (namespaces : List NamespaceBinding)
      (attributes : List Attribute) (children : List Tree)
  | text (content : String)
  | comment (content : String)
  | instruction (target data : String)

inductive NodeKind where
  | document
  | element
  | attribute
  | text
  | comment
  | instruction
  | namespaceNode
deriving DecidableEq

namespace NodeKind

def label : NodeKind → String
  | .document => "document"
  | .element => "element"
  | .attribute => "attribute"
  | .text => "text"
  | .comment => "comment"
  | .instruction => "processing-instruction"
  | .namespaceNode => "namespace"

def all : List NodeKind :=
  [.document, .element, .attribute, .text, .comment, .instruction, .namespaceNode]

def ofLabel? (s : String) : Option NodeKind := all.find? fun k => k.label == s

end NodeKind

namespace Tree

def kind : Tree → NodeKind
  | .document .. => .document
  | .element .. => .element
  | .text _ => .text
  | .comment _ => .comment
  | .instruction .. => .instruction

def children : Tree → List Tree
  | .document _ _ cs | .element _ _ _ _ cs => cs
  | _ => []

def attributes : Tree → List Attribute
  | .element _ _ _ as _ => as
  | _ => []

def namespaces : Tree → List NamespaceBinding
  | .element _ _ ns _ _ => ns
  | _ => []

def entities : Tree → List (String × String)
  | .document _ es _ => es
  | _ => []

def base : Tree → Option String
  | .document b _ _ | .element _ b _ _ _ => b
  | _ => none

def name : Tree → Option QualifiedName
  | .element n _ _ _ _ => some n
  | .instruction target _ => some (.unqualified target)
  | _ => none

mutual

/-- The text nodes of a tree, joined in document order. -/
def textContent : Tree → String
  | .document _ _ cs | .element _ _ _ _ cs => forestContent cs
  | .text s => s
  | .comment _ | .instruction .. => ""

def forestContent : List Tree → String
  | [] => ""
  | t :: ts => textContent t ++ forestContent ts

end

/-- The string value: the text within, or the content of a leaf. -/
def stringValue : Tree → String
  | .comment s | .instruction _ s => s
  | t => textContent t

end Tree

end PathLanguage
