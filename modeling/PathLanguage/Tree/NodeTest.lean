/-
Node tests: selection by kind and by name.
-/
import PathLanguage.Number.Decimal
import PathLanguage.Tree.Node

namespace PathLanguage

inductive NodeTest where
  | any
  /-- Any node that an element can have as a child. -/
  | anyChild
  | nothing
  | ofKind (kind : NodeKind)
  | named (kind : NodeKind) (name : ExpandedName)
  | inNamespace (kind : NodeKind) (uri : String)
deriving DecidableEq

namespace NodeTest

def accepts (n : Node) : NodeTest → Bool
  | .any => true
  | .anyChild =>
    match n.kind with
    | .element | .text | .comment | .instruction => true
    | _ => false
  | .nothing => false
  | .ofKind k => n.kind == k
  | .named k name => n.kind == k && n.expandedName == some name
  | .inNamespace k uri => n.kind == k && n.expandedName.any fun e => e.uri == some uri

/-- The only kind a test accepts, when its form tells. -/
def kind? : NodeTest → Option NodeKind
  | .ofKind k | .named k _ | .inNamespace k _ => some k
  | .any | .anyChild | .nothing => none

def name? : NodeTest → Option ExpandedName
  | .named _ n => some n
  | _ => none

/-- The more a test says, the higher it ranks among match rules. -/
def priority : NodeTest → Number
  | .named .. => 0
  | .inNamespace .. => .ofDecimal true 25 (-2)
  | _ => .ofDecimal true 5 (-1)

def text : NodeTest → String
  | .any => "node()"
  | .anyChild => "child-node()"
  | .nothing => "empty()"
  | .ofKind .element | .ofKind .attribute | .ofKind .namespaceNode => "*"
  | .ofKind .document => "document-node()"
  | .ofKind k => k.label ++ "()"
  | .named .instruction n => "processing-instruction('" ++ n.text ++ "')"
  | .named _ n => n.text
  | .inNamespace _ uri => "\x7b" ++ uri ++ "\x7d*"

end NodeTest

end PathLanguage
