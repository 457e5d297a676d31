/-
Nodes: a place in a document, held as the chain of steps from the root with what stands at each.
-/
import PathLanguage.Tree.Basic

namespace PathLanguage

/-- A tree with its identity. A structural document answers only what its shape tells: it knows no
base URIs, IDs or entities, and its nodes have no order relative to other documents. -/
structure Document where
  id : Nat
  structural : Bool
  tree : Tree

inductive Node where
  | root (document : Document)
  | child (parent : Node) (index : Nat) (tree : Tree)
  | attribute (parent : Node) (index : Nat) (item : Attribute)
  | namespaceNode (parent : Node) (index : Nat) (binding : NamespaceBinding)

namespace Node

def document : Node → Document
  | .root d => d
  | .child p _ _ | .attribute p _ _ | .namespaceNode p _ _ => p.document

def tree? : Node → Option Tree
  | .root d => some d.tree
  | .child _ _ t => some t
  | .attribute .. | .namespaceNode .. => none

def kind : Node → NodeKind
  | .root d => d.tree.kind
  | .child _ _ t => t.kind
  | .attribute .. => .attribute
  | .namespaceNode .. => .namespaceNode

/-- The name as written; a namespace node carries its prefix twice. -/
def name : Node → Option QualifiedName
  | .root d => d.tree.name
  | .child _ _ t => t.name
  | .attribute _ _ a => some a.name
  | .namespaceNode _ _ b => some ⟨some b.declared, b.declared, none⟩

/-- The name with its prefix resolved; a namespace node is named by its prefix. -/
def expandedName (n : Node) : Option ExpandedName := n.name.map QualifiedName.expand

def stringValue : Node → String
  | .root d => d.tree.stringValue
  | .child _ _ t => t.stringValue
  | .attribute _ _ a => a.value
  | .namespaceNode _ _ b => b.uri

def parent : Node → Option Node
  | .root _ => none
  | .child p _ _ | .attribute p _ _ | .namespaceNode p _ _ => some p

/-- The ancestors, nearest first. -/
def ancestors : Node → List Node
  | .root _ => []
  | .child p _ _ | .attribute p _ _ | .namespaceNode p _ _ => p :: p.ancestors

def top (n : Node) : Node := .root n.document

/-- The nodes for a run of child trees, the first of which has the given index. -/
def childNodes (parent : Node) : Nat → List Tree → List Node
  | _, [] => []
  | i, t :: ts => .child parent i t :: childNodes parent (i + 1) ts

def attributeNodes (parent : Node) : Nat → List Attribute → List Node
  | _, [] => []
  | i, a :: as => .attribute parent i a :: attributeNodes parent (i + 1) as

def namespaceNodes (parent : Node) : Nat → List NamespaceBinding → List Node
  | _, [] => []
  | i, b :: bs => .namespaceNode parent i b :: namespaceNodes parent (i + 1) bs

def children (n : Node) : List Node := n.childNodes 0 ((n.tree?.map Tree.children).getD [])

def attributes (n : Node) : List Node := n.attributeNodes 0 ((n.tree?.map Tree.attributes).getD [])

def namespaces (n : Node) : List Node := n.namespaceNodes 0 ((n.tree?.map Tree.namespaces).getD [])

/-- Reached from the root by steps that the document really has. -/
inductive Valid : Node → Prop
  | root (d : Document) : Valid (.root d)
  | child {p : Node} {n : Node} : Valid p → n ∈ p.children → Valid n
  | attribute {p : Node} {n : Node} : Valid p → n ∈ p.attributes → Valid n
  | namespaceNode {p : Node} {n : Node} : Valid p → n ∈ p.namespaces → Valid n

mutual

/-- A node that stands at a tree and the nodes below it, each followed by what `attached` adds. -/
def walkTree (attached : Node → List Node) (n : Node) : Tree → List Node
  | .document _ _ cs | .element _ _ _ _ cs => n :: (attached n ++ walkForest attached n 0 cs)
  | .text _ | .comment _ | .instruction .. => n :: attached n

def walkForest (attached : Node → List Node) (parent : Node) (i : Nat) : List Tree → List Node
  | [] => []
  | t :: ts => walkTree attached (.child parent i t) t ++ walkForest attached parent (i + 1) ts

end

/-- The node and everything below it in document order, each node with its attached ones. -/
def walk (attached : Node → List Node) (n : Node) : List Node :=
  match n.tree? with
  | some t => walkTree attached n t
  | none => [n]

/-- Every node of a subtree: a node, its namespace nodes, its attributes, then its children. -/
def everything (n : Node) : List Node := n.walk fun m => m.namespaces ++ m.attributes

def descendantsOrSelf (n : Node) : List Node := n.walk fun _ => []

def descendants (n : Node) : List Node := n.descendantsOrSelf.tail

end Node

end PathLanguage
