/-
What a node inherits or finds elsewhere in its document: language, base URI, IDs, entities and
namespace bindings.
-/
import PathLanguage.Tree.Node

namespace PathLanguage.Node

def attributeValue (n : Node) (name : ExpandedName) : Option String :=
  (n.attributes.find? fun a => a.expandedName == some name).map stringValue

/-- The value of xml:lang on the nearest element, the node included, that has one. -/
def language (n : Node) : Option String :=
  (n :: n.ancestors).findSome? fun m =>
    m.attributeValue (.make (some Name.xmlNamespace) "lang")

/-- The base URI stored nearest to a node on the way to the root. -/
def baseUri (n : Node) : Option String :=
  if n.document.structural then none
  else (n :: n.ancestors).findSome? fun m => m.tree?.bind Tree.base

/-- Whether the node is an element that has an attribute with the local name id and this value. -/
def hasId (id : String) (n : Node) : Bool :=
  ((n.tree?.map Tree.attributes).getD []).any fun a => a.name.localName == "id" && a.value == id

/-- The first element of the document with an ID. -/
def elementWithId (n : Node) (id : String) : Option Node :=
  if n.document.structural then none else n.top.descendantsOrSelf.find? (hasId id)

def unparsedEntityUri (n : Node) (name : String) : Option String :=
  if n.document.structural then none
  else (n.document.tree.entities.find? fun e => e.1 == name).map Prod.snd

/-- The URI that the nearest declaration gives to a prefix. -/
def namespaceUri? (n : Node) (declared : String) : Option String :=
  (n :: n.ancestors).findSome? fun m =>
    (((m.tree?.map Tree.namespaces).getD []).find? fun b => b.declared == declared).map (·.uri)

end PathLanguage.Node
