/-
Node paths: the place of a node in its document as text. A slash is the root; behind it come the
indexes of children, of attributes after an at sign and of namespace nodes after a hash sign.
-/
import PathLanguage.Tree.Order

namespace PathLanguage

namespace Place

def text : Place → String
  | .namespaceAt i => "#" ++ toString i
  | .attributeAt i => "@" ++ toString i
  | .childAt i => toString i

end Place

namespace Node

def pathText (n : Node) : String := "/" ++ "/".intercalate (n.address.map Place.text)

/-- The part of a node at a place given as text. -/
def part? (n : Node) (place : String) : Option Node :=
  match place.toList with
  | '@' :: i => (String.ofList i).toNat?.bind (n.attributes[·]?)
  | '#' :: i => (String.ofList i).toNat?.bind (n.namespaces[·]?)
  | _ => place.toNat?.bind (n.children[·]?)

/-- The node that a path leads to from a node. -/
def follow? (n : Node) (path : String) : Option Node :=
  ((path.splitOn "/").filter (· != "")).foldlM part? n

end Node

end PathLanguage
