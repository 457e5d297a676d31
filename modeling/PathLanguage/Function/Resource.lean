/-
Functions that reach beyond their arguments: names read in the static scope, IDs, keys, documents
and what the host provides.
-/
import PathLanguage.Evaluation.Value
import PathLanguage.Text.Blank
import PathLanguage.Tree.Lookup
import PathLanguage.Uri

namespace PathLanguage.Function

/-- The name that an argument denotes in the scope of the call; without one prefixes are unknown. -/
def resolveName (scope : Option Scope) (text : String) : Except Fault ExpandedName :=
  let cs := Text.trim text.toList
  let name := String.ofList cs
  if !Name.isQualified cs then .error (.invalidNameArgument name)
  else match scope with
    | some s => (s.makeName name).mapError .unresolvedName
    | none =>
      match Name.split name with
      | ("", localName) => .ok (.unqualified localName)
      | (declared, _) => .error (.prefixWithoutScope declared)

/-- The strings that an argument stands for: one per member of a node-set, else its own. -/
def argumentStrings (T : Transformation) (E : Engine) : Value → Action (List String)
  | .nodeSet ns => return (← ns.members T E).map Node.stringValue
  | v => return [← v.asString T E]

def sortedSet (nodes : List Node) : Action Value :=
  return .nodeSet (.ofNodes (← .ofExcept (Node.sortDistinct nodes)) true)

/-- The elements of a document whose IDs are among the words of the argument. -/
def byId (T : Transformation) (E : Engine) (v : Value) (n : Node) : Action Value := do
  let ids := (← argumentStrings T E v).flatMap Text.words
  sortedSet (ids.filterMap n.elementWithId)

/-- Searches a key for each of some values. -/
def searchAll (E : Engine) (name : ExpandedName) (root : Node) (context : Context) :
    List String → Action (List Node)
  | [] => return []
  | s :: rest => return (← E.search name s root context) ++ (← searchAll E name root context rest)

def byKey (T : Transformation) (E : Engine) (name : String) (v : Value) (scope : Option Scope)
    (n : Node) (context : Context) : Action Value := do
  let keyName ← .ofExcept (resolveName scope name)
  if (T.keysNamed keyName).isEmpty then throw (.undefinedKey name)
  sortedSet (← searchAll E keyName n.top context (← argumentStrings T E v))

/-- The document at an absolute URI, which is asked for once if it exists. -/
def loadDocument (T : Transformation) (uri : String) : Action (Option Node) := do
  match (← get).documents.lookup uri with
  | some root => return some root
  | none =>
    match T.resolver with
    | none => throw (.noResolver uri)
    | some resolver =>
      modify fun s => { s with requested := s.requested ++ [uri] }
      match ← .ofExcept (resolver uri) with
      | none => return none
      | some root =>
        modify fun s => { s with documents := s.documents ++ [(uri, root)] }
        return some root

/-- Loads the documents that references name, each relative to its own base. -/
def loadAll (T : Transformation) : List (String × Option String) → Action (List Node)
  | [] => return []
  | (reference, base) :: rest => do
    let uri ← .ofExcept ((Uri.resolve reference base).mapError (Fault.badUri reference))
    let root ← loadDocument T uri
    return root.toList ++ (← loadAll T rest)

/-- The documents that an argument names. A base node given by the caller comes before the base of
the nodes that name them, or before that of the expression. -/
def documents (T : Transformation) (E : Engine) (v : Value) (baseNodes : Option NodeSet)
    (scope : Option Scope) : Action Value := do
  let explicit ← match baseNodes with
    | some ns => do pure ((← ns.first T E).bind Node.baseUri)
    | none => pure none
  let requests ← match v with
    | .nodeSet ns =>
      pure ((← ns.members T E).map fun n => (n.stringValue, explicit <|> n.baseUri))
    | v => do pure [(← v.asString T E, explicit <|> scope.bind (·.baseUri))]
  sortedSet (← loadAll T requests)

def vendor : String := "Stylus"

def vendorUrl : String := "https://github.com/stylus-xml/stylus"

/-- The properties that every XSLT processor has; any other is empty. -/
def systemProperty (name : ExpandedName) : Value :=
  if name.uri = some Name.xsltNamespace then
    match name.localName with
    | "version" => .number 1
    | "vendor" => .string vendor
    | "vendor-url" => .string vendorUrl
    | _ => .string ""
  else .string ""

def isFunctionAvailable (T : Transformation) (scope : Option Scope) (name : ExpandedName) : Bool :=
  (scope.getD .standalone).isFunctionAvailable name || T.functions.contains name

/-- The text of a number in a picture by the default format or a named one. -/
def formatNumber (T : Transformation) (scope : Option Scope) (n : Number) (picture : String)
    (format : Option String) : Except Fault String :=
  match format with
  | none => T.formats.default.format n picture
  | some text => do
    match T.formats.named.lookup (← resolveName scope text) with
    | some f => f.format n picture
    | none => throw (.undefinedFormat text)

/-- Whether two node-sets have a member in common. -/
def haveSameNode (T : Transformation) (E : Engine) (a b : NodeSet) : Action Bool := do
  let right ← b.members T E
  E.find (fun n => right.any n.same) (← a.enumerate T E)

/-- The members of one node-set on one side of the first member of another, which must be a member
of both; nothing is told if the other is empty. -/
def besideFirst (T : Transformation) (E : Engine) (a b : NodeSet) (side : Ordering) :
    Action (Option NodeSet) := do
  match ← b.first T E with
  | none => return none
  | some pivot =>
    let nodes := (← a.materialize T E).nodes
    if !nodes.any pivot.same then return some .empty
    if nodes.any fun n => (n.order? pivot).isNone then throw .unordered
    return some (.ofNodes (nodes.filter fun n => n.order? pivot == some side) true)

/-- The members before the first member of another set; all of them if that is empty. -/
def leading (T : Transformation) (E : Engine) (a b : NodeSet) : Action NodeSet :=
  return (← besideFirst T E a b .lt).getD a

/-- The members after the first member of another set; none of them if that is empty. -/
def trailing (T : Transformation) (E : Engine) (a b : NodeSet) : Action NodeSet :=
  return (← besideFirst T E a b .gt).getD .empty

/-- The sum of the numbers of the members, as often as they are enumerated. -/
def sum (T : Transformation) (E : Engine) (ns : NodeSet) : Action Number :=
  return (← ns.members T E).foldl (fun total n => total + .ofText n.stringValue) 0

end PathLanguage.Function
