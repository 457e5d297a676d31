/-
Calls of system functions: the arguments each function evaluates, in order, and its result.
-/
import PathLanguage.Evaluation.Value
import PathLanguage.Function.Resource
import PathLanguage.Function.Text

namespace PathLanguage.Function

/-- One call: the function, its arguments, the node bound to it and the scope it was read in. -/
structure Call where
  function : SystemFunction
  args : List Expr
  bound : Option Node
  scope : Option Scope
  context : Context

namespace Call

/-- The node that a call without argument applies to. -/
def focus (c : Call) : Action Node :=
  match c.bound with
  | some n => return n
  | none => c.context.node

def arg (c : Call) (i : Nat) : Action Expr :=
  match c.args[i]? with
  | some e => return e
  | none => .fail (.missingArgument i c.function.signature.name)

def stringArg (c : Call) (E : Engine) (i : Nat) : Action String := do
  E.string (← c.arg i) c.context

def numberArg (c : Call) (E : Engine) (i : Nat) : Action Number := do
  E.number (← c.arg i) c.context

def booleanArg (c : Call) (E : Engine) (i : Nat) : Action Bool := do
  E.boolean (← c.arg i) c.context

def valueArg (c : Call) (E : Engine) (i : Nat) : Action Value := do
  E.value (← c.arg i) c.context

def nodeSetArg (c : Call) (E : Engine) (i : Nat) : Action NodeSet := do
  E.nodeSet (← c.arg i) c.context

/-- The result of an evaluation of an argument that may be left out. -/
def optionalArg {α : Type} (c : Call) (i : Nat) (evaluate : Expr → Context → Action α) :
    Action (Option α) :=
  match c.args[i]? with
  | some e => return some (← evaluate e c.context)
  | none => return none

/-- The first node of the argument, or the node in focus if there is no argument. -/
def subject (c : Call) (T : Transformation) (E : Engine) : Action (Option Node) :=
  match c.args with
  | e :: _ => do (← E.nodeSet e c.context).first T E
  | [] => return some (← c.focus)

/-- The string of the argument, or of the node in focus if there is no argument. -/
def subjectString (c : Call) (E : Engine) : Action String :=
  match c.args with
  | e :: _ => E.string e c.context
  | [] => return (← c.focus).stringValue

/-- The strings of all arguments, joined. -/
def joinedArgs (E : Engine) (context : Context) : List Expr → Action String
  | [] => return ""
  | e :: rest => return (← E.string e context) ++ (← joinedArgs E context rest)

def nameOf (n : Option Node) : String := ((n.bind Node.name).map QualifiedName.text).getD ""

def localNameOf (n : Option Node) : String := ((n.bind Node.name).map (·.localName)).getD ""

def namespaceUriOf (n : Option Node) : String :=
  ((n.bind Node.expandedName).bind (·.uri)).getD ""

def run (T : Transformation) (E : Engine) (c : Call) : Action Value := do
  match c.function with
  | .last => return .number (.ofNat c.context.last)
  | .position => return .number (.ofNat c.context.position)
  | .count => return .number (.ofNat (← (← c.nodeSetArg E 0).count T E))
  | .current => return .nodeSet (.ofOption (some (← c.context.current)))
  | .id => do
    let v ← c.valueArg E 0
    byId T E v (← c.focus)
  | .key => do
    let name ← c.stringArg E 0
    let v ← c.valueArg E 1
    byKey T E name v c.scope (← c.focus) c.context
  | .document => do
    let v ← c.valueArg E 0
    documents T E v (← c.optionalArg 1 E.nodeSet) c.scope
  | .localName => return .string (localNameOf (← c.subject T E))
  | .namespaceUri => return .string (namespaceUriOf (← c.subject T E))
  | .name => return .string (nameOf (← c.subject T E))
  | .generateId => return .string (((← c.subject T E).map Node.generateId).getD "")
  | .not => return .boolean (!(← c.booleanArg E 0))
  | .true => return .boolean Bool.true
  | .false => return .boolean Bool.false
  | .boolean => return .boolean (← c.booleanArg E 0)
  | .lang => do
    let wanted ← c.stringArg E 0
    let n ← c.focus
    return .boolean (n.language.any (speaks · wanted))
  | .number =>
    match c.args with
    | e :: _ => return .number (← E.number e c.context)
    | [] => return .number (.ofText (← c.focus).stringValue)
  | .floor => return .number (← c.numberArg E 0).floor
  | .ceiling => return .number (← c.numberArg E 0).ceil
  | .round => return .number (← c.numberArg E 0).round
  | .sum => return .number (← sum T E (← c.nodeSetArg E 0))
  | .string => return .string (← c.subjectString E)
  | .startsWith => return .boolean (startsWith (← c.stringArg E 0) (← c.stringArg E 1))
  | .stringLength => return .number (.ofNat (← c.subjectString E).length)
  | .substring =>
    return .string (substring (← c.stringArg E 0) (← c.numberArg E 1) (← c.optionalArg 2 E.number))
  | .contains => return .boolean (contains (← c.stringArg E 0) (← c.stringArg E 1))
  | .substringBefore => return .string (substringBefore (← c.stringArg E 0) (← c.stringArg E 1))
  | .substringAfter => return .string (substringAfter (← c.stringArg E 0) (← c.stringArg E 1))
  | .normalizeSpace => return .string (Text.normalize (← c.subjectString E))
  | .translate =>
    return .string (translate (← c.stringArg E 0) (← c.stringArg E 1) (← c.stringArg E 2))
  | .concat => return .string (← joinedArgs E c.context c.args)
  | .formatNumber => do
    let n ← c.numberArg E 0
    let picture ← c.stringArg E 1
    let format ← c.optionalArg 2 E.string
    return .string (← .ofExcept (formatNumber T c.scope n picture format))
  | .systemProperty =>
    return systemProperty (← .ofExcept (resolveName c.scope (← c.stringArg E 0)))
  | .functionAvailable => do
    let name ← .ofExcept (resolveName c.scope (← c.stringArg E 0))
    return .boolean (isFunctionAvailable T c.scope name)
  | .elementAvailable => do
    let name ← .ofExcept (resolveName c.scope (← c.stringArg E 0))
    return .boolean (Scope.isElementAvailable name)
  | .unparsedEntityUri => do
    let n ← c.focus
    return .string ((n.unparsedEntityUri (← c.stringArg E 0)).getD "")
  | .hasSameNode => do
    let a ← c.nodeSetArg E 0
    return .boolean (← haveSameNode T E a (← c.nodeSetArg E 1))
  | .leading => do
    let a ← c.nodeSetArg E 0
    return .nodeSet (← leading T E a (← c.nodeSetArg E 1))
  | .trailing => do
    let a ← c.nodeSetArg E 0
    return .nodeSet (← trailing T E a (← c.nodeSetArg E 1))

end Call

end PathLanguage.Function
