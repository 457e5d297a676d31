/-
Expressions, with the values and node-sets that may stand in them as constants.
-/
import PathLanguage.Comparison
import PathLanguage.NodeSet.Extent
import PathLanguage.Scope
import PathLanguage.Tree.Axis
import PathLanguage.Tree.NodeTest

namespace PathLanguage

/-- The operations that combine two node-sets. -/
inductive SetOperator where
  | union
  | intersect
  | except
deriving DecidableEq

namespace SetOperator

def all : List SetOperator := [.union, .intersect, .except]

def symbol : SetOperator → String
  | .union => "|"
  | .intersect => "intersect"
  | .except => "except"

def ofSymbol? (s : String) : Option SetOperator := all.find? fun o => o.symbol == s

end SetOperator

inductive Connective where
  | and
  | or
deriving DecidableEq

def Connective.symbol : Connective → String
  | .and => "and"
  | .or => "or"

inductive ArithmeticOp where
  | plus
  | minus
  | times
  | div
  | mod
deriving DecidableEq

namespace ArithmeticOp

def symbol : ArithmeticOp → String
  | .plus => "+"
  | .minus => "-"
  | .times => "*"
  | .div => "div"
  | .mod => "mod"

def all : List ArithmeticOp := [.plus, .minus, .times, .div, .mod]

def ofSymbol? (s : String) : Option ArithmeticOp := all.find? fun o => o.symbol == s

def apply : ArithmeticOp → Number → Number → Number
  | .plus, a, b => a + b
  | .minus, a, b => a - b
  | .times, a, b => a * b
  | .div, a, b => a / b
  | .mod, a, b => a % b

end ArithmeticOp

inductive SortDirection where
  | ascending
  | descending
deriving DecidableEq

inductive SortType where
  | text
  | number
deriving DecidableEq

inductive CaseOrder where
  | upperFirst
  | lowerFirst
deriving DecidableEq

/-- How the values of one sort key compare. The language is kept for the host. -/
structure SortRule where
  direction : SortDirection := .ascending
  type : SortType := .text
  caseOrder : CaseOrder := .upperFirst
  language : Option String := none
deriving DecidableEq

/-- The greatest position, which also stands for an open end. -/
def openEnd : Nat := 1 <<< 64 - 1

mutual

/-- A node-set value. -/
inductive NodeSet where
  | empty
  /-- At most one node; one that is not navigable is the root of a result tree fragment. -/
  | single (node : Option Node) (navigable : Bool)
  | extent (e : Extent)
  /-- A node-set that an expression without dependencies defines; the session keeps its state. -/
  | intent (id : Nat) (definition : Expr)

inductive Value where
  | string (s : String)
  | number (n : Number)
  | boolean (b : Bool)
  | nodeSet (ns : NodeSet)
  /-- A host value, known by its text. -/
  | object (text : String)

inductive Expr where
  | value (v : Value)
  /-- The root of the tree of the context node. -/
  | root
  | contextNode
  | parentNode
  /-- The node that was current when the outermost evaluation began. -/
  | currentNode
  | attribute (name : ExpandedName)
  | path (start : Expr) (axis : Axis) (test : NodeTest) (predicates : List Expr)
  /-- A step without predicates, from its origin once reduced, else from the context node. -/
  | axis (axis : Axis) (test : NodeTest) (origin : Option Node)
  | filter (base predicate : Expr)
  | set (op : SetOperator) (left right : Expr)
  | distinct (base : Expr)
  | distinctBy (base key : Expr)
  | logical (op : Connective) (left right : Expr)
  | compare (op : Comparison) (left right : Expr)
  /-- Compares the node of an expression with at most one node to a string or number. -/
  | compareNode (op : Comparison) (node : Expr) (scalar : Value)
  /-- Whether some node stands in the relation to a string or number. -/
  | compareNodes (op : Comparison) (nodes : Expr) (scalar : Value)
  | arithmetic (op : ArithmeticOp) (left right : Expr)
  | negate (operand : Expr)
  /-- A call of a system function; once reduced, `bound` stands in for the context node. -/
  | call (function : SystemFunction) (args : List Expr) (bound : Option Node)
      (scope : Option Scope)
  | extension (name : ExpandedName) (args : List Expr)
  | reference (binding : Binding)
  /-- Whether the context position lies between two positions, both included. -/
  | positionRange (least most : Nat)
  /-- Whether the context position is the last one, or is not. -/
  | isLast (wanted : Bool)
  /-- The concatenation of the parts of an attribute value template. -/
  | template (parts : List Expr)
  | sorted (base : Expr) (keys : List Expr) (rules : List SortRule)
  /-- A fault that is raised when the expression is evaluated. -/
  | failure (fault : Fault)

end

namespace Constant

def toValue : Constant → Value
  | .string s => .string s
  | .number n => .number n
  | .boolean b => .boolean b

end Constant

namespace NodeSet

/-- The set of an optional node. -/
def ofOption : Option Node → NodeSet
  | some n => .single (some n) true
  | none => .empty

/-- A result tree fragment with a given root. -/
def fragment (root : Node) : NodeSet := .single (some root) false

def ofNodes (nodes : List Node) (sorted : Bool) : NodeSet :=
  if nodes.isEmpty then .empty else .extent (.ofNodes nodes sorted)

/-- Everything but a result tree fragment may be navigated. -/
def isNavigable : NodeSet → Bool
  | .single _ navigable => navigable
  | _ => true

end NodeSet

namespace Value

def type : Value → DataType
  | .string _ => .string
  | .number _ => .number
  | .boolean _ => .boolean
  | .nodeSet _ => .nodeSet
  | .object _ => .object

end Value

namespace Expr

/-- Whether evaluation delivers nodes one by one and never a constant. -/
def isNodeSetExpr : Expr → Bool
  | .root | .contextNode | .parentNode | .currentNode | .attribute _ | .path .. | .axis ..
  | .filter .. | .set .. | .distinct _ | .distinctBy .. | .sorted .. => true
  | _ => false

/-- Whether the form alone tells that there is at most one node. -/
def isSingleton : Expr → Bool
  | .root | .contextNode | .parentNode | .currentNode | .attribute _ => true
  | _ => false

def isValue : Expr → Bool
  | .value _ => true
  | _ => false

def isEmptyNodeSet : Expr → Bool
  | .value (.nodeSet .empty) => true
  | _ => false

/-- The static type. -/
def type : Expr → DataType
  | .value v => v.type
  | .logical .. | .compare .. | .compareNode .. | .compareNodes .. | .positionRange ..
  | .isLast _ => .boolean
  | .arithmetic .. | .negate _ => .number
  | .call f _ _ _ => f.result
  | .reference b => (b.constant.map fun c => c.toValue.type).getD .any
  | .template _ => .string
  | .extension .. | .failure _ => .any
  | _ => .nodeSet

/-- The direct subexpressions, in the order of their evaluation. -/
def children : Expr → List Expr
  | .path start _ _ predicates => start :: predicates
  | .filter b p => [b, p]
  | .set _ l r | .logical _ l r | .compare _ l r | .arithmetic _ l r => [l, r]
  | .distinct b => [b]
  | .distinctBy b k => [b, k]
  | .compareNode _ e _ | .compareNodes _ e _ | .negate e => [e]
  | .call _ args _ _ | .extension _ args => args
  | .template parts => parts
  | .sorted base keys _ => base :: keys
  | _ => []

end Expr

end PathLanguage
