/-
The grammar of expressions, one reader for each level of binding strength. Readers take as
`nested` the reader of the expressions inside brackets and parentheses.
-/
import PathLanguage.Expr.Basic
import PathLanguage.Token.Reader

namespace PathLanguage.Grammar

/-- Fails unless an expression may be a node-set. -/
def requireNodeSet (e : Expr) (construct : String) : Reader Unit :=
  match e.type with
  | .nodeSet | .any => return ()
  | found => Reader.fail (.notANodeSet construct found)

/-- Operands joined by operators of one strength, the left ones first. -/
def chainUpTo (operator? : Token → Option (Expr → Expr → Expr)) (operand : Reader Expr) :
    (limit : Nat) → Expr → Reader Expr
  | 0, e => return e
  | n + 1, e => do
    match (← Reader.peek?).bind operator? with
    | none => return e
    | some make =>
      Reader.advance
      chainUpTo operator? operand n (make e (← operand))

def chain (operator? : Token → Option (Expr → Expr → Expr)) (operand : Reader Expr) :
    Reader Expr := do
  let first ← operand
  chainUpTo operator? operand (← Reader.remaining) first

/-- Expressions in brackets, as many as follow; `check` looks at each behind its bracket. -/
def bracketedUpTo (nested : Reader Expr) : (limit : Nat) → Reader (List Expr)
  | 0 => return []
  | n + 1 => do
    if (← Reader.peek?) = some .openBracket then
      Reader.advance
      let p ← nested
      Reader.take .closeBracket
      return p :: (← bracketedUpTo nested n)
    else return []

def bracketed (nested : Reader Expr) : Reader (List Expr) := do
  bracketedUpTo nested (← Reader.remaining)

/-- The kind or target that a test with parentheses asks for; its name is taken already. -/
def kindTest : (nodeType : String) → Reader NodeTest
  | "node" => return .any
  | "text" => return .ofKind .text
  | "comment" => return .ofKind .comment
  | _ => do
    match ← Reader.peek? with
    | some (.literal target) =>
      Reader.advance
      return if Name.isUnqualified target.toList then .named .instruction (.unqualified target)
        else .nothing
    | _ => return .ofKind .instruction

/-- The test of a step along an axis. Other kinds than its own never lie on the axes of attributes
and namespaces. -/
def nodeTest (along : Axis) : Reader NodeTest := do
  match ← Reader.peek? with
  | some (.name text) =>
    let name ← Reader.resolve text
    Reader.advance
    return .named along.principalKind name
  | some (.prefixWildcard declared) =>
    let uri ← Reader.lift ((← read).scope.uriForPrefix declared)
    Reader.advance
    return .inNamespace along.principalKind uri
  | some .star =>
    Reader.advance
    return .ofKind along.principalKind
  | some (.nodeType nodeType) =>
    Reader.advance
    let test ← kindTest nodeType
    Reader.take .closeParen
    return if test != .any && (along == .attribute || along == .namespaces) then .nothing else test
  | _ => Reader.fail (.notANodeTest (← Reader.shown))

def atNodeTest : Reader Bool := return (← Reader.peek?).any Token.beginsNodeTest

/-- The axis of a step that is not abbreviated to dots. -/
def stepAxis : Reader Axis := do
  match ← Reader.peek? with
  | some .atSign =>
    Reader.advance
    if !(← atNodeTest) then Reader.fail .atWithoutTest
    return .attribute
  | some (.axis along) =>
    Reader.advance
    if !(← atNodeTest) then Reader.fail (.axisWithoutTest (← Reader.shown))
    return along
  | _ =>
    if !(← atNodeTest) then Reader.fail (.notAStep (← Reader.shown))
    return .child

/-- A step, as what it makes of the expression it starts from. -/
def step (nested : Reader Expr) : Reader (Expr → Expr) := do
  match ← Reader.peek? with
  | some .dot =>
    Reader.advance
    return fun start => .path start .self .any []
  | some .twoDots =>
    Reader.advance
    return fun start => .path start .parent .any []
  | _ =>
    let along ← stepAxis
    let test ← nodeTest along
    let predicates ← bracketed nested
    return fun start => .path start along test predicates

/-- The nodes below and including those of an expression, as two slashes say. -/
def throughDescendants (start : Expr) : Expr := .path start .descendantOrSelf .any []

/-- The steps that follow an expression behind slashes. -/
def stepsUpTo (nested : Reader Expr) : (limit : Nat) → Expr → Reader Expr
  | 0, e => return e
  | n + 1, e => do
    match ← Reader.peek? with
    | some .slash =>
      Reader.advance
      stepsUpTo nested n ((← step nested) e)
    | some .doubleSlash =>
      Reader.advance
      stepsUpTo nested n ((← step nested) (throughDescendants e))
    | _ => return e

def steps (nested : Reader Expr) (e : Expr) : Reader Expr := do
  stepsUpTo nested (← Reader.remaining) e

/-- Further arguments behind commas. -/
def argumentsUpTo (nested : Reader Expr) : (limit : Nat) → Reader (List Expr)
  | 0 => return []
  | n + 1 => do
    if (← Reader.peek?) = some .comma then
      Reader.advance
      let e ← nested
      return e :: (← argumentsUpTo nested n)
    else return []

/-- The arguments of a call, up to its closing parenthesis. -/
def arguments (nested : Reader Expr) : Reader (List Expr) := do
  if (← Reader.peek?) = some .closeParen then
    Reader.advance
    return []
  let first ← nested
  let more ← argumentsUpTo nested (← Reader.remaining)
  Reader.take .closeParen
  return first :: more

/-- A call of a function without prefix, whose name stands at an offset. -/
def systemCall (name : String) (args : List Expr) (position : Nat) : Reader Expr := do
  match SystemFunction.ofName? name with
  | none => Reader.failAt position (.unknownFunction name)
  | some f =>
    if let some fault := f.arityFault? args.length then Reader.failAt position (.arity fault)
    if f = .current then return .currentNode
    let scope := (← read).scope
    if f = .key ∧ !scope.allowsKey then Reader.failAt position .keyNotAvailable
    return .call f args none (some scope)

/-- The set operation that a set function is. -/
def setOperator? : String → Option SetOperator
  | "intersection" => some .intersect
  | "difference" => some .except
  | _ => none

def requireNodeSets (construct : String) : List Expr → Reader Unit
  | [] => return ()
  | e :: rest => do
    requireNodeSet e construct
    requireNodeSets construct rest

def distinctCall (args : List Expr) (position : Nat) : Reader Expr := do
  match args with
  | [base] =>
    requireNodeSet base "set:distinct"
    return .distinct base
  | [base, key] =>
    requireNodeSet base "set:distinct"
    return .distinctBy base key
  | _ => Reader.failAt position .distinctArity

/-- A call of a set function; the plain operations on sets have expressions of their own. -/
def setCall (name : String) (args : List Expr) (position : Nat) : Reader Expr := do
  match setOperator? name with
  | some op =>
    requireNodeSets ("set:" ++ name) args
    match args with
    | [l, r] => return .set op l r
    | _ => Reader.failAt position (.setOperationArity name)
  | none =>
    if name = "distinct" then distinctCall args position
    else match SystemFunction.ofSetName? name with
      | none => Reader.failAt position (.unknownSetFunction name)
      | some f =>
        if let some fault := f.arityFault? args.length then Reader.failAt position (.arity fault)
        return .call f args none (some (← read).scope)

/-- A call of a function in a namespace. One that nobody is known to offer fails when evaluated. -/
def namespaceCall (name declared localName : String) (args : List Expr) (position : Nat) :
    Reader Expr := do
  let scope := (← read).scope
  match scope.uriForPrefix declared with
  | .error f => Reader.failAt position (.unresolved f)
  | .ok uri =>
    let expanded := ExpandedName.make (some uri) localName
    if uri = Name.setsNamespace then setCall localName args position
    else if scope.isExtensionNamespace uri || scope.isFunctionAvailable expanded then
      return .extension expanded args
    else return .failure (.unavailableLibrary uri name)

def functionCall (nested : Reader Expr) (name : String) : Reader Expr := do
  let position ← Reader.position
  Reader.advance
  let args ← arguments nested
  match Name.split name with
  | ("", localName) => systemCall localName args position
  | (declared, localName) => namespaceCall name declared localName args position

def variableReference : Reader Expr := do
  let name ← Reader.resolve (← Reader.name)
  let binding ← Reader.lift ((← read).scope.bindVariable name)
  Reader.advance
  return .reference binding

def primary (nested : Reader Expr) : Reader Expr := do
  match ← Reader.peek? with
  | some .dollar =>
    Reader.advance
    variableReference
  | some .openParen =>
    Reader.advance
    let e ← nested
    Reader.take .closeParen
    return e
  | some (.literal s) =>
    Reader.advance
    return .value (.string s)
  | some (.number digits) =>
    Reader.advance
    return .value (.number (.ofText digits))
  | some (.function name) => functionCall nested name
  | _ => Reader.fail (.notAnOperand (← Reader.shown))

/-- The predicates that follow a primary expression. -/
def filtersUpTo (nested : Reader Expr) : (limit : Nat) → Expr → Reader Expr
  | 0, e => return e
  | n + 1, e => do
    if (← Reader.peek?) = some .openBracket then
      requireNodeSet e "A predicate"
      Reader.advance
      let predicate ← nested
      Reader.take .closeBracket
      filtersUpTo nested n (.filter e predicate)
    else return e

def filtered (nested : Reader Expr) : Reader Expr := do
  let e ← primary nested
  filtersUpTo nested (← Reader.remaining) e

/-- A path that starts from a filtered expression, or that expression alone. -/
def pathFromPrimary (nested : Reader Expr) : Reader Expr := do
  let e ← filtered nested
  match ← Reader.peek? with
  | some .slash | some .doubleSlash =>
    requireNodeSet e "A path expression"
    steps nested e
  | _ => return e

def path (nested : Reader Expr) : Reader Expr := do
  match ← Reader.peek? with
  | some .slash =>
    Reader.advance
    if !(← Reader.peek?).any Token.beginsStep then return .root
    steps nested ((← step nested) .root)
  | some .doubleSlash =>
    Reader.advance
    steps nested ((← step nested) (throughDescendants .root))
  | some .dot =>
    Reader.advance
    steps nested .contextNode
  | some .twoDots =>
    Reader.advance
    steps nested .parentNode
  | next =>
    if next.any Token.beginsStep then steps nested ((← step nested) .contextNode)
    else pathFromPrimary nested

def unionUpTo (operand : Reader Expr) : (limit : Nat) → Expr → Reader Expr
  | 0, e => return e
  | n + 1, e => do
    if (← Reader.peek?) = some .bar then
      requireNodeSet e "Union operator"
      Reader.advance
      let r ← operand
      requireNodeSet r "Union operator"
      unionUpTo operand n (.set .union e r)
    else return e

def union (nested : Reader Expr) : Reader Expr := do
  let first ← path nested
  unionUpTo (path nested) (← Reader.remaining) first

/-- An operand behind as many minus signs as there are. -/
def unaryUpTo (operand : Reader Expr) : (limit : Nat) → Reader Expr
  | 0 => operand
  | n + 1 => do
    if (← Reader.peek?) = some (.arithmetic .minus) then
      Reader.advance
      return .negate (← unaryUpTo operand n)
    else operand

def unary (nested : Reader Expr) : Reader Expr := do
  unaryUpTo (union nested) (← Reader.remaining)

def multiplicative? : Token → Option (Expr → Expr → Expr)
  | .arithmetic .times => some (.arithmetic .times)
  | .arithmetic .div => some (.arithmetic .div)
  | .arithmetic .mod => some (.arithmetic .mod)
  | _ => none

def additive? : Token → Option (Expr → Expr → Expr)
  | .arithmetic .plus => some (.arithmetic .plus)
  | .arithmetic .minus => some (.arithmetic .minus)
  | _ => none

def relational? : Token → Option (Expr → Expr → Expr)
  | .comparison op => if op.isEquality then none else some (.compare op)
  | _ => none

def equality? : Token → Option (Expr → Expr → Expr)
  | .comparison op => if op.isEquality then some (.compare op) else none
  | _ => none

def logical? (wanted : Connective) : Token → Option (Expr → Expr → Expr)
  | .logical op => if op = wanted then some (.logical op) else none
  | _ => none

/-- An expression, from the operators that bind most loosely to the primary expressions. -/
def level (nested : Reader Expr) : Reader Expr :=
  chain (logical? .or) <| chain (logical? .and) <| chain equality? <| chain relational? <|
    chain additive? <| chain multiplicative? <| unary nested

/-- An expression with brackets and parentheses nested up to a depth. -/
def exprUpTo : (depth : Nat) → Reader Expr
  | 0 => do Reader.fail (.notAnOperand (← Reader.shown))
  | n + 1 => level (exprUpTo n)

/-- An expression. Each nesting takes a token, so there are fewer nestings than tokens. -/
def expr : Reader Expr := do exprUpTo ((← Reader.remaining) + 1)

end PathLanguage.Grammar
