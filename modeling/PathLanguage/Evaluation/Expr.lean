/-
Evaluation of expressions: to a value, to each scalar type, to a node-set and to a cursor on the
selected nodes.
-/
import PathLanguage.Evaluation.Reading
import PathLanguage.Evaluation.Sorting
import PathLanguage.Expr.Text
import PathLanguage.Function.Call

namespace PathLanguage

/-- The value of a global variable, computed on the first reference. Meeting the mark of a
computation under way means that the definition refers to itself. -/
def globalValue (T : Transformation) (E : Engine) (name : ExpandedName) : Action Value := do
  match (← get).slot? name with
  | none => throw (.undefinedVariable name)
  | some (.evaluated v) => return v
  | some .evaluating => throw (.circularVariable name)
  | some (.pending definition) =>
    modify fun s => s.setSlot name .evaluating
    match ← (E.value definition T.globalContext).outcome with
    | .ok v =>
      modify fun s => s.setSlot name (.evaluated v)
      return v
    | .error f =>
      modify fun s => s.setSlot name (.pending definition)
      throw f

/-- The value of a variable: a local one of its name first, then the global one. -/
def Context.valueOf (T : Transformation) (E : Engine) (c : Context) (b : Binding) : Action Value :=
  match c.locals.lookup b.name with
  | some v => return v
  | none =>
    if b.isGlobal then globalValue T E b.name else .fail (.undefinedVariable b.name)

namespace Expr

def values (E : Engine) (context : Context) : List Expr → Action (List Value)
  | [] => return []
  | e :: rest => return (← E.value e context) :: (← values E context rest)

/-- Calls the host function of a name that takes the arguments. -/
def callHost (T : Transformation) (E : Engine) (name : ExpandedName) (args : List Value)
    (context : Context) : Action Value := do
  let o ← .ofExcept ((T.functions.resolve name args.length).mapError .unresolvedFunction)
  let number ← .update (·.countCall o.serial)
  o.run
    { context, number
      asString := Value.asString T E
      asNumber := Value.asNumber T E
      asBoolean := Value.asBoolean T E
      firstNode := NodeSet.first T E }
    args

/-- The value, of whatever type the expression has. -/
def evaluate (T : Transformation) (E : Engine) (e : Expr) (context : Context) : Action Value :=
  match e with
  | .value v => return v
  | .logical .. | .compare .. | .compareNode .. | .compareNodes .. | .positionRange ..
  | .isLast _ => return .boolean (← E.boolean e context)
  | .arithmetic .. | .negate _ => return .number (← E.number e context)
  | .call function args bound scope =>
    Function.Call.run T E ⟨function, args, bound, scope, context⟩
  | .extension name args => do callHost T E name (← values E context args) context
  | .reference b =>
    match b.constant with
    | some c => return c.toValue
    | none => context.valueOf T E b
  | .template _ => return .string (← E.string e context)
  | .failure f => throw f
  | _ => return .nodeSet (← E.nodeSet e context)

def evaluateBoolean (T : Transformation) (E : Engine) (e : Expr) (context : Context) :
    Action Bool := do
  match e with
  | .logical .and l r => if ← E.boolean l context then E.boolean r context else return false
  | .logical .or l r => if ← E.boolean l context then return true else E.boolean r context
  | .compare op l r => do
    let a ← E.value l context
    let b ← E.value r context
    a.compare T E op b
  | .compareNode op node scalar =>
    match ← (← E.nodeSet node context).first T E with
    | some n => (Value.string n.stringValue).compare T E op scalar
    | none => return false
  | .compareNodes op nodes scalar => do
    (Value.nodeSet (← E.nodeSet nodes context)).compare T E op scalar
  | .positionRange least most => return least ≤ context.position && context.position ≤ most
  | .isLast wanted => return (context.position == context.last) == wanted
  | _ =>
    if e.isNodeSetExpr then return (← E.head (← E.cursor e context false)).isSome
    else (← E.value e context).asBoolean T E

def evaluateNumber (T : Transformation) (E : Engine) (e : Expr) (context : Context) :
    Action Number :=
  match e with
  | .arithmetic op l r => return op.apply (← E.number l context) (← E.number r context)
  | .negate operand => return -(← E.number operand context)
  | _ => do (← E.value e context).asNumber T E

def evaluateString (T : Transformation) (E : Engine) (e : Expr) (context : Context) :
    Action String := do
  match e with
  | .template parts => Function.Call.joinedArgs E context parts
  | _ =>
    if e.isNodeSetExpr then
      return ((← E.head (← E.cursor e context true)).map Node.stringValue).getD ""
    else (← E.value e context).asString T E

def nodeSetOf : Value → Action NodeSet
  | .nodeSet ns => return ns
  | v => .fail (.notANodeSet v.type)

/-- The node-set. What remains of a node-set expression when everything known is put in is kept as
a definition if it depends on nothing more, and read out at once otherwise. -/
def evaluateNodeSet (E : Engine) (e : Expr) (context : Context) : Action NodeSet := do
  match e with
  | .value v => nodeSetOf v
  | _ =>
    if !e.isNodeSetExpr then nodeSetOf (← E.value e context)
    else
      let (r, _) ← E.reduce .all e context
      match r with
      | .value v => nodeSetOf v
      | _ =>
        if r.dependencies.isEmpty then NodeSet.ofDefinition r
        else return .extent (← E.extent (← E.cursor r context false))

/-- The nodes of a path. Step by step they come in document order if the step goes forward from one
node, or stays below start nodes of which none is below another; otherwise they are sorted. -/
def pathCursor (E : Engine) (start : Expr) (plan : StepPlan) (context : Context) :
    Action Cursor := do
  let starts ← E.cursor start context true
  let ordered := plan.axis.isForward &&
    (start.isSingleton || (starts.flags.peer && plan.axis.isSubtree))
  if ordered then return .steps starts plan context.ambient .empty true
  return .ofExtent (← .ofExcept (← E.extent (.steps starts plan context.ambient .empty false)).sort)

def cursorFrom (E : Engine) (sort : Bool) (c : Cursor) : Action Cursor :=
  if sort then E.sortedCursor c else return c

/-- A cursor on the selected nodes, in document order if so asked. -/
def enumerate (T : Transformation) (E : Engine) (e : Expr) (context : Context) (sort : Bool) :
    Action Cursor := do
  match e with
  | .root => return .ofOption (some (← context.node).top)
  | .contextNode => return .ofOption (some (← context.node))
  | .parentNode => return .ofOption (← context.node).parent
  | .currentNode => return .ofOption (some (← context.current))
  | .attribute name =>
    return .ofOption ((← context.node).attributes.find? fun a => a.expandedName == some name)
  | .axis along test origin =>
    let n ← match origin with
      | some n => pure n
      | none => context.node
    cursorFrom E sort (.onAxis n along test)
  | .path start along test predicates => pathCursor E start ⟨along, test, predicates⟩ context
  | .filter base predicate => do
    let c ← E.cursor base context (sort || predicate.isPositional)
    return c.select predicate context false
  | .set op l r => do
    let left ← E.cursor l context true
    let right ← E.cursor r context true
    Cursor.startMerge E op left right
  | .distinct base => do Cursor.startDistinct E (← E.cursor base context true) none context
  | .distinctBy base key => do
    Cursor.startDistinct E (← E.cursor base context true) (some key) context
  | .sorted base keys rules => do
    let nodes ← E.drain (← E.cursor base context true)
    let nodes ← Sorting.sortNodes E nodes (keys.zip rules) context
    if sort then return .ofExtent (← .ofExcept (Extent.ofNodes nodes false).sort)
    else return .slice nodes false false
  | .value (.nodeSet ns) => ns.enumerateSorted T E sort
  | _ => do (← E.nodeSet e context).enumerateSorted T E sort

end Expr

end PathLanguage
