/-
Node-set values in use: enumeration, size, first node, and conversion to the other types. A lazy
node-set is evaluated anew until it has been used often enough to be kept.
-/
import PathLanguage.Evaluation.Engine
import PathLanguage.Expr.Dependencies
import PathLanguage.Expr.Text

namespace PathLanguage.NodeSet

/-- Evaluates a lazy node-set once, in its natural order, and keeps its nodes. -/
def materializeIntent (T : Transformation) (E : Engine) (id : Nat) (definition : Expr) :
    Action Extent := do
  match ((← get).intent id).extent with
  | some e => return e
  | none =>
    let e ← E.extent (← E.cursor definition T.globalContext false)
    .update fun s =>
      let state := s.intent id
      let kept := state.extent.getD e
      (kept, s.setIntent id { state with extent := some kept })

/-- Counts one use; tells whether the nodes are to be kept from this use on. -/
def registerUse (T : Transformation) (id : Nat) : Action Bool :=
  .update fun s =>
    let state := s.intent id
    (T.threshold ≤ state.uses + 1, s.setIntent id { state with uses := state.uses + 1 })

def cursorOfExtent (e : Extent) (sort : Bool) : Action Cursor :=
  if sort then return .ofExtent (← .ofExcept e.sort) else return .ofExtent e

def enumerateIntent (T : Transformation) (E : Engine) (id : Nat) (definition : Expr)
    (sort : Bool) : Action Cursor := do
  match ((← get).intent id).extent with
  | some e => cursorOfExtent e sort
  | none =>
    if ← registerUse T id then cursorOfExtent (← materializeIntent T E id definition) sort
    else E.cursor definition T.globalContext sort

/-- A cursor on the members of any node-set, fragments included. -/
def scan (T : Transformation) (E : Engine) : NodeSet → Action Cursor
  | .empty => return .empty
  | .single n _ => return .ofOption n
  | .extent e => return .ofExtent e
  | .intent id definition => enumerateIntent T E id definition false

/-- A cursor on the members in the order that comes cheapest. -/
def enumerate (T : Transformation) (E : Engine) (ns : NodeSet) : Action Cursor :=
  if ns.isNavigable then ns.scan T E else .fail .fragmentAsNodeSet

/-- A cursor on the members, in document order if so asked. -/
def enumerateSorted (T : Transformation) (E : Engine) (ns : NodeSet) (sort : Bool) :
    Action Cursor :=
  match ns with
  | .intent id definition => enumerateIntent T E id definition sort
  | .extent e => cursorOfExtent e sort
  | _ => ns.enumerate T E

/-- The number of distinct members. -/
def count (T : Transformation) (E : Engine) : NodeSet → Action Nat
  | .empty => return 0
  | .single n _ => return n.toList.length
  | .extent e => return (← .ofExcept e.sort).nodes.length
  | .intent id definition => do
    match ((← get).intent id).extent with
    | some e => return (← .ofExcept e.sort).nodes.length
    | none =>
      let c ← E.cursor definition T.globalContext false
      let told ←
        if c.flags.sorted && c.counts then Action.ofExcept (← E.size c).outcome else pure none
      match told with
      | some n => return n
      | none =>
        let e ← materializeIntent T E id definition
        return (← .ofExcept e.sort).nodes.length

/-- The first member in document order. -/
def first (T : Transformation) (E : Engine) : NodeSet → Action (Option Node)
  | .empty => return none
  | .single n _ => return n
  | .extent e => .ofExcept e.first
  | .intent id definition => do
    match ((← get).intent id).extent with
    | some e => .ofExcept e.first
    | none =>
      let c ← E.cursor definition T.globalContext false
      if c.flags.sorted then E.head c else .ofExcept (← E.extent c).first

/-- The distinct members in document order. -/
def materialize (T : Transformation) (E : Engine) : NodeSet → Action Extent
  | .extent e => .ofExcept e.sort
  | .intent id definition => do .ofExcept (← materializeIntent T E id definition).sort
  | ns => do E.extent (← ns.scan T E)

def members (T : Transformation) (E : Engine) (ns : NodeSet) : Action (List Node) := do
  E.drain (← ns.enumerate T E)

def asString (T : Transformation) (E : Engine) (ns : NodeSet) : Action String :=
  return ((← ns.first T E).map Node.stringValue).getD ""

def asBoolean (T : Transformation) (E : Engine) : NodeSet → Action Bool
  | .empty => return false
  | .single n _ => return n.isSome
  | .extent e => return !e.nodes.isEmpty
  | .intent id definition => return (← E.head (← enumerateIntent T E id definition false)).isSome

/-- Whether the members are known to come in document order, and in its reverse. -/
def order : NodeSet → StateM Session (Bool × Bool)
  | .empty | .single .. => return (true, true)
  | .extent e => return (e.sorted, e.reverse)
  | .intent id _ => return (((← get).intent id).extent.any (·.sorted), false)

/-- Whether no member is known to be an ancestor of another. -/
def isPeer : NodeSet → Bool
  | .empty | .single .. => true
  | .extent _ | .intent .. => false

/-- A node-set whose nodes an expression without dependencies defines. -/
def ofDefinition (definition : Expr) : Action NodeSet :=
  if definition.dependencies.isEmpty then
    .update fun s =>
      let (id, s) := s.newIntent definition
      (.intent id definition, s)
  else .fail (.dependentIntent definition.dependencies.text definition.text)

end PathLanguage.NodeSet
