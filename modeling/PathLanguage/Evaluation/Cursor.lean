/-
Cursors: enumerations of nodes that are read one at a time, with what is known of their order and
their size before they are read.
-/
import PathLanguage.Evaluation.Context
import PathLanguage.Tree.Walk

namespace PathLanguage

/-- What is known of the order of delivery: document order, its reverse, and that no node is an
ancestor of another. -/
structure Flags where
  sorted : Bool := false
  reverse : Bool := false
  peer : Bool := false
deriving DecidableEq

/-- How a predicate decides on a node. -/
inductive Strategy where
  /-- By its position alone; nothing after `most` is read. -/
  | positions (least most : Nat)
  /-- A number, to be compared with the position. -/
  | numeric
  | boolean
  /-- A number is compared with the position, any other value taken as a boolean. -/
  | general
deriving DecidableEq

/-- A predicate with the context around it. -/
structure Selection where
  predicate : Expr
  context : Context
  strategy : Strategy
  usesLast : Bool
  /-- Whether the first rejected node ends the enumeration. -/
  stopsAtReject : Bool

/-- A step of a path with its predicates. -/
structure StepPlan where
  axis : Axis
  test : NodeTest
  predicates : List Expr

inductive Cursor where
  /-- Nodes already known; `size` is their number in all, if the cursor tells it. -/
  | listed (flags : Flags) (size : Option Nat) (rest : List Node)
  /-- A cursor that tells its size by reading ahead. -/
  | lookahead (base : Cursor) (buffer : List Node) (delivered : Nat) (exhausted : Bool)
  | filter (base : Cursor) (selection : Selection) (last : Option Nat) (position : Nat)
      (finished : Bool)
  /-- Two sorted cursors, each with its next node already read. -/
  | merge (op : SetOperator) (left : Cursor) (leftHead : Option Node) (right : Cursor)
      (rightHead : Option Node)
  | distinct (base : Cursor) (key : Option (Expr × Context)) (seen : List String)
  /-- A step applied to each node of `start`; `current` delivers for the latest one. -/
  | steps (start : Cursor) (plan : StepPlan) (context : Context) (current : Cursor) (sorted : Bool)

/-- What reading a cursor gives: an outcome, and the cursor as it is afterwards. -/
structure Pull (α : Type) where
  outcome : Except Fault α
  rest : Cursor

namespace Cursor

def flags : Cursor → Flags
  | .listed f _ _ => f
  | .lookahead base .. | .filter base .. => base.flags
  | .merge .. | .distinct .. => { sorted := true }
  | .steps _ plan _ _ sorted =>
    { sorted, peer := sorted && plan.axis.isPeer && plan.axis != .namespaces }

/-- Whether the cursor tells its size without the help of a lookahead. -/
def counts : Cursor → Bool
  | .listed _ size _ => size.isSome
  | .lookahead .. => true
  | _ => false

/-- No node, or one: in every order at once. -/
def ofOption (n : Option Node) : Cursor :=
  .listed { sorted := true, reverse := true, peer := true } (some n.toList.length) n.toList

def empty : Cursor := ofOption none

def slice (nodes : List Node) (sorted reverse : Bool) : Cursor :=
  .listed { sorted, reverse } (some nodes.length) nodes

def ofExtent (e : Extent) : Cursor := slice e.nodes e.sorted e.reverse

/-- The nodes that a walk along an axis finds and that pass a test. -/
def onAxis (origin : Node) (axis : Axis) (test : NodeTest) : Cursor :=
  let walk := Walk.start origin axis
  let nodes := walk.nodes.filter fun n => test.accepts n
  .listed ⟨axis.isForward, axis.isReverse, axis.isPeer⟩
    (if walk.isListed then some nodes.length else none) nodes

def lookingAhead (base : Cursor) : Cursor := .lookahead base [] 0 false

end Cursor

namespace Strategy

/-- The position that a number denotes, if any. -/
def position? (n : Number) : Option Nat :=
  if n.isWhole then
    match n.truncate? with
    | some p => if p = 0 ∨ openEnd + 1 < p then none else some (min p openEnd)
    | none => none
  else none

/-- A constant number or a range of positions needs no evaluation; otherwise the type decides. -/
def ofPredicate (p : Expr) : Strategy :=
  match p with
  | .value (.number n) =>
    match position? n with
    | some k => .positions k k
    | none => .positions 1 0
  | .positionRange least most => .positions least most
  | _ =>
    match p.type with
    | .number => .numeric
    | .boolean => .boolean
    | _ => .general

end Strategy

end PathLanguage
