/-
Match patterns: paths read from the node upwards, with what their form tells of matching nodes.
-/
import PathLanguage.Expr.Dependencies

namespace PathLanguage

/-- How the parent pattern of a step is reached. -/
inductive Connector where
  | parent
  | ancestor
deriving DecidableEq

/-- How the predicates of a pattern step are decided. -/
inductive PositionCheck where
  /-- Each predicate on its own, none of them counting positions. -/
  | none
  /-- The node is the first sibling that passes the test. -/
  | first
  /-- The node is the last sibling that passes the test. -/
  | last
  /-- The node is among those that an expression selects from it. -/
  | among (e : Expr)

structure PatternStep where
  axis : Axis
  test : NodeTest
  predicates : List Expr
  check : PositionCheck

inductive Pattern where
  | document
  /-- A step without predicates under any parent. -/
  | test (t : NodeTest)
  | step (s : PatternStep)
  | under (c : Connector) (upper : Pattern) (s : PatternStep)
  | id (ids : String)
  | key (name : ExpandedName) (value : String)
  | union (left right : Pattern)

namespace PositionCheck

/-- Whether a constant predicate is one as a number. -/
def isOne : Value → Bool
  | .number n => n.eq 1
  | .string s => (Number.ofText s).eq 1
  | .boolean b => b
  | .object t => (Number.ofText t).eq 1
  | .nodeSet _ => false

/-- Whether a predicate asks for the first position. -/
def asksFirst : Expr → Bool
  | .value v => isOne v
  | .positionRange least most => least == 1 && most == 1
  | _ => false

/-- Whether a predicate asks for the last position. -/
def asksLast : Expr → Bool
  | .isLast wanted => wanted
  | .call .last [] _ _ => true
  | _ => false

/-- Chooses the check: a short cut for a single first or last position, a selection from the
parent for other positional predicates. -/
def ofPredicates (axis : Axis) (test : NodeTest) (predicates : List Expr) : PositionCheck :=
  let general : PositionCheck :=
    if predicates.any Expr.isPositional then .among (.path .parentNode axis test predicates)
    else .none
  match predicates with
  | [only] =>
    if asksFirst only && axis == .child && test.kind? == some .element then .first
    else if asksLast only then .last
    else general
  | _ => general

end PositionCheck

namespace Pattern

/-- A step of a pattern under an optional upper pattern. -/
def ofStep (axis : Axis) (test : NodeTest) (predicates : List Expr)
    (upper : Option (Connector × Pattern)) : Pattern :=
  let s : PatternStep := ⟨axis, test, predicates, .ofPredicates axis test predicates⟩
  match upper with
  | some (c, p) => .under c p s
  | none => if predicates.isEmpty then .test test else .step s

/-- The only kind of node that can match, when the form tells. -/
def kind? : Pattern → Option NodeKind
  | .document => some .document
  | .test t => t.kind?
  | .step s | .under _ _ s => s.test.kind?
  | .id _ => some .element
  | .key .. => none
  | .union a b => if a.kind? = b.kind? then a.kind? else none

/-- The only name that can match, when the form tells. -/
def name? : Pattern → Option ExpandedName
  | .test t => t.name?
  | .step s | .under _ _ s => s.test.name?
  | .union a b => if a.name? = b.name? then a.name? else none
  | _ => none

/-- The priority of a rule with this pattern and no stated priority. -/
def priority : Pattern → Number
  | .test t => t.priority
  | _ => .half

/-- The patterns that a union joins, each of which has its own priority. -/
def alternatives : Pattern → List Pattern
  | .union a b => a.alternatives ++ b.alternatives
  | p => [p]

/-- Whether an attribute could match. -/
def mayMatchAttributes (p : Pattern) : Bool :=
  match p.kind? with
  | some k => k == .attribute
  | none => true

end Pattern

end PathLanguage
