/-
Engines: the mutually dependent evaluations of expressions and cursors, as one record. What calls
for a deeper evaluation takes an engine, so that each activity is defined on its own.
-/
import PathLanguage.Evaluation.Cursor
import PathLanguage.Evaluation.Transformation

namespace PathLanguage

structure Engine where
  value : Expr → Context → Action Value
  boolean : Expr → Context → Action Bool
  number : Expr → Context → Action Number
  string : Expr → Context → Action String
  nodeSet : Expr → Context → Action NodeSet
  /-- The selected nodes, in document order if so asked. -/
  cursor : Expr → Context → Bool → Action Cursor
  /-- The expression with the parts that read only the given dependencies replaced by what they
  are in the context, and whether anything was replaced. -/
  reduce : Dependencies → Expr → Context → Action (Expr × Bool)
  next : Cursor → StateM Session (Pull (Option Node))
  /-- The number of nodes from the beginning of a cursor, if it tells. -/
  size : Cursor → StateM Session (Pull (Option Nat))
  /-- All remaining nodes. -/
  drain : Cursor → Action (List Node)
  /-- Whether some remaining node passes a test; nothing after the first such node is read. -/
  find : (Node → Bool) → Cursor → Action Bool
  /-- The nodes that a key finds for a value in the document with a given root. -/
  search : ExpandedName → String → Node → Context → Action (List Node)

namespace Engine

/-- The engine that follows no evaluation. -/
def exhausted : Engine where
  value _ _ := .fail .tooDeep
  boolean _ _ := .fail .tooDeep
  number _ _ := .fail .tooDeep
  string _ _ := .fail .tooDeep
  nodeSet _ _ := .fail .tooDeep
  cursor _ _ _ := .fail .tooDeep
  reduce _ _ _ := .fail .tooDeep
  next c := pure ⟨.error .tooDeep, c⟩
  size c := pure ⟨.error .tooDeep, c⟩
  drain _ := .fail .tooDeep
  find _ _ := .fail .tooDeep
  search _ _ _ _ := .fail .tooDeep

/-- The next node as an action, which ends in the fault of the cursor. -/
def pull (E : Engine) (c : Cursor) : Action (Option Node × Cursor) := do
  let p ← E.next c
  match p.outcome with
  | .ok n => return (n, p.rest)
  | .error f => throw f

/-- The first of the remaining nodes. -/
def head (E : Engine) (c : Cursor) : Action (Option Node) := return (← E.pull c).1

/-- An extent of all remaining nodes, with the order that the cursor promises. -/
def extent (E : Engine) (c : Cursor) : Action Extent :=
  return .ofSource (← E.drain c) c.flags.sorted c.flags.reverse

/-- The cursor itself if it is sorted, else one on its sorted nodes. -/
def sortedCursor (E : Engine) (c : Cursor) : Action Cursor := do
  if c.flags.sorted then return c
  return .ofExtent (← .ofExcept (← E.extent c).sort)

end Engine

end PathLanguage
