/-
Sessions: what evaluations remember and share. Values of global variables, key indexes, documents,
the uses of lazy node-sets and the calls of host functions; and actions, which run in a session.
-/
import PathLanguage.Evaluation.Context

namespace PathLanguage

/-- A global variable: its definition, the mark that it is being computed, or its value. -/
inductive Slot where
  | pending (definition : Expr)
  | evaluating
  | evaluated (v : Value)

/-- What defines a lazy node-set, how often it was used, and its nodes once they are kept. -/
structure IntentState where
  definition : Expr
  uses : Nat := 0
  extent : Option Extent := none

/-- The nodes of one document by the values of one key. -/
structure KeyIndex where
  name : ExpandedName
  root : Node
  entries : List (String × List Node)

structure Session where
  globals : List (ExpandedName × Slot) := []
  indexes : List KeyIndex := []
  documents : List (String × Node) := []
  /-- The URIs that the resolver was asked for, in order. -/
  requested : List String := []
  intents : List IntentState := []
  /-- Numbers of calls by the serial number of the host function. -/
  calls : List (Nat × Nat) := []

/-- A computation in a session, whose changes stay even if it ends in a fault. -/
abbrev Action := ExceptT Fault (StateM Session)

/-- Replaces the value of a key, or adds it at the end. -/
def assocSet {α β : Type} [BEq α] (key : α) (value : β) : List (α × β) → List (α × β)
  | [] => [(key, value)]
  | (k, v) :: rest => if k == key then (key, value) :: rest else (k, v) :: assocSet key value rest

namespace Session

def slot? (s : Session) (name : ExpandedName) : Option Slot := s.globals.lookup name

def setSlot (s : Session) (name : ExpandedName) (slot : Slot) : Session :=
  { s with globals := assocSet name slot s.globals }

/-- The state of a lazy node-set; an unknown one is empty and was never used. -/
def intent (s : Session) (id : Nat) : IntentState :=
  s.intents[id]?.getD { definition := .value (.nodeSet .empty) }

def setIntent (s : Session) (id : Nat) (state : IntentState) : Session :=
  { s with intents := s.intents.set id state }

/-- Registers a lazy node-set. -/
def newIntent (s : Session) (definition : Expr) : Nat × Session :=
  (s.intents.length, { s with intents := s.intents ++ [{ definition }] })

def index? (s : Session) (name : ExpandedName) (root : Node) : Option KeyIndex :=
  s.indexes.find? fun i => i.name == name && i.root.same root

/-- Counts one call of a host function; gives the number of the call. -/
def countCall (s : Session) (serial : Nat) : Nat × Session :=
  let n := (s.calls.lookup serial).getD 0 + 1
  (n, { s with calls := assocSet serial n s.calls })

end Session

namespace Action

def fail {α : Type} (f : Fault) : Action α := throw f

def ofExcept {α : Type} (r : Except Fault α) : Action α :=
  match r with
  | .ok a => pure a
  | .error f => throw f

/-- Runs a session change that gives a result. -/
def update {α : Type} (f : Session → α × Session) : Action α := modifyGet f

/-- The outcome of an action as a value. -/
def attempt {α : Type} (a : Action α) : StateM Session (Except Fault α) := a.run

/-- Runs an action and goes on whatever its outcome is. -/
def outcome {α : Type} (a : Action α) : Action (Except Fault α) := ExceptT.lift a.run

end Action

namespace Context

def node (c : Context) : Action Node :=
  match c.node? with
  | some n => pure n
  | none => .fail .noContextNode

def current (c : Context) : Action Node :=
  match c.current? with
  | some n => pure n
  | none => .fail .noCurrentNode

end Context

end PathLanguage
