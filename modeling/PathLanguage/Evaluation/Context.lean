/-
Dynamic contexts: the focus of an evaluation and its local variables.
-/
import PathLanguage.Expr.Basic

namespace PathLanguage

/-- The node in focus with its position among `last` nodes, the current node, and the local
variables, of which the first of a name counts. -/
structure Context where
  node? : Option Node := none
  current? : Option Node := none
  position : Nat := 1
  last : Nat := 1
  locals : List (ExpandedName × Value) := []

namespace Context

/-- The context of an expression that reads none. -/
def blank : Context := {}

/-- A context on an optional node, which is current as well. -/
def onNode (node? : Option Node) : Context := { node?, current? := node? }

/-- The context of the `position`-th of `last` nodes. -/
def withFocus (c : Context) (n : Node) (position last : Nat) : Context :=
  { c with node? := some n, position, last }

/-- The context of a node on its own. -/
def withNode (c : Context) (n : Node) : Context := c.withFocus n 1 1

/-- What stays of a context while the focus moves from node to node. -/
def ambient (c : Context) : Context := { c with node? := none, position := 1, last := 1 }

def withCurrent (c : Context) (n : Node) : Context := { c with current? := some n }

def withLocal (c : Context) (name : ExpandedName) (v : Value) : Context :=
  { c with locals := (name, v) :: c.locals }

end Context

end PathLanguage
