/-
Keys: the index of a document by the values of a key, built on the first search and kept.
-/
import PathLanguage.Evaluation.Value
import PathLanguage.Pattern.Matching

namespace PathLanguage.Key

abbrev Entries := List (String × List Node)

/-- Enters a node under a value; nodes come in document order, so only the last can be the same. -/
def enter (value : String) (n : Node) : Entries → Entries
  | [] => [(value, [n])]
  | (v, ns) :: rest =>
    if v == value then (v, if ns.getLast?.any n.same then ns else ns ++ [n]) :: rest
    else (v, ns) :: enter value n rest

def enterAll (n : Node) (values : List String) (entries : Entries) : Entries :=
  values.foldl (fun es v => enter v n es) entries

/-- The values of a node by one definition: one for each member of a node-set. -/
def valuesOf (T : Transformation) (E : Engine) (d : KeyDefinition) (n : Node) (context : Context) :
    Action (List String) := do
  match ← E.value d.use ((context.withNode n).withCurrent n) with
  | .nodeSet ns => return (← ns.members T E).map Node.stringValue
  | v => return [← v.asString T E]

/-- Enters one node under the values of the definitions whose patterns it matches. -/
def enterNode (T : Transformation) (E : Engine) (context : Context) (n : Node) :
    List KeyDefinition → Entries → Action Entries
  | [], entries => return entries
  | d :: rest, entries => do
    if ← d.pattern.accepts E n context then
      let values ← valuesOf T E d n context
      enterNode T E context n rest (enterAll n values entries)
    else enterNode T E context n rest entries

def enterNodes (T : Transformation) (E : Engine) (context : Context)
    (definitions : List KeyDefinition) : List Node → Entries → Action Entries
  | [], entries => return entries
  | n :: rest, entries => do
    let entries ← enterNode T E context n definitions entries
    enterNodes T E context definitions rest entries

/-- The nodes of a document that an index covers: attributes only if some pattern can match them. -/
def candidates (definitions : List KeyDefinition) (root : Node) : List Node :=
  let withAttributes := definitions.any (·.pattern.mayMatchAttributes)
  root.walk fun n => if withAttributes then n.attributes else []

/-- The nodes that a key finds for a value in a document. -/
def search (T : Transformation) (E : Engine) (name : ExpandedName) (value : String) (root : Node)
    (context : Context) : Action (List Node) := do
  let definitions := T.keysNamed name
  if definitions.isEmpty then throw (.undefinedKey name.text)
  match (← get).index? name root with
  | some index => return (index.entries.lookup value).getD []
  | none =>
    let entries ← enterNodes T E context definitions (candidates definitions root) []
    modify fun s =>
      if (s.index? name root).isSome then s
      else { s with indexes := s.indexes ++ [⟨name, root, entries⟩] }
    return (entries.lookup value).getD []

end PathLanguage.Key
