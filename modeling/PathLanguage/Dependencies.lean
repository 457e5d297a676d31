/-
Dependencies: the parts of a dynamic context that an expression may read.
-/

namespace PathLanguage

structure Dependencies where
  /-- The values of variables. -/
  bindings : Bool := false
  currentNode : Bool := false
  contextNode : Bool := false
  position : Bool := false
  last : Bool := false
  /-- The transformation: host functions, keys, formats and documents. -/
  controller : Bool := false
  contextDocument : Bool := false
deriving DecidableEq

namespace Dependencies

def none : Dependencies := {}

/-- Combines two sets part by part. -/
def zip (f : Bool → Bool → Bool) (a b : Dependencies) : Dependencies where
  bindings := f a.bindings b.bindings
  currentNode := f a.currentNode b.currentNode
  contextNode := f a.contextNode b.contextNode
  position := f a.position b.position
  last := f a.last b.last
  controller := f a.controller b.controller
  contextDocument := f a.contextDocument b.contextDocument

def union (a b : Dependencies) : Dependencies := zip or a b

def inter (a b : Dependencies) : Dependencies := zip and a b

def diff (a b : Dependencies) : Dependencies := zip (fun x y => x && !y) a b

instance : Union Dependencies := ⟨union⟩
instance : Inter Dependencies := ⟨inter⟩
instance : SDiff Dependencies := ⟨diff⟩
instance : EmptyCollection Dependencies := ⟨none⟩

def isEmpty (a : Dependencies) : Bool := a == ∅

def intersects (a b : Dependencies) : Bool := !(a ∩ b).isEmpty

/-- Every part named in `b` is named in `a`. -/
def contains (a b : Dependencies) : Bool := (b \ a).isEmpty

def unions (ds : List Dependencies) : Dependencies := ds.foldl (· ∪ ·) ∅

/-- What stays fixed while a predicate is applied to node after node. -/
def fixedInPredicates : Dependencies :=
  { controller := true, bindings := true, currentNode := true }

/-- What stays fixed while sort keys are computed for node after node. -/
def fixedInSortKeys : Dependencies := { controller := true, bindings := true }

/-- What a node bound to a call stands in for. -/
def focusNode : Dependencies := { contextNode := true, contextDocument := true }

def all : Dependencies :=
  { bindings := true, currentNode := true, contextNode := true, position := true, last := true,
    controller := true, contextDocument := true }

/-- Each part with its label, its weight in the numeric form, and its presence. -/
def parts (d : Dependencies) : List (String × Nat × Bool) :=
  [("VARIABLES", 1, d.bindings), ("CURRENT_NODE", 4, d.currentNode),
    ("CONTEXT_NODE", 8, d.contextNode), ("POSITION", 16, d.position), ("LAST", 32, d.last),
    ("CONTROLLER", 64, d.controller), ("CONTEXT_DOCUMENT", 128, d.contextDocument)]

def bits (d : Dependencies) : Nat :=
  d.parts.foldl (fun sum p => if p.2.2 then sum + p.2.1 else sum) 0

/-- The labels of the parts present, in the order of their weights. -/
def text (d : Dependencies) : String :=
  "Dependencies(" ++ " | ".intercalate ((d.parts.filter (·.2.2)).map (·.1)) ++ ")"

/-- The set with a given label: one part, everything, or what predicates leave fixed. -/
def ofLabel? : String → Option Dependencies
  | "VARIABLES" => some { bindings := true }
  | "CURRENT_NODE" => some { currentNode := true }
  | "CONTEXT_NODE" => some { contextNode := true }
  | "POSITION" => some { position := true }
  | "LAST" => some { last := true }
  | "CONTROLLER" => some { controller := true }
  | "CONTEXT_DOCUMENT" => some { contextDocument := true }
  | "XSLT_CONTEXT" => some fixedInPredicates
  | "ALL" => some all
  | _ => Option.none

end Dependencies

end PathLanguage
