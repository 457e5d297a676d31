/-
Transformations: what a host supplies to all evaluations of one run and never changes.
-/
import PathLanguage.Evaluation.Session
import PathLanguage.NumberFormat
import PathLanguage.Pattern.Basic

namespace PathLanguage

/-- What a host function may use: the caller's context, how often the function was called up to
now, this call included, and the conversions of values. -/
structure HostCall where
  context : Context
  number : Nat
  asString : Value → Action String
  asNumber : Value → Action Number
  asBoolean : Value → Action Bool
  firstNode : NodeSet → Action (Option Node)

abbrev HostFunction := HostCall → List Value → Action Value

/-- A host function for calls with `least` to `most` arguments, without limit if none is given. -/
structure Overload where
  name : ExpandedName
  least : Nat
  most : Option Nat
  serial : Nat
  run : HostFunction

namespace Overload

/-- Whether one range of arguments ranks before another: the higher least number, then the smaller
greatest number. -/
def ranksBefore (a b : Overload) : Bool :=
  b.least < a.least ||
    (a.least == b.least &&
      match a.most, b.most with
      | some m, some n => m < n
      | some _, none => true
      | none, _ => false)

def takes (o : Overload) (arity : Nat) : Bool :=
  o.least ≤ arity && o.most.all (arity ≤ ·)

/-- Inserts an overload behind all that do not rank after it. -/
def insert (o : Overload) : List Overload → List Overload
  | [] => [o]
  | p :: rest => if o.ranksBefore p then o :: p :: rest else p :: insert o rest

end Overload

/-- The host functions, overloads in the order in which they are tried. -/
structure FunctionLibrary where
  overloads : List Overload := []

namespace FunctionLibrary

def register (l : FunctionLibrary) (name : ExpandedName) (least : Nat) (most : Option Nat)
    (run : HostFunction) : FunctionLibrary :=
  ⟨Overload.insert ⟨name, least, most, l.overloads.length, run⟩ l.overloads⟩

def contains (l : FunctionLibrary) (name : ExpandedName) : Bool :=
  l.overloads.any (·.name == name)

/-- The best-ranked overload that takes a number of arguments. -/
def resolve (l : FunctionLibrary) (name : ExpandedName) (arity : Nat) :
    Except ResolveFault Overload :=
  match l.overloads.find? fun o => o.name == name && o.takes arity with
  | some o => .ok o
  | none => if l.contains name then .error (.wrongArity name arity) else .error (.unknown name)

end FunctionLibrary

/-- A key: the nodes that match a pattern are found by the string values of an expression. -/
structure KeyDefinition where
  name : ExpandedName
  pattern : Pattern
  use : Expr

/-- What a transformation supplies. A resolver answers for absolute URIs; a lazy node-set is kept
from its `threshold`-th use on. -/
structure Transformation where
  functions : FunctionLibrary := {}
  keys : List KeyDefinition := []
  formats : NumberFormats := {}
  resolver : Option (String → Except Fault (Option Node)) := none
  threshold : Nat := 3
  globalNode : Option Node := none

namespace Transformation

/-- A transformation that supplies nothing. -/
def bare : Transformation := {}

/-- The same with lazy node-sets kept from a given use on, the first at the earliest. -/
def withThreshold (t : Transformation) (uses : Nat) : Transformation :=
  { t with threshold := max uses 1 }

/-- The context of global definitions. -/
def globalContext (t : Transformation) : Context := .onNode t.globalNode

def keysNamed (t : Transformation) (name : ExpandedName) : List KeyDefinition :=
  t.keys.filter (·.name == name)

end Transformation

end PathLanguage
