/-
Values in use: conversion to strings, numbers and booleans, and comparison, in which a node-set
stands for each of its members.
-/
import PathLanguage.Evaluation.NodeSet

namespace PathLanguage.Value

def asString (T : Transformation) (E : Engine) : Value → Action String
  | .string s => return s
  | .number n => return n.stringValue
  | .boolean b => return if b then "true" else "false"
  | .nodeSet ns => ns.asString T E
  | .object t => return t

def asNumber (T : Transformation) (E : Engine) : Value → Action Number
  | .string s => return .ofText s
  | .number n => return n
  | .boolean b => return if b then 1 else 0
  | .nodeSet ns => return .ofText (← ns.asString T E)
  | .object t => return .ofText t

def asBoolean (T : Transformation) (E : Engine) : Value → Action Bool
  | .string s => return s != ""
  | .number n => return n.truth
  | .boolean b => return b
  | .nodeSet ns => ns.asBoolean T E
  | .object t => return t != ""

/-- The value as one of the scalar types; as any other type it stays what it is. -/
def convert (T : Transformation) (E : Engine) (v : Value) : DataType → Action Value
  | .boolean => return .boolean (← v.asBoolean T E)
  | .number => return .number (← v.asNumber T E)
  | .string => return .string (← v.asString T E)
  | _ => return v

/-- Comparison of a node-set with a value of another type; the first member that stands in the
relation decides. A host object is never in relation with a node-set. -/
def compareMembers (T : Transformation) (E : Engine) (ns : NodeSet) (op : Comparison) :
    Value → Action Bool
  | .boolean b => return op.booleans (← ns.asBoolean T E) b
  | .number x => do E.find (fun n => op.numbers (.ofText n.stringValue) x) (← ns.scan T E)
  | .string s => do E.find (fun n => op.strings n.stringValue s) (← ns.scan T E)
  | .object _ | .nodeSet _ => return false

/-- Whether some member of one node-set stands in the relation to some member of another. -/
def compareNodeSets (T : Transformation) (E : Engine) (a : NodeSet) (op : Comparison)
    (b : NodeSet) : Action Bool := do
  let left ← E.drain (← a.scan T E)
  if left.isEmpty then return false
  let right ← E.drain (← b.scan T E)
  return op.stringLists (left.map Node.stringValue) (right.map Node.stringValue)

/-- Comparison of values that are no node-sets: as booleans or numbers if one of them is such, as
numbers if ordered, else as strings. -/
def compareScalars (T : Transformation) (E : Engine) (a : Value) (op : Comparison) (b : Value) :
    Action Bool := do
  if op.isEquality then
    match a, b with
    | .boolean _, _ | _, .boolean _ => return op.booleans (← a.asBoolean T E) (← b.asBoolean T E)
    | .number _, _ | _, .number _ => return op.numbers (← a.asNumber T E) (← b.asNumber T E)
    | _, _ => return op.strings (← a.asString T E) (← b.asString T E)
  else return op.numbers (← a.asNumber T E) (← b.asNumber T E)

def compare (T : Transformation) (E : Engine) (a : Value) (op : Comparison) (b : Value) :
    Action Bool :=
  match a, b with
  | .nodeSet x, .nodeSet y => compareNodeSets T E x op y
  | .nodeSet x, v => compareMembers T E x op v
  | v, .nodeSet y => compareMembers T E y op.inverse v
  | v, w => compareScalars T E v op w

end PathLanguage.Value
