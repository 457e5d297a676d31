/-
Sorting by keys: the values of the keys of each node, their order, and the stable sort by it.
-/
import PathLanguage.Evaluation.Engine
import PathLanguage.Text.Casing

namespace PathLanguage

/-- The value of one sort key; a text is compared without case first. -/
inductive KeyValue where
  | text (folded raw : List Char)
  | number (n : Number)

namespace KeyValue

/-- NaN comes before every number. -/
def orderNumbers (a b : Number) : Ordering :=
  match a.isNaN, b.isNaN with
  | true, true => .eq
  | true, false => .lt
  | false, true => .gt
  | false, false => (a.cmp? b).getD .eq

def orderChars : List Char → List Char → Ordering
  | [], [] => .eq
  | [], _ :: _ => .lt
  | _ :: _, [] => .gt
  | a :: as, b :: bs => (compare a.toNat b.toNat).then (orderChars as bs)

/-- Order of two texts by the first characters that differ, upper case before lower case unless
asked for otherwise. -/
def orderCase (caseOrder : CaseOrder) : List Char → List Char → Ordering
  | [], [] => .eq
  | [], _ :: _ => .lt
  | _ :: _, [] => .gt
  | a :: as, b :: bs =>
    if a == b then orderCase caseOrder as bs
    else
      let upperFirst := match Text.isUppercase a, Text.isUppercase b with
        | true, false => .lt
        | false, true => .gt
        | _, _ => compare a.toNat b.toNat
      match caseOrder with
      | .upperFirst => upperFirst
      | .lowerFirst => upperFirst.swap

def order (rule : SortRule) (a b : KeyValue) : Ordering :=
  let ascending := match a, b with
    | .number x, .number y => orderNumbers x y
    | .text fa ra, .text fb rb => (orderChars fa fb).then (orderCase rule.caseOrder ra rb)
    | _, _ => .eq
  match rule.direction with
  | .ascending => ascending
  | .descending => ascending.swap

/-- Order of two lists of key values, earlier keys first. -/
def orderAll : List SortRule → List KeyValue → List KeyValue → Ordering
  | rule :: rules, a :: as, b :: bs => (order rule a b).then (orderAll rules as bs)
  | _, _, _ => .eq

end KeyValue

namespace Sorting

def keyValue (E : Engine) (rule : SortRule) (key : Expr) (focus : Context) : Action KeyValue :=
  match rule.type with
  | .number => return .number (← E.number key focus)
  | .text => do
    let raw ← E.string key focus
    return .text (Text.lower raw).toList raw.toList

/-- The values of all keys of one node. -/
def keyValues (E : Engine) (focus : Context) : List (Expr × SortRule) → Action (List KeyValue)
  | [] => return []
  | (key, rule) :: rest => return (← keyValue E rule key focus) :: (← keyValues E focus rest)

/-- Each node with its key values; a node is in focus at its position and current. -/
def records (E : Engine) (keys : List (Expr × SortRule)) (context : Context) (last : Nat) :
    (position : Nat) → List Node → Action (List (Node × List KeyValue))
  | _, [] => return []
  | position, n :: rest => do
    let values ← keyValues E ((context.withFocus n position last).withCurrent n) keys
    return (n, values) :: (← records E keys context last (position + 1) rest)

/-- The nodes in the order of their keys; equal ones keep their order. -/
def sortNodes (E : Engine) (nodes : List Node) (keys : List (Expr × SortRule)) (context : Context) :
    Action (List Node) := do
  let rs ← records E keys context nodes.length 1 nodes
  let rules := keys.map (·.2)
  return (rs.mergeSort fun a b => KeyValue.orderAll rules a.2 b.2 != .gt).map (·.1)

end Sorting

end PathLanguage
