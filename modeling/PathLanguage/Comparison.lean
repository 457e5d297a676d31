/-
Comparison operators, and how they compare numbers, strings, booleans and lists of strings.
-/
import PathLanguage.Number.Text

namespace PathLanguage

inductive Comparison where
  | equal
  | unequal
  | less
  | atMost
  | greater
  | atLeast
deriving DecidableEq

namespace Comparison

def all : List Comparison := [.equal, .unequal, .less, .atMost, .greater, .atLeast]

def symbol : Comparison → String
  | .equal => "="
  | .unequal => "!="
  | .less => "<"
  | .atMost => "<="
  | .greater => ">"
  | .atLeast => ">="

def ofSymbol? (s : String) : Option Comparison := all.find? fun c => c.symbol == s

/-- The operator that says the same with its operands exchanged. -/
def inverse : Comparison → Comparison
  | .less => .greater
  | .atMost => .atLeast
  | .greater => .less
  | .atLeast => .atMost
  | c => c

def isEquality : Comparison → Bool
  | .equal | .unequal => true
  | _ => false

/-- Comparison by value, in which a NaN is only unequal. -/
def numbers (c : Comparison) (a b : Number) : Bool :=
  match c with
  | .equal => a.eq b
  | .unequal => !a.eq b
  | .less => a.lt b
  | .atMost => a.le b
  | .greater => b.lt a
  | .atLeast => b.le a

/-- Strings are equal as text and ordered as numbers. -/
def strings (c : Comparison) (a b : String) : Bool :=
  match c with
  | .equal => a == b
  | .unequal => a != b
  | _ => c.numbers (.ofText a) (.ofText b)

def booleans (c : Comparison) (a b : Bool) : Bool :=
  let number (x : Bool) : Number := if x then 1 else 0
  match c with
  | .equal => a == b
  | .unequal => a != b
  | _ => c.numbers (number a) (number b)

/-- The least and the greatest of the numbers that are not NaN. -/
def extremes? (ns : List Number) : Option (Number × Number) :=
  match ns.filter fun n => !n.isNaN with
  | [] => none
  | n :: rest => some (rest.foldl .min n, rest.foldl .max n)

/-- Whether some string of the left list stands in the relation to some string of the right one. -/
def stringLists (c : Comparison) (left right : List String) : Bool :=
  match left, right with
  | [], _ | _, [] => false
  | first :: _, _ =>
    match c with
    | .equal => left.any right.contains
    | .unequal => (left ++ right).any (· != first)
    | _ =>
      match extremes? (left.map .ofText), extremes? (right.map .ofText) with
      | some (lmin, lmax), some (rmin, rmax) =>
        match c with
        | .less => lmin.lt rmax
        | .atMost => lmin.le rmax
        | .greater => rmin.lt lmax
        | _ => rmin.le lmax
      | _, _ => false

end Comparison

end PathLanguage
