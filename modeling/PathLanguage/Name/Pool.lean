/-
Name pools: expanded names numbered in the order in which they are entered. Those who share a pool
read it and write to it under its lock: `lookup` and `name` are one reading, `enter` is one writing.
-/
import PathLanguage.Name.Basic

namespace PathLanguage

/-- The number of a name in its pool. -/
abbrev Fingerprint := Nat

namespace Fingerprint

/-- Numbers are 32 bits wide. -/
def greatest : Fingerprint := UInt32.size - 1

/-- The number of the name at a place, the greatest one for all places from there on. -/
def ofPlace (place : Nat) : Fingerprint := min place greatest

end Fingerprint

/-- The names in the order in which they were entered, and the number of each. -/
structure NamePool where
  numbers : List (ExpandedName × Fingerprint) := []
  names : List ExpandedName := []
deriving Inhabited

namespace NamePool

/-- The number of a name already entered. -/
def lookup (pool : NamePool) (name : ExpandedName) : Option Fingerprint := pool.numbers.lookup name

/-- Enters a name behind the others, unless it has been entered since the caller missed it. -/
def enter (pool : NamePool) (name : ExpandedName) : Fingerprint × NamePool :=
  match pool.lookup name with
  | some id => (id, pool)
  | none =>
    let id := Fingerprint.ofPlace pool.names.length
    (id, ⟨(name, id) :: pool.numbers, pool.names ++ [name]⟩)

/-- The number of a name, which is entered on first sight: one reading, and a writing if the name is
missing. -/
def allocate (pool : NamePool) (name : ExpandedName) : Fingerprint × NamePool :=
  match pool.lookup name with
  | some id => (id, pool)
  | none => pool.enter name

def name (pool : NamePool) (id : Fingerprint) : Option ExpandedName := pool.names[id]?

end NamePool

end PathLanguage
