/-
The evaluator: an engine for a transformation, as deep as evaluations are followed, and its public
entry points.
-/
import PathLanguage.Evaluation.Expr
import PathLanguage.Evaluation.Key
import PathLanguage.Evaluation.Reduction

namespace PathLanguage

/-- The engine that follows evaluations to a depth. -/
def engine (T : Transformation) : (depth : Nat) → Engine
  | 0 => .exhausted
  | n + 1 => {
    value := fun e c => e.evaluate T (engine T n) c
    boolean := fun e c => e.evaluateBoolean T (engine T n) c
    number := fun e c => e.evaluateNumber T (engine T n) c
    string := fun e c => e.evaluateString T (engine T n) c
    nodeSet := fun e c => e.evaluateNodeSet (engine T n) c
    cursor := fun e c sort => e.enumerate T (engine T n) c sort
    reduce := fun mask e c => e.reduce (engine T n) mask c
    next := fun c => c.next (engine T n)
    size := fun c => c.size (engine T n)
    drain := fun c => c.drain (engine T n)
    find := fun test c => c.find (engine T n) test
    search := fun name value root c => Key.search T (engine T n) name value root c }

namespace Transformation

/-- How deep evaluations are followed. -/
def depth : Nat := 1000000

def run (T : Transformation) : Engine := engine T depth

end Transformation

end PathLanguage
