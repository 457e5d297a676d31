/-
Expressions from their texts, simplified.
-/
import PathLanguage.Evaluation
import PathLanguage.Expr.Grammar
import PathLanguage.Expr.Simplification

namespace PathLanguage.Expr

/-- The simplified form of an expression whose constants come from its text, so that nothing of a
host is needed. -/
def simplified (e : Expr) : Expr :=
  ((e.simplify .bare Transformation.bare.run).run {}).1.1

/-- Reads a whole text as an expression, as its operators and brackets stand. -/
def read (scope : Scope) (text : String) : Except SyntaxFault Expr :=
  Grammar.expr.run .beyondExpression scope text

/-- Reads and simplifies an expression. Where later versions of the language are tolerated, a text
that cannot be read becomes an expression that cannot be evaluated. -/
def parse (scope : Scope) (text : String) : Except SyntaxFault Expr :=
  match read scope text with
  | .ok e => .ok e.simplified
  | .error f => if scope.forwardsCompatible then .ok (.failure (.deferred f)) else .error f

/-- Reads an expression and evaluates it on a node, with nothing of a host. -/
def evaluateAlone (text : String) (n : Node) : Action Value := do
  let e ← .ofExcept ((parse .standalone text).mapError .deferred)
  Transformation.bare.run.value e (.onNode (some n))

end PathLanguage.Expr
