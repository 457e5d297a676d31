/-
Matching: whether a node matches a pattern.
-/
import PathLanguage.Evaluation.Reading
import PathLanguage.Text.Blank
import PathLanguage.Tree.Lookup

namespace PathLanguage.Pattern

/-- Whether every predicate is true of a node as the only one of its list. -/
def holdAll (E : Engine) (focus : Context) : List Expr → Action Bool
  | [] => return true
  | p :: rest => do if ← E.boolean p focus then holdAll E focus rest else return false

/-- Whether a node that passes the test of a step passes its predicates. -/
def passes (E : Engine) (s : PatternStep) (n : Node) (context : Context) : Action Bool :=
  match s.check with
  | .none => holdAll E (context.withNode n) s.predicates
  | .first => return (← E.head (.onAxis n .precedingSibling s.test)).isNone
  | .last => return (← E.head (.onAxis n .followingSibling s.test)).isNone
  | .among e => do E.find n.same (← E.cursor e (context.withNode n) false)

/-- Whether some of the nodes satisfies a condition, tried in order. -/
def anyOf (holds : Node → Action Bool) : List Node → Action Bool
  | [] => return false
  | n :: rest => do if ← holds n then return true else anyOf holds rest

/-- Whether a node matches; the context supplies variables and the current node. -/
def accepts (E : Engine) : Pattern → Node → Context → Action Bool
  | .document, n, _ => return n.kind == .document
  | .test t, n, _ => return t.accepts n
  | .step s, n, context => if s.test.accepts n then passes E s n context else return false
  | .under connector upper s, n, context => do
    if !s.test.accepts n then return false
    let above := match connector with
      | .parent => n.parent.toList
      | .ancestor => n.ancestors
    if ← anyOf (fun m => accepts E upper m context) above then passes E s n context
    else return false
  | .id ids, n, _ =>
    return n.kind == .element && (Text.wordsBy Text.isWhiteSpace ids.toList).any fun w =>
      (n.elementWithId (String.ofList w)).any n.same
  | .key name value, n, context => return (← E.search name value n.top context).any n.same
  | .union a b, n, context => do
    if ← accepts E a n context then return true else accepts E b n context

end PathLanguage.Pattern
