/-
The grammar of match patterns: paths of child and attribute steps, which may start from an id or a
key, joined by bars.
-/
import PathLanguage.Expr.Parse

namespace PathLanguage.Grammar

/-- The axis of a pattern step. -/
def patternAxis : Reader Axis := do
  match ← Reader.peek? with
  | some (.axis along) =>
    if along != .child && along != .attribute then Reader.fail .patternAxis
    Reader.advance
    return along
  | some .atSign =>
    Reader.advance
    if !(← atNodeTest) then Reader.fail .patternAtWithoutTest
    return .attribute
  | some (.function _) => Reader.fail .patternFunctionNotFirst
  | _ =>
    if !(← atNodeTest) then Reader.fail (.notAPatternStep (← Reader.shown))
    return .child

/-- What a step selects: any node means any that the axis can hold. -/
def patternTest (along : Axis) : Reader NodeTest := do
  if !(← atNodeTest) then Reader.fail (.notAPatternStep (← Reader.shown))
  match ← nodeTest along with
  | .any => return if along = .attribute then .ofKind .attribute else .anyChild
  | test => return test

/-- The predicates of a step, simplified. A pattern has no current node of its own, so none of them
may ask for it. -/
def patternPredicatesUpTo : (limit : Nat) → Reader (List Expr)
  | 0 => return []
  | n + 1 => do
    if (← Reader.peek?) = some .openBracket then
      Reader.advance
      let p := (← expr).simplified
      Reader.take .closeBracket
      if p.dependencies.currentNode then Reader.fail .currentInPattern
      return p :: (← patternPredicatesUpTo n)
    else return []

def patternStep (upper : Option (Connector × Pattern)) : Reader Pattern := do
  let along ← patternAxis
  let test ← patternTest along
  let predicates ← patternPredicatesUpTo (← Reader.remaining)
  return .ofStep along test predicates upper

def connector? : Option Token → Option Connector
  | some .slash => some .parent
  | some .doubleSlash => some .ancestor
  | _ => none

/-- The steps of a pattern, from the uppermost on. -/
def patternStepsUpTo : (limit : Nat) → Option (Connector × Pattern) → Reader Pattern
  | 0, upper => patternStep upper
  | n + 1, upper => do
    let p ← patternStep upper
    match connector? (← Reader.peek?) with
    | none => return p
    | some c =>
      Reader.advance
      patternStepsUpTo n (some (c, p))

def patternSteps (upper : Option (Connector × Pattern)) : Reader Pattern := do
  patternStepsUpTo (← Reader.remaining) upper

def idPattern : Reader Pattern := do
  let ids ← Reader.takeLiteral
  Reader.take .closeParen
  return .id ids

def keyPattern : Reader Pattern := do
  let keyName ← Reader.takeLiteral
  Reader.take .comma
  let value ← Reader.literal
  if !(← read).scope.allowsKey then Reader.fail .keyNotInPattern
  let name ← Reader.resolve keyName
  Reader.advance
  Reader.take .closeParen
  return .key name value

/-- The function that a pattern starts with. -/
def functionPattern (name : String) : Reader Pattern := do
  Reader.advance
  match name with
  | "id" => idPattern
  | "key" => keyPattern
  | _ => Reader.fail .patternFunction

/-- Whether a step of a pattern begins here. -/
def atPatternStep : Reader Bool := do
  match ← Reader.peek? with
  | some .atSign | some (.axis _) => return true
  | _ => atNodeTest

def pathPattern : Reader Pattern := do
  match ← Reader.peek? with
  | some .slash =>
    Reader.advance
    if ← atPatternStep then patternSteps (some (.parent, .document)) else return .document
  | some .doubleSlash =>
    Reader.advance
    patternSteps (some (.ancestor, .document))
  | some (.function name) =>
    let start ← functionPattern name
    match connector? (← Reader.peek?) with
    | none => return start
    | some c =>
      Reader.advance
      patternSteps (some (c, start))
  | _ => patternSteps none

def unionPatternUpTo : (limit : Nat) → Pattern → Reader Pattern
  | 0, p => return p
  | n + 1, p => do
    if (← Reader.peek?) = some .bar then
      Reader.advance
      unionPatternUpTo n (.union p (← pathPattern))
    else return p

def pattern : Reader Pattern := do
  let first ← pathPattern
  unionPatternUpTo (← Reader.remaining) first

end PathLanguage.Grammar

namespace PathLanguage.Pattern

/-- Reads a whole text as a pattern. -/
def parse (scope : Scope) (text : String) : Except SyntaxFault Pattern :=
  Grammar.pattern.run .beyondPattern scope text

end PathLanguage.Pattern
