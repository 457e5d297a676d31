/-
Readers: what takes the tokens of a text one after another, in a static scope, and ends in a result
or in a fault at a place of the text.
-/
import PathLanguage.Scope
import PathLanguage.Token.Lexer

namespace PathLanguage

/-- A text with its scope, and what ends its tokens early. -/
structure Source where
  text : String
  scope : Scope
  fault : Option (SyntaxCause × Nat)

/-- The state is the list of tokens not yet taken. -/
abbrev Reader := ReaderT Source (StateT (List PlacedToken) (Except SyntaxFault))

namespace Reader

/-- Fails at a byte offset of the text. -/
def failAt {α : Type} (position : Nat) (cause : SyntaxCause) : Reader α := fun s _ =>
  .error ⟨cause, s.text, some position⟩

/-- The next token, which stays; none at the end of the text. -/
def peek? : Reader (Option Token) := do return (← get).head?.map (·.token)

/-- The byte offset of the next token. -/
def position : Reader Nat := do
  match ← get with
  | t :: _ => return t.start
  | [] => return (← read).text.utf8ByteSize

def fail {α : Type} (cause : SyntaxCause) : Reader α := do failAt (← position) cause

/-- The next token as messages show it. -/
def shown : Reader String := return ((← peek?).map Token.display).getD Token.displayEnd

/-- Fails unless there is a next token or the text ends properly. -/
def checkReadable : Reader Unit := do
  match ← get, (← read).fault with
  | [], some (cause, position) => failAt position cause
  | _, _ => return ()

/-- Takes the next token. -/
def advance : Reader Unit := do
  modify List.tail
  checkReadable

/-- The number of tokens not yet taken. -/
def remaining : Reader Nat := return (← get).length

def lift {α : Type} (r : Except StaticFault α) : Reader α :=
  match r with
  | .ok a => return a
  | .error f => fail (.unresolved f)

def failExpected {α : Type} (description : String) : Reader α := do
  fail (.expected description (← shown))

/-- Takes the next token if it is the expected one. -/
def take (t : Token) : Reader Unit := do
  if (← peek?) = some t then advance else failExpected t.describe

/-- The content of the next token, which must be a literal and stays. -/
def literal : Reader String := do
  match ← peek? with
  | some (.literal s) => return s
  | _ => failExpected (Token.literal "").describe

def takeLiteral : Reader String := do
  let s ← literal
  advance
  return s

/-- The name that is the next token, which must be one and stays. -/
def name : Reader String := do
  match ← peek? with
  | some (.name s) => return s
  | _ => failExpected (Token.name "").describe

/-- Resolves a name in the scope. -/
def resolve (text : String) : Reader ExpandedName := do lift ((← read).scope.makeName text)

/-- Reads a whole text; `beyond` says what a token behind the result is. -/
def run {α : Type} (r : Reader α) (beyond : String → SyntaxCause) (scope : Scope) (text : String) :
    Except SyntaxFault α := do
  let l := TokenList.ofText text
  let whole : Reader α := do
    checkReadable
    let a ← r
    match ← peek? with
    | some t => fail (beyond t.display)
    | none => return a
  return (← (whole ⟨text, scope, l.fault⟩).run l.tokens).1

end Reader

end PathLanguage
