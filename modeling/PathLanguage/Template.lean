/-
Attribute value templates: texts with expressions in braces, in which a doubled brace stands for
itself.
-/
import PathLanguage.Expr.Parse

namespace PathLanguage.Template

/-- The text of an expression up to the brace that closes it, and what follows the brace. A brace
between quotes closes nothing. -/
def hole? : (quote : Option Char) → List Char → Option (List Char × List Char)
  | _, [] => none
  | none, c :: rest =>
    if c = '\x7d' then some ([], rest)
    else
      (hole? (if c = '"' ∨ c = '\'' then some c else none) rest).map fun p => (c :: p.1, p.2)
  | some q, c :: rest => (hole? (if c = q then none else some q) rest).map fun p => (c :: p.1, p.2)

/-- The part for the characters before a hole or the end, given in reverse. -/
def literalPart (pending : List Char) : List Expr :=
  if pending.isEmpty then [] else [.value (.string (String.ofList pending.reverse))]

/-- The parts of the template from some place on. -/
def partsUpTo (scope : Scope) (template : String) :
    (limit : Nat) → (pending : List Char) → List Char → Except SyntaxFault (List Expr)
  | _, pending, [] => .ok (literalPart pending)
  | 0, pending, _ => .ok (literalPart pending)
  | n + 1, pending, '\x7b' :: '\x7b' :: rest => partsUpTo scope template n ('\x7b' :: pending) rest
  | n + 1, pending, '\x7d' :: '\x7d' :: rest => partsUpTo scope template n ('\x7d' :: pending) rest
  | n + 1, pending, c :: rest =>
    if c = '\x7d' then
      .error ⟨.undoubledBrace template, template,
        some (template.utf8ByteSize - Lexer.byteSize (c :: rest))⟩
    else if c = '\x7b' then
      match hole? none rest with
      | none => .error ⟨.unclosedBrace template, template, none⟩
      | some (inside, rest) => do
        let e ← Expr.parse scope (String.ofList inside)
        return literalPart pending ++ e :: (← partsUpTo scope template n [] rest)
    else partsUpTo scope template n (c :: pending) rest

/-- Reads a template as an expression for its string. -/
def parse (scope : Scope) (template : String) : Except SyntaxFault Expr := do
  let parts ← partsUpTo scope template template.length [] template.toList
  return (Expr.template parts).simplified

end PathLanguage.Template
