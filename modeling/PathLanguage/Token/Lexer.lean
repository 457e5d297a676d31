/-
The tokens of a text. At each place the first form that fits is taken: a quoted text, a number, a
name with a star, a name, a symbol; of each form as much as belongs to it.
-/
import PathLanguage.Text.Blank
import PathLanguage.Token

namespace PathLanguage

namespace Lexer

def isNameStart (c : Char) : Bool := Text.isLetter c || c == '_'

def isNameChar (c : Char) : Bool :=
  Text.isLetter c || Text.isNumber c || Text.isMark c || c == '_' || c == '-' || c == '.' ||
    c == '\u00b7'

/-- A name without a colon, and the text behind it. -/
def simpleName? : List Char → Option (List Char × List Char)
  | c :: rest =>
    if isNameStart c then some (c :: rest.takeWhile isNameChar, rest.dropWhile isNameChar)
    else none
  | [] => none

/-- A name with or without a prefix, and the text behind it. -/
def name? (cs : List Char) : Option (List Char × List Char) :=
  (simpleName? cs).map fun (first, rest) =>
    match rest with
    | ':' :: more =>
      match simpleName? more with
      | some (second, rest) => (first ++ ':' :: second, rest)
      | none => (first, ':' :: more)
    | _ => (first, rest)

/-- Digits with an optional point and fraction, or a point with digits. -/
def number? : List Char → Option (List Char × List Char)
  | '.' :: d :: rest =>
    if d.isDigit then some ('.' :: d :: rest.takeWhile Char.isDigit, rest.dropWhile Char.isDigit)
    else none
  | d :: rest =>
    if d.isDigit then
      let whole := d :: rest.takeWhile Char.isDigit
      match rest.dropWhile Char.isDigit with
      | '.' :: more =>
        some (whole ++ '.' :: more.takeWhile Char.isDigit, more.dropWhile Char.isDigit)
      | rest => some (whole, rest)
    else none
  | [] => none

/-- The tokens written as symbols; of two with a common beginning the longer one comes first. -/
def symbols : List (List Char × Token) :=
  [(['/', '/'], .doubleSlash), (['/'], .slash), (['|'], .bar),
    (['!', '='], .comparison .unequal), (['<', '='], .comparison .atMost),
    (['>', '='], .comparison .atLeast), (['='], .comparison .equal), (['<'], .comparison .less),
    (['>'], .comparison .greater), (['+'], .arithmetic .plus), (['-'], .arithmetic .minus),
    (['*'], .star), (['('], .openParen), ([')'], .closeParen), (['['], .openBracket),
    ([']'], .closeBracket), ([','], .comma), (['$'], .dollar), (['@'], .atSign),
    (['.', '.'], .twoDots), (['.'], .dot)]

/-- The operator that a name stands for after an operand. -/
def operatorNamed? : String → Option Token
  | "and" => some (.logical .and)
  | "or" => some (.logical .or)
  | "div" => some (.arithmetic .div)
  | "mod" => some (.arithmetic .mod)
  | _ => none

/-- The names of the tests for kinds of nodes. -/
def nodeTypes : List String := ["node", "text", "comment", "processing-instruction"]

/-- What a name is, by what follows it behind blanks: a function or a node type before a
parenthesis, an axis before two colons. -/
def nameToken (afterOperand : Bool) (name : String) (rest : List Char) :
    Except SyntaxCause (Token × List Char) :=
  match if afterOperand then operatorNamed? name else none with
  | some op => .ok (op, rest)
  | none =>
    match rest.dropWhile Text.isBlank with
    | '(' :: inside =>
      .ok (if nodeTypes.contains name then .nodeType name else .function name, inside)
    | ':' :: ':' :: step =>
      if name.contains ':' then .ok (.name name, rest)
      else match Axis.ofName? name with
        | some a => .ok (.axis a, step)
        | none => .error (.unknownAxis name)
    | _ => .ok (.name name, rest)

def symbolToken (afterOperand : Bool) (cs : List Char) : Except SyntaxCause (Token × List Char) :=
  match symbols.find? fun s => s.1.isPrefixOf cs with
  | some (s, .star) =>
    .ok (if afterOperand then .arithmetic .times else .star, cs.drop s.length)
  | some (s, t) => .ok (t, cs.drop s.length)
  | none =>
    match cs with
    | ':' :: ':' :: _ => .error (.unknownSymbol "::")
    | c :: _ => .error (.unexpectedCharacter c)
    | [] => .error (.unexpectedCharacter ' ')

/-- A text up to the next quote, and what follows the quote. -/
def quoted (quote : Char) (cs : List Char) : Except SyntaxCause (Token × List Char) :=
  match cs.dropWhile (· != quote) with
  | _ :: rest => .ok (.literal (String.ofList (cs.takeWhile (· != quote))), rest)
  | [] => .error .unmatchedQuote

/-- The token at the beginning of a text that does not begin with a blank, and what follows it. -/
def token (afterOperand : Bool) (cs : List Char) : Except SyntaxCause (Token × List Char) :=
  match cs with
  | '"' :: rest => quoted '"' rest
  | '\'' :: rest => quoted '\'' rest
  | _ =>
    match number? cs with
    | some (digits, rest) => .ok (.number (String.ofList digits), rest)
    | none =>
      match simpleName? cs with
      | some (declared, ':' :: '*' :: rest) =>
        .ok (.prefixWildcard (String.ofList declared), rest)
      | _ =>
        match name? cs with
        | some (name, rest) => nameToken afterOperand (String.ofList name) rest
        | none => symbolToken afterOperand cs

def byteSize (cs : List Char) : Nat := cs.foldl (fun size c => size + c.utf8Size) 0

end Lexer

/-- A token in its text: the byte offsets where it begins and where it ends. -/
structure PlacedToken where
  token : Token
  start : Nat
  stop : Nat
deriving DecidableEq

/-- The tokens of a text, up to its end or up to the first place where there is none. -/
structure TokenList where
  tokens : List PlacedToken
  fault : Option (SyntaxCause × Nat)

namespace TokenList

def cons (t : PlacedToken) (l : TokenList) : TokenList := { l with tokens := t :: l.tokens }

/-- The tokens of the text from an offset on, at most a number of them. -/
def ofChars : (limit : Nat) → (afterOperand : Bool) → (offset : Nat) → List Char → TokenList
  | 0, _, _, _ => ⟨[], none⟩
  | n + 1, afterOperand, offset, cs =>
    let cs' := cs.dropWhile Text.isBlank
    let start := offset + (Lexer.byteSize cs - Lexer.byteSize cs')
    if cs'.isEmpty then ⟨[], none⟩
    else match Lexer.token afterOperand cs' with
      | .error cause => ⟨[], some (cause, start)⟩
      | .ok (t, rest) =>
        let stop := start + (Lexer.byteSize cs' - Lexer.byteSize rest)
        (ofChars n t.endsOperand stop rest).cons ⟨t, start, stop⟩

/-- All tokens of a text, of which there are at most as many as characters. -/
def ofText (s : String) : TokenList := ofChars (s.length + 1) false 0 s.toList

end TokenList

end PathLanguage
