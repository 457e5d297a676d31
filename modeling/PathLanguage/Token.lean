/-
Tokens of expressions and patterns, and how they are shown in messages.
-/
import PathLanguage.Expr.Basic

namespace PathLanguage

inductive Token where
  /-- A quoted text, without its quotes. -/
  | literal (content : String)
  | number (digits : String)
  | name (text : String)
  /-- All names with a declared prefix: the prefix, a colon and a star. -/
  | prefixWildcard (declared : String)
  /-- The name of a function with the parenthesis that follows it. -/
  | function (name : String)
  /-- The name of a test for a kind of node, with the parenthesis that follows it. -/
  | nodeType (name : String)
  /-- The name of an axis with the two colons that follow it. -/
  | axis (along : Axis)
  | comparison (op : Comparison)
  | arithmetic (op : ArithmeticOp)
  | logical (op : Connective)
  | slash
  | doubleSlash
  | bar
  | openParen
  | closeParen
  | openBracket
  | closeBracket
  | comma
  | dollar
  | atSign
  /-- A star that stands for any name. -/
  | star
  | dot
  | twoDots
deriving DecidableEq

namespace Token

/-- The content of a literal, the bare name of a function or axis, the symbol of all else. -/
def text : Token → String
  | .literal s | .number s | .name s | .prefixWildcard s | .function s | .nodeType s => s
  | .axis a => a.name
  | .comparison op => op.symbol
  | .arithmetic op => op.symbol
  | .logical op => op.symbol
  | .slash => "/"
  | .doubleSlash => "//"
  | .bar => "|"
  | .openParen => "("
  | .closeParen => ")"
  | .openBracket => "["
  | .closeBracket => "]"
  | .comma => ","
  | .dollar => "$"
  | .atSign => "@"
  | .star => "*"
  | .dot => "."
  | .twoDots => ".."

/-- The sort of token, as it is said to be expected. -/
def describe : Token → String
  | .literal _ => "<literal>"
  | .number _ => "<number>"
  | .name _ => "<name>"
  | .prefixWildcard _ => "<prefix:*>"
  | .function _ => "<function>("
  | .nodeType _ => "<node-type>()"
  | .axis _ => "<axis>::"
  | t => t.text

/-- The token as it is said to be found. -/
def display : Token → String
  | .literal s => "\"" ++ s ++ "\""
  | .function s | .nodeType s => s ++ "("
  | .axis a => a.name ++ "::"
  | .prefixWildcard s => s ++ ":*"
  | t => t.text

/-- How the end of the text is shown. -/
def displayEnd : String := "<eof>"

/-- Whether a star or an operator name that follows is an operator. -/
def endsOperand : Token → Bool
  | .literal _ | .number _ | .name _ | .prefixWildcard _ | .star | .closeParen | .closeBracket
  | .dot | .twoDots => true
  | _ => false

/-- Whether a step may begin here with a test for a name or a kind. -/
def beginsNodeTest : Token → Bool
  | .name _ | .prefixWildcard _ | .star | .nodeType _ => true
  | _ => false

def beginsStep : Token → Bool
  | .axis _ | .atSign | .dot | .twoDots => true
  | t => t.beginsNodeTest

end Token

end PathLanguage
