/-
Faults: the causes for which a name, a text or an evaluation is refused, and their wording.
-/
import PathLanguage.DataType
import PathLanguage.Name.Basic

namespace PathLanguage

/-- Why a name cannot be resolved in a static scope. -/
inductive StaticFault where
  | undeclaredPrefix (declared : String)
  | invalidName (name : String)
  | undeclaredVariable (name : ExpandedName)
  | variablesNotAllowed
deriving DecidableEq

def StaticFault.message : StaticFault → String
  | .undeclaredPrefix p => s!"Prefix {p} has not been declared"
  | .invalidName n => s!"Invalid QName {n}"
  | .undeclaredVariable n => s!"Variable {n.text} has not been declared"
  | .variablesNotAllowed => "Variables are not allowed in a standalone expression"

/-- How a count of arguments misses what a function takes. -/
inductive ArityFault where
  | notExactly (function : String) (count : Nat)
  | fewerThan (function : String) (least : Nat)
  | moreThan (function : String) (most : Nat)
deriving DecidableEq

namespace ArityFault

def plural (n : Nat) : String := if n = 1 then "" else "s"

def message : ArityFault → String
  | .notExactly f n => s!"Function {f} must have {n} argument" ++ plural n
  | .fewerThan f n => s!"Function {f} must have at least {n} argument" ++ plural n
  | .moreThan f n => s!"Function {f} must have no more than {n} argument" ++ plural n

end ArityFault

/-- Why a text is no expression, pattern or template. Tokens are given as they are shown. -/
inductive SyntaxCause where
  | unexpectedCharacter (c : Char)
  | unmatchedQuote
  | unknownAxis (name : String)
  | unknownSymbol (symbol : String)
  | expected (description found : String)
  | notANodeSet (construct : String) (found : DataType)
  | beyondExpression (token : String)
  | beyondPattern (token : String)
  | atWithoutTest
  | axisWithoutTest (token : String)
  | notAStep (token : String)
  | notANodeTest (token : String)
  | notAnOperand (token : String)
  | unresolved (fault : StaticFault)
  | unknownFunction (name : String)
  | unknownSetFunction (name : String)
  | arity (fault : ArityFault)
  | setOperationArity (name : String)
  | distinctArity
  | keyNotAvailable
  | patternAxis
  | patternAtWithoutTest
  | patternFunctionNotFirst
  | notAPatternStep (token : String)
  | currentInPattern
  | keyNotInPattern
  | patternFunction
  | undoubledBrace (template : String)
  | unclosedBrace (template : String)
deriving DecidableEq

def SyntaxCause.message : SyntaxCause → String
  | .unexpectedCharacter c => "Unexpected character '" ++ c.toString ++ "' in expression"
  | .unmatchedQuote => "Unmatched quote in expression"
  | .unknownAxis n => s!"Unknown axis name: {n}"
  | .unknownSymbol s => s!"Unexpected token {s} in expression"
  | .expected d f => s!"expected \"{d}\", found {f}"
  | .notANodeSet w t => s!"{w} requires a node-set, found a {t.label}"
  | .beyondExpression t => s!"Unexpected token {t} beyond end of expression"
  | .beyondPattern t => s!"Unexpected token {t} beyond end of pattern"
  | .atWithoutTest => "@ must be followed by a NameTest or NodeTest"
  | .axisWithoutTest t => s!"Unexpected token [{t}] after axis name"
  | .notAStep t => s!"Unexpected token [{t}] in path expression"
  | .notANodeTest t => s!"Unexpected token {t} in path expression"
  | .notAnOperand t => s!"Unexpected token {t} in expression"
  | .unresolved f => f.message
  | .unknownFunction n => s!"Unknown system function: {n}"
  | .unknownSetFunction n => s!"Unknown function set:{n}"
  | .arity f => f.message
  | .setOperationArity n => s!"Function set:{n} must have 2 arguments"
  | .distinctArity => "Function set:distinct must have 1 or 2 arguments"
  | .keyNotAvailable => "The key() function is not available in this context"
  | .patternAxis => "Axis in pattern must be child or attribute"
  | .patternAtWithoutTest => "@ in pattern not followed by NameTest or NodeTest"
  | .patternFunctionNotFirst => "Function may appear only at the start of a pattern"
  | .notAPatternStep t => s!"Unexpected token in pattern, found {t}"
  | .currentInPattern => "The current() function may not be used in a pattern"
  | .keyNotInPattern => "key() function cannot be used here"
  | .patternFunction => "The only functions allowed in a pattern are id() and key()"
  | .undoubledBrace t =>
    "Closing curly brace in attribute value template \"" ++ t ++ "\" must be doubled"
  | .unclosedBrace t => "No closing \"\x7d\" in attribute value template " ++ t

/-- A refused text, with the byte offset of the offending token when there is one. -/
structure SyntaxFault where
  cause : SyntaxCause
  expression : String
  position : Option Nat
deriving DecidableEq

def SyntaxFault.message (f : SyntaxFault) : String :=
  s!"Error in expression {f.expression}: {f.cause.message}"

/-- The sorts of evaluation faults that a caller can tell apart. -/
inductive FaultKind where
  | typeError
  | undefinedVariable
  | circularVariable
  | missingContext
  | functionError
  | hostError
  | deferredSyntax
  | internalError
deriving DecidableEq

namespace FaultKind

def label : FaultKind → String
  | .typeError => "type error"
  | .undefinedVariable => "undefined variable"
  | .circularVariable => "circular variable"
  | .missingContext => "missing context"
  | .functionError => "function error"
  | .hostError => "extension error"
  | .deferredSyntax => "deferred syntax error"
  | .internalError => "internal error"

def all : List FaultKind :=
  [.typeError, .undefinedVariable, .circularVariable, .missingContext, .functionError, .hostError,
    .deferredSyntax, .internalError]

def ofLabel? (s : String) : Option FaultKind := all.find? fun k => k.label == s

end FaultKind

/-- Why a host function of some name cannot be called with some number of arguments. -/
inductive ResolveFault where
  | unknown (name : ExpandedName)
  | wrongArity (name : ExpandedName) (arity : Nat)
deriving DecidableEq

def ResolveFault.message : ResolveFault → String
  | .unknown n => s!"Unknown function {n.text}"
  | .wrongArity n k => s!"Function {n.text} cannot be called with {k} arguments"

/-- Why a number picture cannot be read. -/
inductive PictureFault where
  | severalDecimalSeparators
  | groupingInFraction
  | unexpected (c after : Char)
  | noDigits
  | malformed (c : Char)
  | unclosedQuote
deriving DecidableEq

def PictureFault.message : PictureFault → String
  | .severalDecimalSeparators => "multiple decimal separators"
  | .groupingInFraction => "grouping separator in fractional part"
  | .unexpected c a => "unexpected '" ++ c.toString ++ "' after '" ++ a.toString ++ "'"
  | .noDigits => "no digits in pattern"
  | .malformed c => "malformed pattern at '" ++ c.toString ++ "'"
  | .unclosedQuote => "unterminated quote"

/-- Why a URI reference has no absolute form. -/
inductive UriFault where
  | relativeWithoutBase
  | relativeToOpaqueBase
  | emptyHost
  | invalidPort
  | invalidIPv4
  | invalidIPv6
  | invalidDomainCharacter
  | invalidDomain
deriving DecidableEq

def UriFault.message : UriFault → String
  | .relativeWithoutBase => "relative URL without a base"
  | .relativeToOpaqueBase => "relative URL with a cannot-be-a-base base"
  | .emptyHost => "empty host"
  | .invalidPort => "invalid port number"
  | .invalidIPv4 => "invalid IPv4 address"
  | .invalidIPv6 => "invalid IPv6 address"
  | .invalidDomainCharacter => "invalid domain character"
  | .invalidDomain => "invalid international domain name"

/-- Why an evaluation has no result. -/
inductive Fault where
  | noContextNode
  | noCurrentNode
  | undefinedVariable (name : ExpandedName)
  | circularVariable (name : ExpandedName)
  | notANodeSet (found : DataType)
  | fragmentAsNodeSet
  | unordered
  | dependentIntent (dependencies expression : String)
  | missingArgument (index : Nat) (function : String)
  | unresolvedFunction (fault : ResolveFault)
  | unavailableLibrary (uri name : String)
  | undefinedKey (name : String)
  | badUri (uri : String) (fault : UriFault)
  | noResolver (uri : String)
  | badPicture (picture : String) (fault : PictureFault)
  | undefinedFormat (name : String)
  | invalidNameArgument (name : String)
  | prefixWithoutScope (declared : String)
  | unresolvedName (fault : StaticFault)
  | deferred (fault : SyntaxFault)
  /-- An error of the host, shown as itself. -/
  | host (text : String)
  /-- A fault given by its kind and wording alone. -/
  | stated (kind : FaultKind) (text : String)
  /-- The evaluation went deeper than the evaluator follows. -/
  | tooDeep
deriving DecidableEq

namespace Fault

def kind : Fault → FaultKind
  | .noContextNode | .noCurrentNode => .missingContext
  | .undefinedVariable _ => .undefinedVariable
  | .circularVariable _ => .circularVariable
  | .notANodeSet _ | .fragmentAsNodeSet => .typeError
  | .unordered | .dependentIntent .. | .missingArgument .. | .tooDeep => .internalError
  | .unresolvedFunction _ | .unavailableLibrary .. | .undefinedKey _ | .badUri .. | .noResolver _
  | .badPicture .. | .undefinedFormat _ | .invalidNameArgument _ | .prefixWithoutScope _
  | .unresolvedName _ => .functionError
  | .deferred _ => .deferredSyntax
  | .host _ => .hostError
  | .stated k _ => k

def message : Fault → String
  | .noContextNode => "The context item is undefined"
  | .noCurrentNode => "The current node is undefined"
  | .undefinedVariable n => s!"Variable {n.text} is undefined"
  | .circularVariable n => s!"Circular definition of variable {n.text}"
  | .notANodeSet t => s!"Value is not a node-set (found {t.label})"
  | .fragmentAsNodeSet =>
    "Cannot process a result tree fragment as a node-set under XSLT 1.0"
  | .unordered => "document order is undefined for nodes of different trees"
  | .dependentIntent d e =>
    s!"Cannot create intensional node-set with context dependencies {d}: {e}"
  | .missingArgument i f => s!"missing argument {i} of {f}"
  | .unresolvedFunction f => f.message
  | .unavailableLibrary u n =>
    s!"The URI {u} does not identify an available function library ({n})"
  | .undefinedKey n => s!"Key {n} has not been defined"
  | .badUri u f => s!"Cannot resolve URI {u}: {f.message}"
  | .noResolver u => s!"Cannot load document {u}: no document resolver is configured"
  | .badPicture p f => s!"Unable to interpret format pattern {p} ({f.message})"
  | .undefinedFormat n => s!"format-number function: decimal-format {n} not registered"
  | .invalidNameArgument n => s!"Argument {n} is not a valid QName"
  | .prefixWithoutScope p => s!"Prefix {p} cannot be resolved without a static context"
  | .unresolvedName f => f.message
  | .deferred f => f.message
  | .host t => t
  | .stated _ t => t
  | .tooDeep => "evaluation is nested too deeply"

/-- The text of the error behind a fault, if there is one. -/
def source : Fault → Option String
  | .badUri _ f => some f.message
  | .deferred f => some f.message
  | .host t => some t
  | _ => none

end Fault

end PathLanguage
