/-
The catalog of system functions: names, numbers of arguments, result types and what a call reads
of its context.
-/
import PathLanguage.Dependencies
import PathLanguage.Fault

namespace PathLanguage

inductive SystemFunction where
  | last
  | position
  | count
  | current
  | id
  | key
  | document
  | localName
  | namespaceUri
  | name
  | generateId
  | not
  | true
  | false
  | boolean
  | lang
  | number
  | floor
  | ceiling
  | round
  | sum
  | string
  | startsWith
  | stringLength
  | substring
  | contains
  | substringBefore
  | substringAfter
  | normalizeSpace
  | translate
  | concat
  | formatNumber
  | systemProperty
  | functionAvailable
  | elementAvailable
  | unparsedEntityUri
  | hasSameNode
  | leading
  | trailing
deriving DecidableEq

/-- What a call of a function looks like; without a maximum any number of arguments may follow. -/
structure Signature where
  name : String
  least : Nat
  most : Option Nat
  result : DataType

namespace SystemFunction

def signature : SystemFunction → Signature
  | .last => ⟨"last", 0, some 0, .number⟩
  | .position => ⟨"position", 0, some 0, .number⟩
  | .count => ⟨"count", 1, some 1, .number⟩
  | .current => ⟨"current", 0, some 0, .nodeSet⟩
  | .id => ⟨"id", 1, some 1, .nodeSet⟩
  | .key => ⟨"key", 2, some 2, .nodeSet⟩
  | .document => ⟨"document", 1, some 2, .nodeSet⟩
  | .localName => ⟨"local-name", 0, some 1, .string⟩
  | .namespaceUri => ⟨"namespace-uri", 0, some 1, .string⟩
  | .name => ⟨"name", 0, some 1, .string⟩
  | .generateId => ⟨"generate-id", 0, some 1, .string⟩
  | .not => ⟨"not", 1, some 1, .boolean⟩
  | .true => ⟨"true", 0, some 0, .boolean⟩
  | .false => ⟨"false", 0, some 0, .boolean⟩
  | .boolean => ⟨"boolean", 1, some 1, .boolean⟩
  | .lang => ⟨"lang", 1, some 1, .boolean⟩
  | .number => ⟨"number", 0, some 1, .number⟩
  | .floor => ⟨"floor", 1, some 1, .number⟩
  | .ceiling => ⟨"ceiling", 1, some 1, .number⟩
  | .round => ⟨"round", 1, some 1, .number⟩
  | .sum => ⟨"sum", 1, some 1, .number⟩
  | .string => ⟨"string", 0, some 1, .string⟩
  | .startsWith => ⟨"starts-with", 2, some 2, .boolean⟩
  | .stringLength => ⟨"string-length", 0, some 1, .number⟩
  | .substring => ⟨"substring", 2, some 3, .string⟩
  | .contains => ⟨"contains", 2, some 2, .boolean⟩
  | .substringBefore => ⟨"substring-before", 2, some 2, .string⟩
  | .substringAfter => ⟨"substring-after", 2, some 2, .string⟩
  | .normalizeSpace => ⟨"normalize-space", 0, some 1, .string⟩
  | .translate => ⟨"translate", 3, some 3, .string⟩
  | .concat => ⟨"concat", 2, none, .string⟩
  | .formatNumber => ⟨"format-number", 2, some 3, .string⟩
  | .systemProperty => ⟨"system-property", 1, some 1, .any⟩
  | .functionAvailable => ⟨"function-available", 1, some 1, .boolean⟩
  | .elementAvailable => ⟨"element-available", 1, some 1, .boolean⟩
  | .unparsedEntityUri => ⟨"unparsed-entity-uri", 1, some 1, .string⟩
  | .hasSameNode => ⟨"has-same-node", 2, some 2, .boolean⟩
  | .leading => ⟨"leading", 2, some 2, .nodeSet⟩
  | .trailing => ⟨"trailing", 2, some 2, .nodeSet⟩

/-- The functions called without a prefix. -/
def core : List SystemFunction :=
  [.last, .position, .count, .current, .id, .key, .document, .localName, .namespaceUri, .name,
    .generateId, .not, .true, .false, .boolean, .lang, .number, .floor, .ceiling, .round, .sum,
    .string, .startsWith, .stringLength, .substring, .contains, .substringBefore, .substringAfter,
    .normalizeSpace, .translate, .concat, .formatNumber, .systemProperty, .functionAvailable,
    .elementAvailable, .unparsedEntityUri]

/-- The set functions that are calls; the others are set operations. -/
def setFunctions : List SystemFunction := [.hasSameNode, .leading, .trailing]

def result (f : SystemFunction) : DataType := f.signature.result

def ofName? (s : String) : Option SystemFunction := core.find? fun f => f.signature.name == s

def ofSetName? (s : String) : Option SystemFunction :=
  setFunctions.find? fun f => f.signature.name == s

def isSetFunction (f : SystemFunction) : Bool := setFunctions.contains f

def expandedName (f : SystemFunction) : ExpandedName :=
  if f.isSetFunction then .make (some Name.setsNamespace) f.signature.name
  else .unqualified f.signature.name

/-- The name as a call shows it, with the usual prefix for the set functions. -/
def display (f : SystemFunction) : String :=
  if f.isSetFunction then "set:" ++ f.signature.name else f.signature.name

/-- The function that a call shows under a name. -/
def ofDisplay? (s : String) : Option SystemFunction :=
  (core ++ setFunctions).find? fun f => f.display == s

/-- What is wrong with a number of arguments, if anything. -/
def arityFault? (f : SystemFunction) (count : Nat) : Option ArityFault :=
  let s := f.signature
  if s.most = some s.least ∧ count ≠ s.least then some (.notExactly f.display s.least)
  else if count < s.least then some (.fewerThan f.display s.least)
  else match s.most with
    | some most => if most < count then some (.moreThan f.display most) else Option.none
    | none => Option.none

/-- What a call reads of its context beyond its arguments. -/
def intrinsic (f : SystemFunction) (arity : Nat) : Dependencies :=
  match f with
  | .last => { last := Bool.true }
  | .position => { position := Bool.true }
  | .current => { currentNode := Bool.true }
  | .id | .unparsedEntityUri => { contextDocument := Bool.true }
  | .key => { contextDocument := Bool.true, controller := Bool.true }
  | .document | .formatNumber | .functionAvailable => { controller := Bool.true }
  | .lang => { contextNode := Bool.true }
  | .localName | .namespaceUri | .name | .generateId | .number | .string | .stringLength
  | .normalizeSpace => if arity = 0 then { contextNode := Bool.true } else ∅
  | _ => ∅

/-- Whether a call with known arguments has one value in all contexts. -/
def isFoldable : SystemFunction → Bool
  | .functionAvailable | .document | .key => Bool.false
  | _ => Bool.true

end SystemFunction

end PathLanguage
