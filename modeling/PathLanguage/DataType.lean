/-
The static types of expressions and values.
-/

namespace PathLanguage

inductive DataType where
  | boolean
  | number
  | string
  | nodeSet
  | object
  /-- Known only once evaluated. -/
  | any
deriving DecidableEq

namespace DataType

def label : DataType → String
  | .boolean => "boolean"
  | .number => "number"
  | .string => "string"
  | .nodeSet => "node-set"
  | .object => "object"
  | .any => "any"

def all : List DataType := [.boolean, .number, .string, .nodeSet, .object, .any]

def ofLabel? (s : String) : Option DataType := all.find? fun t => t.label == s

end DataType

end PathLanguage
