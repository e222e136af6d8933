/-!
The catalog of scalars: names under which a primitive type may be declared, and the built-in scalar
of the query language that stands for each. Every other name is that of a composite type.
-/

namespace CodeFirst

inductive Scalar where
  | string
  | number
  | boolean
  | int
  | float
  | void
  | id
deriving DecidableEq, Inhabited

namespace Scalar

def all : List Scalar :=
  [.string, .number, .boolean, .int, .float, .void, .id]

def name : Scalar → String
  | .string => "String"
  | .number => "Number"
  | .boolean => "Boolean"
  | .int => "Int"
  | .float => "Float"
  | .void => "Void"
  | .id => "ID"

/-- The scalar of a name; a truth value has two names. -/
def ofName? : String → Option Scalar
  | "String" => some .string
  | "Number" => some .number
  | "Bool" => some .boolean
  | "Boolean" => some .boolean
  | "Int" => some .int
  | "Float" => some .float
  | "Void" => some .void
  | "ID" => some .id
  | _ => none

def builtin : Scalar → String
  | .string => "String"
  | .id => "String"
  | .int => "Int"
  | .number => "Float"
  | .float => "Float"
  | .boolean => "Boolean"
  | .void => "Boolean"

def canonicalName? (name : String) : Option String :=
  (ofName? name).map Scalar.name

end Scalar

end CodeFirst
