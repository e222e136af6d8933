import CodeFirst.Keyed
import CodeFirst.Scalar
import CodeFirst.Value

/-!
Schemas: object types with resolvable fields, input types, and the two roots.
-/

namespace CodeFirst

inductive TypeRef where
  | named (name : String)
  | nonNull (type : TypeRef)
  | list (item : TypeRef)
deriving DecidableEq, Inhabited

namespace TypeRef

def text : TypeRef → String
  | .named name => name
  | .nonNull type => type.text ++ "!"
  | .list item => "[" ++ item.text ++ "]"

def base : TypeRef → String
  | .named name => name
  | .nonNull type => type.base
  | .list item => item.base

def isNonNull : TypeRef → Bool
  | .nonNull _ => true
  | _ => false

end TypeRef

/-- Where the value of a field comes from; `ρ` is the type of resolvers. -/
inductive Source (ρ : Type) where
  /-- A key of the parent value. -/
  | member (key : String)
  /-- A method of a resolver, which gets the arguments of these names by position. -/
  | call (resolver : ρ) (method : String) (slots : List (Option String))
  /-- Nowhere: the field is always null. -/
  | nothing

structure OutputField (ρ : Type) where
  type : TypeRef
  description : Option String := none
  arguments : Keyed TypeRef := []
  source : Source ρ

structure InputField where
  type : TypeRef
  description : Option String := none
  default : Option Value := none

inductive SchemaType (ρ : Type) where
  | object (fields : Keyed (OutputField ρ))
  | input (fields : Keyed InputField)

def builtinScalars : List String :=
  ["Boolean", "Int", "Float", "String", "ID"]

structure Schema (ρ : Type) where
  queryRoot : String
  mutationRoot : Option String
  types : Keyed (SchemaType ρ)
  /-- The declared fields of the roots, without the placeholder. -/
  queryFields : List String
  mutationFields : List String
  /-- The compiled composite types, outputs first. -/
  typeNames : List String
  maxDepth : Nat
  maxComplexity : Nat
  introspection : Bool

end CodeFirst
