import CodeFirst.Scalar

/-!
What an application declares at startup, and the records that accepted declarations become.
-/

namespace CodeFirst

/-- A field of a composite type, or an operation of one of the two roots. -/
inductive FieldKind where
  | plain
  | query
  | mutation
deriving DecidableEq, Inhabited

def FieldKind.word : FieldKind → String
  | .plain => "field"
  | .query => "query"
  | .mutation => "mutation"

inductive MemberKind where
  | property
  | method
deriving DecidableEq, Inhabited

def MemberKind.word : MemberKind → String
  | .property => "Property"
  | .method => "Method"

structure FieldOptions where
  nullable : Option Bool := none
  comment : Option String := none
  defaultValue : Option String := none
  complexity : Option Nat := none
  /-- Someone is told when the field is registered. -/
  notifies : Bool := false
deriving DecidableEq, Inhabited

/-- Fields are not nullable unless they say so. -/
def FieldOptions.isNullable (options : FieldOptions) : Bool :=
  options.nullable.getD false

inductive DeclaredType where
  | named (name : String)
  | list (element : String)
deriving DecidableEq, Inhabited

namespace DeclaredType

def isList : DeclaredType → Bool
  | .named _ => false
  | .list _ => true

def element : DeclaredType → String
  | .named name => name
  | .list name => name

end DeclaredType

/-- The type that is known of a declaration site without a declaration. -/
inductive Introspected where
  | named (name : String)
  | list
  | untyped
deriving DecidableEq, Inhabited

inductive Site where
  | member (owner member : String)
  | parameter (owner method : String) (index : Nat)
deriving DecidableEq, Inhabited

abbrev Introspector := Site → Option Introspected

namespace Introspector

def nothing : Introspector := fun _ => none

/-- Tells the types of a table; of two entries for one site the later counts. -/
def ofTable (table : List (Site × Introspected)) : Introspector :=
  fun site => table.reverse.lookup site

end Introspector

structure FieldDeclaration where
  owner : String
  member : String
  memberKind : MemberKind
  returns : Option DeclaredType := none
  options : Option FieldOptions := none
  /-- Takes precedence over what the introspector knows. -/
  introspected : Option Introspected := none
deriving DecidableEq, Inhabited

structure ArgumentDeclaration where
  owner : String
  method : String
  index : Nat
  name : Option String := none
  type : Option String := none
deriving DecidableEq, Inhabited

/-- A field as it is kept: scalars under their canonical names. -/
structure Field where
  owner : String
  name : String
  type : String
  isArray : Bool
  isMethod : Bool
  isCustom : Bool
  hasResolver : Bool
  kind : FieldKind
  options : FieldOptions
deriving DecidableEq, Inhabited

def Field.displayType (field : Field) : String :=
  if field.isArray then field.type ++ "[]" else field.type

/-- One positional argument of a method, as it is kept. -/
structure Argument where
  owner : String
  method : String
  name : String
  type : String
  isCustom : Bool
  index : Nat
deriving DecidableEq, Inhabited

/-- A name declared as an output type or as an input type. -/
structure TypeRole where
  name : String
  isInput : Bool
deriving DecidableEq, Inhabited

end CodeFirst
