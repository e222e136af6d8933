import CodeFirst.Schema

/-!
Query documents: operations and fragments with their selections.
-/

namespace CodeFirst

inductive Literal where
  | variable (name : String)
  | null
  | boolean (value : Bool)
  | number (value : Number)
  | string (value : String)
  | word (name : String)
  | list (items : List Literal)
  /-- Of two fields with one key the later stands in the place of the earlier. -/
  | object (fields : List (String × Literal))
  /-- What holds a number beyond the doubles, and so has no value. -/
  | overflow
deriving Inhabited

namespace Literal

def overflows : Literal → Bool
  | .overflow => true
  | _ => false

def ofNumeral (numeral : Numeral) : Literal :=
  (numeral.number?.map .number).getD .overflow

def ofItems (items : List Literal) : Literal :=
  if items.any overflows then .overflow else .list items

/-- An object of its fields in order. A number beyond the doubles counts under any key. -/
def ofFields (fields : List (String × Literal)) : Literal :=
  if fields.any (·.2.overflows) then .overflow else .object (Keyed.ofList fields)

mutual

def value? (assign : String → Option Value) : Literal → Option Value
  | .variable name => assign name
  | .null => some .null
  | .boolean flag => some (.boolean flag)
  | .number amount => some (.number amount)
  | .string text => some (.string text)
  | .word name => some (.word name)
  | .list items => (itemValues? assign items).map .list
  | .object fields => (fieldValues? assign fields).map .object
  | .overflow => none

def itemValues? (assign : String → Option Value) : List Literal → Option (List Value)
  | [] => some []
  | item :: rest => do
    let value ← value? assign item
    let values ← itemValues? assign rest
    return value :: values

def fieldValues? (assign : String → Option Value) :
    List (String × Literal) → Option (List (String × Value))
  | [] => some []
  | (key, field) :: rest => do
    let value ← value? assign field
    let values ← fieldValues? assign rest
    return (key, value) :: values

end

def constant? (literal : Literal) : Option Value :=
  literal.value? fun _ => none

mutual

def variableNames : Literal → List String
  | .variable name => [name]
  | .list items => itemVariableNames items
  | .object fields => fieldVariableNames fields
  | .null => []
  | .boolean _ => []
  | .number _ => []
  | .string _ => []
  | .word _ => []
  | .overflow => []

def itemVariableNames : List Literal → List String
  | [] => []
  | item :: rest => variableNames item ++ itemVariableNames rest

def fieldVariableNames : List (String × Literal) → List String
  | [] => []
  | (_, field) :: rest => variableNames field ++ fieldVariableNames rest

end

/-- Equal numbers of one form: an integer is no double, and the zeros of both signs are equal. -/
def sameNumber : Number → Number → Bool
  | .double left _, .double right _ =>
    left = right || (left.magnitude.1 = 0 && right.magnitude.1 = 0)
  | left, right => left = right

mutual

/-- Same value as written: the fields of objects may stand in any order. -/
def same : Literal → Literal → Bool
  | .variable name, .variable other => name = other
  | .null, .null => true
  | .boolean flag, .boolean other => flag = other
  | .number amount, .number other => sameNumber amount other
  | .string text, .string other => text = other
  | .word name, .word other => name = other
  | .list items, .list others => sameItems items others
  | .object fields, .object others =>
    fields.length = others.length && sameFields fields others
  | _, _ => false

def sameItems : List Literal → List Literal → Bool
  | [], [] => true
  | item :: rest, other :: others => same item other && sameItems rest others
  | _, _ => false

def sameFields : List (String × Literal) → List (String × Literal) → Bool
  | [], _ => true
  | (key, field) :: rest, others =>
    (match others.lookup key with
      | some other => same field other
      | none => false) && sameFields rest others

end

end Literal

structure Directive where
  name : String
  arguments : List (String × Literal)
deriving Inhabited

inductive Selection where
  | field (label : Option String) (name : String) (arguments : List (String × Literal))
      (directives : List Directive) (selections : List Selection)
  | spread (fragment : String) (directives : List Directive)
  | inline (condition : Option String) (directives : List Directive) (selections : List Selection)
deriving Inhabited

inductive OperationKind where
  | query
  | mutation
  | subscription
deriving DecidableEq, Inhabited

def OperationKind.word : OperationKind → String
  | .query => "query"
  | .mutation => "mutation"
  | .subscription => "subscription"

structure VariableDefinition where
  name : String
  type : TypeRef
  directives : List Directive
  /-- A constant. -/
  default : Option Literal
deriving Inhabited

def VariableDefinition.defaultValue? (definition : VariableDefinition) : Option Value :=
  definition.default.bind Literal.constant?

structure Operation where
  kind : OperationKind
  name : Option String
  definitions : List VariableDefinition
  directives : List Directive
  selections : List Selection
deriving Inhabited

/-- Selections from objects of a type, to be spread by name. -/
structure Fragment where
  condition : String
  directives : List Directive
  selections : List Selection
deriving Inhabited

structure Document where
  operations : List Operation
  fragments : Keyed Fragment
deriving Inhabited

end CodeFirst
