import CodeFirst.Json.Reader

/-!
Values of the query language, and their passage from and to JSON.
-/

namespace CodeFirst

/-- A constant of the query language. The fields of an object stand in the order of first
mention. -/
inductive Value where
  | null
  | boolean (value : Bool)
  | number (value : Number)
  | string (value : String)
  | word (name : String)
  | list (items : List Value)
  | object (fields : List (String × Value))
deriving Inhabited, BEq

namespace Value

/-- A number of JSON: a signed word where it is one, else an unsigned word, else a finite double, and
null where it is none of these. -/
def ofNumber (number : Number) : Value :=
  match number.signed? with
  | some signed => .number (.ofSigned signed)
  | none =>
    match number.unsigned? with
    | some unsigned => .number (.ofUnsigned unsigned)
    | none =>
      match number.double?.bind Number.ofDouble? with
      | some double => .number double
      | none => .null

mutual

def ofJson : Json → Value
  | .null => .null
  | .boolean value => .boolean value
  | .number value => ofNumber value
  | .string value => .string value
  | .array items => .list (ofItems items)
  | .object members => .object (ofMembers members)

def ofItems : List Json → List Value
  | [] => []
  | item :: rest => ofJson item :: ofItems rest

def ofMembers : List (String × Json) → List (String × Value)
  | [] => []
  | (key, value) :: rest => (key, ofJson value) :: ofMembers rest

end

mutual

/-- Enumeration words become strings, and objects are put in the order of their keys. -/
def toJson : Value → Json
  | .null => .null
  | .boolean value => .boolean value
  | .number value => .number value
  | .string value => .string value
  | .word name => .string name
  | .list items => .array (toItems items)
  | .object fields => .ofMembers (toMembers fields)

def toItems : List Value → List Json
  | [] => []
  | item :: rest => toJson item :: toItems rest

def toMembers : List (String × Value) → List (String × Json)
  | [] => []
  | (key, value) :: rest => (key, toJson value) :: toMembers rest

end

/-- The default of an input field is written as JSON; text that is no JSON is a string. -/
def ofDefault (written : String) : Value :=
  match Json.read? written with
  | some json => ofJson json
  | none => .string written

end Value

/-- What a field resolves to. A list is resolved element by element, whatever else there is, as one
value. -/
inductive FieldValue where
  | value (value : Value)
  | list (items : List FieldValue)
deriving Inhabited

namespace FieldValue

mutual

/-- Null is no value, except as an element of a list. -/
def ofValue? : Value → Option FieldValue
  | .null => none
  | .list items => some (.list (ofItems items))
  | .boolean flag => some (.value (.boolean flag))
  | .number amount => some (.value (.number amount))
  | .string text => some (.value (.string text))
  | .word name => some (.value (.word name))
  | .object fields => some (.value (.object fields))

def ofItems : List Value → List FieldValue
  | [] => []
  | item :: rest => (ofValue? item).getD (.value .null) :: ofItems rest

end

/-- The value under a key of the parent; lists and scalars have no keys. -/
def member? (parent : FieldValue) (key : String) : Option Value :=
  match parent with
  | .value (.object fields) => fields.lookup key
  | _ => none

end FieldValue

end CodeFirst
