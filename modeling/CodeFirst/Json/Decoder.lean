import CodeFirst.Json
import CodeFirst.Text.Dump

/-!
Reading typed data out of JSON values, and why it may fail.
-/

namespace CodeFirst

inductive DecodeError where
  | wrongKind (found : Json) (expected : String)
  | outOfRange (value : Int) (expected : String)
  | wrongLength (length : Nat) (expected : String)
  | missingField (name : String)
deriving Inhabited

namespace DecodeError

/-- What a value is, for a message: scalars with their value, the rest by kind. -/
def describe : Json → String
  | .null => "null"
  | .boolean true => "boolean `true`"
  | .boolean false => "boolean `false`"
  | .number (.integer value _) => "integer `" ++ String.ofList (Number.integerText value) ++ "`"
  | .number (.double value _) => "floating point `" ++ value.text ++ "`"
  | .string value => "string " ++ Text.shown value
  | .array _ => "sequence"
  | .object _ => "map"

def message : DecodeError → String
  | .wrongKind found expected => "invalid type: " ++ describe found ++ ", expected " ++ expected
  | .outOfRange value expected =>
    "invalid value: integer `" ++ String.ofList (Number.integerText value) ++ "`, expected " ++
      expected
  | .wrongLength length expected =>
    "invalid length " ++ toString length ++ ", expected " ++ expected
  | .missingField name => "missing field `" ++ name ++ "`"

end DecodeError

structure IntegerType where
  name : String
  least : Int
  greatest : Int
deriving DecidableEq

namespace IntegerType

def signed (bits : Nat) (name : String) : IntegerType :=
  ⟨name, -(Nat.pow 2 (bits - 1) : Nat), (Nat.pow 2 (bits - 1) : Nat) - 1⟩

def unsigned (bits : Nat) (name : String) : IntegerType :=
  ⟨name, 0, (Nat.pow 2 bits : Nat) - 1⟩

def signed64 : IntegerType := signed 64 "i64"
def signed32 : IntegerType := signed 32 "i32"
def unsigned64 : IntegerType := unsigned 64 "u64"
def unsigned8 : IntegerType := unsigned 8 "u8"
def size : IntegerType := unsigned 64 "usize"

end IntegerType

namespace Json

def asString : Json → Except DecodeError String
  | .string value => .ok value
  | other => .error (.wrongKind other "a string")

def asBool : Json → Except DecodeError Bool
  | .boolean value => .ok value
  | other => .error (.wrongKind other "a boolean")

def asUnit : Json → Except DecodeError Unit
  | .null => .ok ()
  | other => .error (.wrongKind other "unit")

/-- An integer of a type; a double is none, whatever its value. -/
def asInteger (type : IntegerType) : Json → Except DecodeError Int
  | .number (.integer value _) =>
    if type.least ≤ value ∧ value ≤ type.greatest then .ok value
    else .error (.outOfRange value type.name)
  | other => .error (.wrongKind other type.name)

/-- A double; an integer is taken for the nearest one. -/
def asDouble : Json → Except DecodeError Binary64
  | .number (.double value _) => .ok value
  | .number (.integer value _) =>
    .ok (Binary64.ofCode (value < 0) (Binary64.nearestCode value.natAbs 1))
  | other => .error (.wrongKind other "f64")

def asArray : Json → Except DecodeError (List Json)
  | .array items => .ok items
  | other => .error (.wrongKind other "a sequence")

def asObject : Json → Except DecodeError (List (String × Json))
  | .object members => .ok members
  | other => .error (.wrongKind other "a map")

/-- Reads a record of type `α` that starts out with default values. It is written as an object,
whose unknown members are passed over, or as an array of its first fields. Each field is given by a
name and the change that its value makes. -/
def asRecord {α : Type} (name : String)
    (fields : List (String × (Json → Except DecodeError (α → α)))) (start : α) :
    Json → Except DecodeError α
  | .object members =>
    members.foldlM (fun record member =>
      match fields.lookup member.1 with
      | some change => do return (← change member.2) record
      | none => return record) start
  | .array items => do
    let record ← (fields.zip items).foldlM
      (fun record item => do return (← item.1.2 item.2) record) start
    if fields.length < items.length then
      throw (.wrongLength items.length "fewer elements in array")
    return record
  | other => .error (.wrongKind other ("struct " ++ name))

end Json

inductive Shape where
  | any
  | text
  | truth
  | unit
  | integer (type : IntegerType)
  | double
  | optional (content : Shape)
  | list (item : Shape)
  | dictionary (item : Shape)
  | pair (first second : Shape)
  /-- A record all of whose fields must be there. -/
  | record (name : String) (fields : List (String × Shape))

namespace Shape

/-- The fields of a record that are not in `found` yet. -/
def firstMissing? (fields : List (String × Shape)) (found : List (String × Json)) : Option String :=
  (fields.find? fun field => (found.lookup field.1).isNone).map (·.1)

def recordLength (name : String) (count : Nat) : String :=
  "struct " ++ name ++ " with " ++ toString count ++ (if count = 1 then " element" else " elements")

mutual

/-- Data in normal form if the value has the shape: unknown fields are gone, integers asked for as
doubles are doubles, records are objects. -/
def decode : Shape → Json → Except DecodeError Json
  | .any, value => .ok value
  | .text, value => Json.string <$> value.asString
  | .truth, value => Json.boolean <$> value.asBool
  | .unit, value => (fun _ => Json.null) <$> value.asUnit
  | .integer type, value => Json.ofInt <$> value.asInteger type
  | .double, value => Json.ofDouble <$> value.asDouble
  | .optional content, value =>
    match value with
    | .null => .ok .null
    | other => decode content other
  | .list item, value => do return .array (← (← value.asArray).mapM fun value => decode item value)
  | .dictionary item, value => do
    let members ← (← value.asObject).mapM fun member => do
      return (member.1, ← decode item member.2)
    return .object members
  | .pair first second, value =>
    match value with
    | .array items => do
      match items with
      | [] => throw (.wrongLength 0 "a tuple of size 2")
      | [left] =>
        let _ ← decode first left
        throw (.wrongLength 1 "a tuple of size 2")
      | left :: right :: more =>
        let left ← decode first left
        let right ← decode second right
        if more = [] then return .array [left, right]
        else throw (.wrongLength (more.length + 2) "fewer elements in array")
    | other => throw (.wrongKind other "a tuple of size 2")
  | .record name fields, value =>
    match value with
    | .object members => do
      let found ← members.filterMapM fun member =>
        match decodeField fields member.1 member.2 with
        | none => return none
        | some decoded => do return some (member.1, ← decoded)
      match firstMissing? fields found with
      | some missing => throw (.missingField missing)
      | none => return .ofMembers found
    | .array items => do
      let found ← decodeFields (recordLength name fields.length) 0 fields items
      if fields.length < items.length then
        throw (.wrongLength items.length "fewer elements in array")
      return .ofMembers found
    | other => throw (.wrongKind other ("struct " ++ name))

/-- Decodes a member of a record by the shape of its field, if there is one. -/
def decodeField : List (String × Shape) → String → Json → Option (Except DecodeError Json)
  | [], _, _ => none
  | (name, shape) :: rest, key, value =>
    if name = key then some (decode shape value) else decodeField rest key value

/-- Decodes the fields of a record that is written as an array. -/
def decodeFields (expected : String) (index : Nat) :
    List (String × Shape) → List Json → Except DecodeError (List (String × Json))
  | [], _ => .ok []
  | _ :: _, [] => .error (.wrongLength index expected)
  | (name, shape) :: rest, value :: values => do
    let decoded ← decode shape value
    let others ← decodeFields expected (index + 1) rest values
    return (name, decoded) :: others

end

end Shape

end CodeFirst
