import CodeFirst.Json

/-!
Writing typed data as JSON values.
-/

namespace CodeFirst

/-- A key of a map. Integers are written as strings; pairs cannot be keys of an object. -/
inductive MapKey where
  | string (value : String)
  | integer (value : Int)
  | pair (first second : Json)

inductive EncodeError where
  | keyIsNoString
deriving DecidableEq

def EncodeError.message : EncodeError → String
  | .keyIsNoString => "key must be a string"

namespace Json

def keyText? : MapKey → Except EncodeError String
  | .string value => .ok value
  | .integer value => .ok (String.ofList (Number.integerText value))
  | .pair _ _ => .error .keyIsNoString

/-- The object of a map; of two entries under one key the later stays. -/
def ofMap? (entries : List (MapKey × Json)) : Except EncodeError Json := do
  let members ← entries.mapM fun entry => do return (← keyText? entry.1, entry.2)
  return ofMembers members

end Json

end CodeFirst
