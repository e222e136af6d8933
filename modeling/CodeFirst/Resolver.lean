import CodeFirst.Json.Decoder
import CodeFirst.Json.Encoder

/-!
What a resolver method receives and how it may fail.
-/

namespace CodeFirst

inductive ResolveError where
  | unknownMethod (name : String)
  | invalidArgument (index : Nat) (error : DecodeError)
  | unencodable (error : EncodeError)
  | failed (message : String)

def ResolveError.message : ResolveError → String
  | .unknownMethod name => "Unknown resolver method '" ++ name ++ "'"
  | .invalidArgument index error =>
    "Invalid argument at position " ++ toString index ++ ": " ++ error.message
  | .unencodable error => "Failed to serialize result: " ++ error.message
  | .failed message => message

/-- The arguments of a call, in the order of the method's parameters. -/
structure Arguments where
  values : List Json := []
deriving Inhabited, BEq

namespace Arguments

/-- The argument at a position; null where none was passed. -/
def value (arguments : Arguments) (index : Nat) : Json :=
  arguments.values[index]?.getD .null

/-- The argument at a position, as data of a shape. -/
def get (arguments : Arguments) (index : Nat) (shape : Shape) : Except ResolveError Json :=
  match shape.decode (arguments.value index) with
  | .ok value => .ok value
  | .error error => .error (.invalidArgument index error)

end Arguments

end CodeFirst
