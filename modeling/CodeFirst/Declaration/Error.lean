import CodeFirst.Declaration

/-!
Why a declaration is refused.
-/

namespace CodeFirst

inductive DeclarationError where
  | unnamedArgument (owner method : String) (index : Nat)
  | arrayWithoutType (caller : String)
  | unknownType (caller : String)
  | methodWithoutType (caller : String)
  | argumentWithoutType (caller : String)
  | operationOnProperty (caller memberKind fieldKind : String)
  | typeMismatch (caller memberKind introspected declared : String)
  | typeOnResolver (name : String)
  | resolverOnType (name : String)
  | typeTwice (name : String)
  | resolverTwice (name : String)
deriving DecidableEq, Inhabited

namespace DeclarationError

def caller (owner member : String) : String :=
  owner ++ " > " ++ member

def argumentCaller (owner method name : String) : String :=
  owner ++ " > " ++ method ++ "(" ++ name ++ ")"

def code : DeclarationError → String
  | .unnamedArgument .. => "INVALID_ARG_NAME"
  | .arrayWithoutType _ => "ARRAY_NO_RETURN_TYPE"
  | .unknownType _ => "RETURN_IS_UNKNOWN"
  | .methodWithoutType _ => "METHOD_NO_RETURN_TYPE"
  | .argumentWithoutType _ => "METHOD_NO_ARGUMENTS"
  | .operationOnProperty .. => "RESOLVER_FIELD_MUST_BE_METHOD"
  | .typeMismatch .. => "TYPE_MISMATCH"
  | .typeOnResolver _ => "TYPE_RESOLVER_CONFLICT"
  | .resolverOnType _ => "RESOLVER_TYPE_CONFLICT"
  | .typeTwice _ => "TYPE_ALREADY_DECLARED"
  | .resolverTwice _ => "RESOLVER_ALREADY_BOUND"

def message : DeclarationError → String
  | .unnamedArgument owner method index =>
    "Invalid name for arg " ++ toString index ++ " at " ++ owner ++ " > " ++ method
  | .arrayWithoutType caller =>
    "[" ++ caller ++ "]: Need to define a return type for primitive array; " ++
      "e.g. returns(|| DeclaredType::list_of(\"String\"))"
  | .unknownType caller =>
    "[" ++ caller ++ "]: Opaque or unknown type is not allowed without an explicit field type"
  | .methodWithoutType caller => "[" ++ caller ++ "]: Need to define a return type for method"
  | .argumentWithoutType caller => "[" ++ caller ++ "]: No parameter type found for argument"
  | .operationOnProperty caller memberKind fieldKind =>
    "[" ++ caller ++ "]: " ++ memberKind ++ " can't be declared as " ++ fieldKind ++
      ". Must be 'method'"
  | .typeMismatch caller memberKind introspected declared =>
    "[" ++ caller ++ "]: field and " ++ memberKind ++ " type mismatch. " ++ memberKind ++
      " returns '" ++ introspected ++ "' but field returns '" ++ declared ++ "'"
  | .typeOnResolver name => name ++ ": entry is already bound to a resolver"
  | .resolverOnType name => name ++ ": entry is already declared as a type"
  | .typeTwice name => name ++ ": type already declared"
  | .resolverTwice name => name ++ ": resolver already bound"

end DeclarationError

end CodeFirst
