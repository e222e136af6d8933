import CodeFirst.Schema

/-!
The checks that a schema as a whole must pass.
-/

namespace CodeFirst

inductive SchemaDefect where
  | builtinName (type : String)
  | queryRootNoObject
  | mutationRootNoObject
  | reservedField (type field : String)
  | reservedArgument (type field argument : String)
  | endlessInput (type : String)
deriving DecidableEq

namespace SchemaDefect

def reserved (what : String) : String :=
  what ++ " must not have a name which begins with the characters \"__\" (two underscores)"

def message : SchemaDefect → String
  | .builtinName type => "Type \"" ++ type ++ "\" already exists"
  | .queryRootNoObject => "The query root must be an object"
  | .mutationRootNoObject => "The mutation root must be an object"
  | .reservedField type field => reserved ("Field \"" ++ type ++ "." ++ field ++ "\"")
  | .reservedArgument type field argument =>
    reserved ("Argument \"" ++ type ++ "." ++ field ++ "." ++ argument ++ "\"")
  | .endlessInput type =>
    "\"" ++ type ++ "\" references itself either directly or through referenced Input Objects, " ++
      "at least one of the fields in the chain of references must be either a nullable or a " ++
      "List type."

end SchemaDefect

/-- Names with two underscores in front are kept for introspection. -/
def isReserved (name : String) : Bool :=
  "__".toList.isPrefixOf name.toList

namespace Schema

variable {ρ : Type}

def inputFields? (types : Keyed (SchemaType ρ)) (name : String) : Option (Keyed InputField) :=
  match types.lookup name with
  | some (.input fields) => some fields
  | _ => none

def objectFields? (types : Keyed (SchemaType ρ)) (name : String) :
    Option (Keyed (OutputField ρ)) :=
  match types.lookup name with
  | some (.object fields) => some fields
  | _ => none

/-- The types that a value of an input type must hold a value of. -/
def required (fields : Keyed InputField) : List String :=
  fields.filterMap fun field =>
    match field.2.type with
    | .nonNull (.named name) => some name
    | _ => none

theorem lookup_of_inputFields? {types : Keyed (SchemaType ρ)} {name : String}
    {fields : Keyed InputField} (h : inputFields? types name = some fields) :
    types.lookup name = some (.input fields) := by
  unfold inputFields? at h
  split at h
  · rename_i found
    cases h
    exact found
  · cases h

/-- Whether one of the types in a row requires `target`, at once or through input types that are not
on the path. -/
def requires (types : Keyed (SchemaType ρ)) (path : List String) (target : String)
    (fields : Keyed InputField) : Bool :=
  (required fields).any fun name =>
    if name = target then true
    else if _ : name ∈ path then false
    else
      match _found : inputFields? types name with
      | none => false
      | some inner => requires types (name :: path) target inner
termination_by (Keyed.outside types path).length
decreasing_by
  exact Keyed.outside_length_lt (lookup_of_inputFields? _found) (by assumption) (by simp)
    (by simp +contextual)

def objectDefects (type : String) (fields : Keyed (OutputField ρ)) : List SchemaDefect :=
  fields.flatMap fun (name, field) =>
    (if isReserved name then [.reservedField type name] else []) ++
      (Keyed.names field.arguments).filterMap fun argument =>
        if isReserved argument then some (.reservedArgument type name argument) else none

def inputDefects (types : Keyed (SchemaType ρ)) (type : String) (fields : Keyed InputField) :
    List SchemaDefect :=
  ((Keyed.names fields).filterMap fun name =>
    if isReserved name then some (.reservedField type name) else none) ++
    if requires types [] type fields then [.endlessInput type] else []

/-- All defects, in the order in which the checks are made. -/
def defects (schema : Schema ρ) : List SchemaDefect :=
  ((Keyed.names schema.types).filterMap fun name =>
    if name ∈ builtinScalars then some (.builtinName name) else none) ++
  (if (objectFields? schema.types schema.queryRoot).isSome then [] else [.queryRootNoObject]) ++
  (match schema.mutationRoot with
    | none => []
    | some root =>
      if (objectFields? schema.types root).isSome then [] else [.mutationRootNoObject]) ++
  (schema.types.flatMap fun (name, type) =>
    match type with
    | .object fields => objectDefects name fields
    | .input _ => []) ++
  (schema.types.flatMap fun (name, type) =>
    match type with
    | .object _ => []
    | .input fields => inputDefects schema.types name fields)

def check (schema : Schema ρ) : Except SchemaDefect Unit :=
  match schema.defects with
  | [] => .ok ()
  | first :: _ => .error first

end Schema

end CodeFirst
