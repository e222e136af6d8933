import CodeFirst.Config
import CodeFirst.Fault
import CodeFirst.Registry
import CodeFirst.Schema.Check

/-!
Compilation of a registry into a schema: every output and input type that the named resolvers reach
is compiled once, and their operations become the fields of the roots.
-/

namespace CodeFirst

inductive BuildError where
  | fault (cause : Fault)
  | rejected (message : String)
  | configuration (message : String)
  /-- Two fields of one type have one name. -/
  | repeatedField (name : String)
deriving DecidableEq

namespace BuildError

def compile (error : CompileError) : BuildError :=
  .fault (.compilation error)

def code : BuildError → String
  | .fault cause => cause.code
  | .rejected _ => "SCHEMA_BUILD_FAILED"
  | .configuration _ => "INVALID_CONFIG"
  | .repeatedField _ => "REPEATED_FIELD"

def message : BuildError → String
  | .fault cause => cause.message
  | .rejected message => "Failed to build GraphQL schema: " ++ message
  | .configuration message => "Invalid schema configuration: " ++ message
  | .repeatedField name => "Field `" ++ name ++ "` already exists"

end BuildError

namespace Compilation

variable {ρ : Type}

abbrev Outputs (ρ : Type) := Keyed (Keyed (OutputField ρ))

abbrev Inputs := Keyed (Keyed InputField)

def baseName (type : String) (isCustom : Bool) : Except BuildError String :=
  if isCustom then .ok type
  else
    match Scalar.ofName? type with
    | some scalar => .ok scalar.builtin
    | none => .error (.compile (.unhandledScalar type))

/-- The type of a field. A list itself may always be null; the mark goes to its elements. -/
def typeRef (field : Field) : Except BuildError TypeRef := do
  let name ← baseName field.type field.isCustom
  let element := if field.options.isNullable then .named name else .nonNull (.named name)
  return if field.isArray then .list element else element

/-- Adds a field to a type; a second field of its name is refused. -/
def attach {α : Type} (fields : Keyed α) (name : String) (field : α) :
    Except BuildError (Keyed α) :=
  if (fields.lookup name).isSome then .error (.repeatedField name)
  else .ok (fields ++ [(name, field)])

/-- What sets the compilation of output types apart from that of input types; the fields of a type
become items of type `α`. -/
structure Usage (α : Type) where
  /-- Whether the types must have the input role. -/
  isInput : Bool
  /-- Why a type of the other role is refused. -/
  misuse : String → CompileError
  field : Field → TypeRef → α

namespace Usage

/-- The fields of an output type are members of its values. -/
def output : Usage (OutputField ρ) where
  isInput := false
  misuse := .inputAsOutput
  field field type := {
    type
    description := field.options.comment
    source := .member field.name }

def input : Usage InputField where
  isInput := true
  misuse := .outputAsInput
  field field type := {
    type
    description := field.options.comment
    default := field.options.defaultValue.map Value.ofDefault }

end Usage

/-- Adds a declared field to the fields of a type. -/
def attachField {α : Type} (usage : Usage α) (fields : Keyed α) (field : Field) :
    Except BuildError (Keyed α) := do
  let type ← typeRef field
  attach fields field.name (usage.field field type)

/-- Compiles a type and all that it reaches, into `done`. Types on the path are being compiled and
are passed over, as compiled ones are. -/
def compileType {α : Type} (usage : Usage α) (registry : Registry ρ) (path : List String)
    (name : String) (done : Keyed (Keyed α)) : Except BuildError (Keyed (Keyed α)) :=
  if (done.lookup name).isSome then .ok done
  else if _ : name ∈ path then .ok done
  else
    match _found : registry.get? name with
    | none => .error (.compile (.typeWithoutField name))
    | some entry =>
      if entry.fields = [] then .error (.compile (.typeWithoutField name))
      else if entry.isInput ≠ usage.isInput then .error (.compile (usage.misuse name))
      else do
        let (fields, done) ← entry.fields.foldlM (fun (fields, done) field => do
          let done ← if field.isCustom then
              compileType usage registry (name :: path) field.type done
            else pure done
          let fields ← attachField usage fields field
          return (fields, done)) ([], done)
        return Keyed.put name fields done
termination_by (Keyed.outside registry.entries path).length
decreasing_by exact Keyed.outside_length_lt _found (by assumption) (by simp) (by simp +contextual)

/-- Compiles types one after the other. -/
def compileTypes {α : Type} (usage : Usage α) (registry : Registry ρ) (path : List String)
    (names : List String) (done : Keyed (Keyed α)) : Except BuildError (Keyed (Keyed α)) :=
  names.foldlM (fun done name => compileType usage registry path name done) done

def customTypes (fields : List Field) : List String :=
  (fields.filter (·.isCustom)).map (·.type)

def customFieldTypes (entry : Entry ρ) : List String :=
  customTypes entry.fields

/-- The types of arguments, of any method, that are composite. -/
def customArgumentTypes (entry : Entry ρ) : List String :=
  (entry.arguments.values.flatMap fun slots => slots.filterMap id).filter (·.isCustom)
    |>.map (·.type)

structure Types (ρ : Type) where
  outputs : Outputs ρ := []
  inputs : Inputs := []

/-- Compiles what an entry refers to: its field types as outputs, then its argument types as
inputs. -/
def compileReferenced (registry : Registry ρ) (types : Types ρ) (entry : Entry ρ) :
    Except BuildError (Types ρ) := do
  let outputs ← compileTypes .output registry [] (customFieldTypes entry) types.outputs
  let inputs ← compileTypes .input registry [] (customArgumentTypes entry) types.inputs
  return ⟨outputs, inputs⟩

/-- Adds a slot with its position to the names by position and the arguments in the schema. A gap is
refused if `strict`. -/
def compileSlot (strict : Bool) (field : Field) (done : List (Option String) × Keyed TypeRef)
    (slot : Option Argument × Nat) : Except BuildError (List (Option String) × Keyed TypeRef) :=
  match slot.1 with
  | some argument => do
    let base ← baseName argument.type argument.isCustom
    return (done.1 ++ [some argument.name], Keyed.put argument.name (.named base) done.2)
  | none =>
    if strict then throw (.compile (.argumentGap field.owner field.name slot.2))
    else return (done.1 ++ [none], done.2)

/-- The names of the slots by position, and the arguments in the schema, where of two with one name
the later counts. -/
def compileSlots (strict : Bool) (field : Field) (slots : List (Option Argument)) :
    Except BuildError (List (Option String) × Keyed TypeRef) :=
  slots.zipIdx.foldlM (compileSlot strict field) ([], [])

def compileOperation (strict : Bool) (entry : Entry ρ) (resolver : ρ) (field : Field) :
    Except BuildError (OutputField ρ) := do
  let type ← typeRef field
  let (names, arguments) ← compileSlots strict field (entry.slots field.name)
  return {
    type
    description := field.options.comment
    arguments
    source := .call resolver field.name names }

structure Roots (ρ : Type) where
  queries : Keyed (OutputField ρ) := []
  mutations : Keyed (OutputField ρ) := []

/-- The root field of an operation of an entry, which must have a resolver. -/
def bindOperation (strict : Bool) (entry : Entry ρ) (field : Field) :
    Except BuildError (OutputField ρ) :=
  match entry.resolver with
  | none => .error (.compile (.noResolver entry.name field.kind.word field.name))
  | some resolver => compileOperation strict entry resolver field

/-- Puts an operation into its root, where a later one of its name takes the place of an earlier
one; other fields are passed over. -/
def addOperation (strict : Bool) (roots : Roots ρ) (entry : Entry ρ) (field : Field) :
    Except BuildError (Roots ρ) := do
  match field.kind with
  | .plain => return roots
  | .query =>
    let operation ← bindOperation strict entry field
    return { roots with queries := Keyed.put field.name operation roots.queries }
  | .mutation =>
    let operation ← bindOperation strict entry field
    return { roots with mutations := Keyed.put field.name operation roots.mutations }

/-- The entries of the named resolvers, each of which must have a field. -/
def resolverEntries (registry : Registry ρ) (resolvers : List String) :
    Except BuildError (List (Entry ρ)) :=
  resolvers.mapM fun name =>
    match registry.get? name with
    | none => .error (.compile (.typeWithoutField name))
    | some entry =>
      if entry.fields = [] then .error (.compile (.typeWithoutField name)) else .ok entry

/-- The names of bound resolvers that are not asked for, in the order of the registry. -/
def leftOut (registry : Registry ρ) (resolvers : List String) : List String :=
  registry.entries.values.filter (fun entry => entry.resolver.isSome ∧ entry.name ∉ resolvers)
    |>.map (·.name)

/-- The fields of the entries in order, each with its entry. -/
def declaredFields (entries : List (Entry ρ)) : List (Entry ρ × Field) :=
  entries.flatMap fun entry => entry.fields.map (entry, ·)

/-- The field of a query root that has no other. -/
def placeholder : OutputField ρ where
  type := .named "String"
  description := some "Placeholder for a schema without queries"
  source := .nothing

def placeholderName : String := "_placeholder"

/-- What a build compiles before the schema as a whole is checked. -/
structure Compiled (ρ : Type) where
  types : Types ρ
  roots : Roots ρ

/-- Compiles the named resolvers. Those that are left out are listed for the log, and nothing else
comes of them. -/
def compile (registry : Registry ρ) (config : Config) (resolvers : List String) :
    Except BuildError (Compiled ρ) := do
  match config.validate with
  | .error error => throw (.configuration error.message)
  | .ok () => pure ()
  let _leftOut := leftOut registry resolvers
  let entries ← resolverEntries registry resolvers
  let types ← entries.foldlM (compileReferenced registry) {}
  let roots ← (declaredFields entries).foldlM (fun roots operation =>
    addOperation config.strictArgumentIndices roots operation.1 operation.2) {}
  if roots.queries = [] ∧ !config.placeholderQuery then throw (.compile .noQueryFields)
  return ⟨types, roots⟩

/-- The types of a schema in the order of registration: roots, outputs, inputs. -/
def registered (config : Config) (compiled : Compiled ρ) : List (String × SchemaType ρ) :=
  let queries := if compiled.roots.queries = [] then [(placeholderName, placeholder)]
    else compiled.roots.queries
  let mutations := if compiled.roots.mutations = [] then []
    else [(config.mutationRoot, .object compiled.roots.mutations)]
  (config.queryRoot, .object queries) :: mutations
    ++ compiled.types.outputs.map (fun type => (type.1, .object type.2))
    ++ compiled.types.inputs.map (fun type => (type.1, .input type.2))

/-- The schema of what was compiled; of two types with one name the later takes the earlier's
place. -/
def schema (config : Config) (compiled : Compiled ρ) : Schema ρ where
  queryRoot := config.queryRoot
  mutationRoot := if compiled.roots.mutations = [] then none else some config.mutationRoot
  types := Keyed.ofList (registered config compiled)
  queryFields := Keyed.names compiled.roots.queries
  mutationFields := Keyed.names compiled.roots.mutations
  typeNames := Keyed.names compiled.types.outputs ++ Keyed.names compiled.types.inputs
  maxDepth := config.maxDepth
  maxComplexity := config.maxComplexity
  introspection := config.introspection

end Compilation

namespace Schema

variable {ρ : Type}

/-- Compiles the named resolvers and checks the schema as a whole. -/
def build (registry : Registry ρ) (config : Config) (resolvers : List String) :
    Except BuildError (Schema ρ) := do
  let schema := Compilation.schema config (← Compilation.compile registry config resolvers)
  match schema.check with
  | .ok () => return schema
  | .error defect => throw (.rejected defect.message)

end Schema

end CodeFirst
