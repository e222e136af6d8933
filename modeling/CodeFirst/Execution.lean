import CodeFirst.Introspection.Description

/-!
Execution of an operation: root fields call resolvers, other fields take a key of the value around
them.
-/

namespace CodeFirst

/-- Calls a method of a resolver, which may change a state `σ`. -/
abbrev Caller (σ ρ : Type) := ρ → String → Arguments → σ → Except ResolveError Json × σ

namespace Execution

/-- What an operation runs against. -/
structure Context (σ ρ : Type) where
  schema : Schema ρ
  call : Caller σ ρ
  definitions : List VariableDefinition

variable {σ ρ : Type}

/-- The arguments of a call by position: null where nothing was submitted or the position has no
name. -/
def align (slots : List (Option String)) (submitted : Keyed Value) : Arguments :=
  ⟨slots.map fun slot =>
    match slot.bind fun name => List.lookup name submitted with
    | some value => value.toJson
    | none => .null⟩

/-- Calls a method of a resolver, and keeps the state that it leaves. -/
def invoke (context : Context σ ρ) (resolver : ρ) (method : String) (arguments : Arguments) :
    ExceptT FieldError (Run σ) (Option FieldValue) := do
  let progress ← get
  let (result, state) := context.call resolver method arguments progress.state
  set { progress with state }
  match result with
  | .ok json => return FieldValue.ofValue? (Value.ofJson json)
  | .error error => throw (.unresolved error)

/-- What a field resolves to, before its type is looked at. -/
def resolve (context : Context σ ρ) (field : OutputField ρ) (parent : FieldValue)
    (arguments : List (String × Literal)) : ExceptT FieldError (Run σ) (Option FieldValue) := do
  let values ← argumentValues context.definitions arguments
  match field.source with
  | .member key => return (parent.member? key).bind FieldValue.ofValue?
  | .nothing => return none
  | .call resolver method slots => invoke context resolver method (align slots values)

/-- The answer of a type for what was resolved. `select` answers for objects. Scalars are not
checked, except that a list is no scalar. A list ends at its first error. -/
def complete (schema : Schema ρ) (select : String → FieldValue → Run σ Json) :
    TypeRef → Option FieldValue → ExceptT FieldError (Run σ) Json
  | .named name, some value =>
    if (Schema.objectFields? schema.types name).isSome then select name value
    else
      match value with
      | .value scalar => return scalar.toJson
      | .list _ => throw (.noScalar name)
  | .named _, none => return .null
  | .nonNull type, some value => complete schema select type (some value)
  | .nonNull _, none => throw .nullForNonNull
  | .list item, some (.list values) => do
    return .array (← values.mapM fun value => complete schema select item (some value))
  | .list _, some (.value _) => throw .noList
  | .list _, none => return .null

/-- The field of a name that describes the schema, if an object has it. -/
def introspected? (schema : Schema ρ) (type name : String) : Option ServedField :=
  if schema.introspection && type = schema.queryRoot then Introspection.rootFields.lookup name
  else none

mutual

def runSelection (context : Context σ ρ) (type : String) (parent : FieldValue) :
    Selection → Run σ (List (String × Json))
  | .field label name arguments directives selections =>
    if isSkipped directives then return []
    else if name = Selection.typeName then return [(label.getD name, .string type)]
    else
      match introspected? context.schema type name with
      | some field => entry (label.getD name)
        (Introspection.describe context.schema.served context.definitions name field arguments
          selections)
      | none =>
        match (Schema.objectFields? context.schema.types type).bind (·.lookup name) with
        | none => return []
        | some field => entry (label.getD name) do
          let value ← resolve context field parent arguments
          complete context.schema
            (fun type object => do return answer (← runSelections context type object selections))
            field.type value
  | .inline condition directives selections =>
    if isSkipped directives then return []
    else if condition.all (· = type) then runSelections context type parent selections
    else return []
  | .spread _ _ => return []

def runSelections (context : Context σ ρ) (type : String) (parent : FieldValue) :
    List Selection → Run σ (List (String × Json))
  | [] => return []
  | selection :: rest => do
    let entries ← runSelection context type parent selection
    return entries ++ (← runSelections context type parent rest)

end

/-- Runs an operation from its root, and gives the data and what was kept. -/
def run (schema : Schema ρ) (call : Caller σ ρ) (root : String) (operation : Operation)
    (state : σ) : Except Breakdown Json × Progress σ :=
  let context : Context σ ρ := ⟨schema, call, operation.definitions⟩
  let selected := runSelections context root (.value .null) operation.selections
  (answer <$> selected).run.run ⟨state, []⟩

end Execution

end CodeFirst
