import CodeFirst.Document
import CodeFirst.Json.Merge
import CodeFirst.Resolver
import CodeFirst.Schema.Served
import CodeFirst.Value.Text

/-!
What running an operation keeps: the state of the resolvers and the errors of the fields so far. A
field that fails leaves no entry, and its error is kept in the order of execution.
-/

namespace CodeFirst

inductive FieldError where
  | unresolved (error : ResolveError)
  | undefinedVariable (name : String)
  /-- An argument that must be of a type, where its variable has another value. -/
  | unexpectedValue (type : String) (value : Value)
  | nullForNonNull
  | noList
  | noScalar (type : String)

def FieldError.message : FieldError → String
  | .unresolved error => error.message
  | .undefinedVariable name => "Variable " ++ name ++ " is not defined."
  | .unexpectedValue type value =>
    "Expected input type \"" ++ type ++ "\", found " ++ value.text ++ "."
  | .nullForNonNull => "internal: non-null types require a return value"
  | .noList => "internal: expects an array"
  | .noScalar type =>
    "internal: invalid value for scalar \"" ++ type ++ "\", expected \"FieldValue::Value\""

namespace Execution

/-- The state of the resolvers and the errors so far. -/
structure Progress (σ : Type) where
  state : σ
  errors : List FieldError := []

/-- A step of an operation, which may end the whole of it. -/
abbrev Run (σ : Type) := ExceptT Breakdown (StateM (Progress σ))

variable {σ : Type}

def keep (error : FieldError) : Run σ Unit :=
  modify fun progress => { progress with errors := progress.errors ++ [error] }

/-- Keeps an error of a field; then the field has no entry. -/
def entry (label : String) (value : ExceptT FieldError (Run σ) Json) :
    Run σ (List (String × Json)) := do
  match ← value.run with
  | .ok json => return [(label, json)]
  | .error error =>
    keep error
    return []

/-- The value of a variable: its default, else null if its type allows that. -/
def variableValue? (definitions : List VariableDefinition) (name : String) : Option Value := do
  let definition ← definitions.find? (·.name = name)
  definition.defaultValue?.or (if definition.type.isNonNull then none else some .null)

/-- The values of arguments, or the first variable without a value. -/
def argumentValues (definitions : List VariableDefinition) (arguments : List (String × Literal)) :
    Except FieldError (Keyed Value) :=
  arguments.mapM fun (name, literal) =>
    match literal.value? (variableValue? definitions) with
    | some value => .ok (name, value)
    | none =>
      let unbound := literal.variableNames.find? fun used =>
        (variableValue? definitions used).isNone
      .error (.undefinedVariable (unbound.getD name))

/-- Whether a directive with a condition leaves a selection out. Only a written `true` is true. -/
def isSkipped (directives : List Directive) : Bool :=
  directives.any fun directive =>
    let condition := match directive.arguments.lookup "if" with
      | some (.boolean flag) => flag
      | _ => false
    let given := (directive.arguments.lookup "if").isSome
    given && ((directive.name = "skip" && condition) || (directive.name = "include" && !condition))

/-- The answer of an object: one that has no entries is null. -/
def answer (entries : List (String × Json)) : Json :=
  if entries = [] then .null else .ofEntries entries

end Execution

end CodeFirst
