import CodeFirst.Document.DirectiveRule
import CodeFirst.Document.Limits
import CodeFirst.Execution.Progress
import CodeFirst.Introspection

/-!
The description of a schema. A type leads to its fields and these to their types again, so a
description is given only as far as it is selected.
-/

namespace CodeFirst

/-- Whether a type is shown: reserved and built-in ones are, others if the roots lead to them. -/
def Served.isShown (reachable : List String) (name : String) : Bool :=
  isReserved name || name ∈ builtinScalars || name ∈ reachable

/-- All types that are shown, by name. -/
def Served.shownTypes (served : Served) (reachable : List String) : List String :=
  ((Keyed.names served.types).filter (isShown reachable)).mergeSort fun left right => left ≤ right

namespace Introspection

inductive Subject where
  | schema (shown : List String)
  | type (form : TypeForm)
  | field (name : String) (field : ServedField)
  | input (name : String) (input : ServedInput)
  | word (name description : String)
  | directive (name : String) (rule : DirectiveRule)

def Subject.typeName : Subject → String
  | .schema _ => schemaTypeName
  | .type _ => typeTypeName
  | .field .. => "__Field"
  | .input .. => "__InputValue"
  | .word .. => "__EnumValue"
  | .directive .. => "__Directive"

/-- What there is to say of a subject under one key. -/
inductive Fact where
  | constant (value : Json)
  | one (subject : Subject)
  | many (subjects : List Subject)

def Fact.text (text : String) : Fact :=
  .constant (.string text)

def Fact.flag (flag : Bool) : Fact :=
  .constant (.boolean flag)

def kindWord : ServedKind → String
  | .scalar => "SCALAR"
  | .enumeration _ => "ENUM"
  | .object _ => "OBJECT"
  | .input _ => "INPUT_OBJECT"

def inputFacts (inputs : Keyed ServedInput) : Fact :=
  .many (inputs.map fun (name, input) => .input name input)

/-- A fact about a type with a name. Reserved fields are not described. -/
def namedTypeFact? (name : String) (type : ServedType) (key : String) : Option Fact :=
  match key, type.kind with
  | "kind", kind => some (.text (kindWord kind))
  | "name", _ => some (.text name)
  | "description", _ => type.description.map .text
  | "fields", .object fields =>
    some (.many ((fields.filter fun field => !isReserved field.1).map fun (name, field) =>
      .field name field))
  | "interfaces", .object _ => some (.many [])
  | "enumValues", .enumeration words =>
    some (.many (words.map fun (name, description) => .word name description))
  | "inputFields", .input fields => some (inputFacts fields)
  | "isOneOf", .input _ => some (.flag false)
  | _, _ => none

/-- A fact about a type. What is marked is described as the type that the mark is about. -/
def typeFact? (served : Served) (form : TypeForm) (key : String) : Option Fact :=
  match form, key with
  | .named name, key => (served.types.lookup name).bind (namedTypeFact? name · key)
  | .nonNull _ _, "kind" => some (.text "NON_NULL")
  | .nonNull _ inner, "ofType" => some (.one (.type inner))
  | .list _ _, "kind" => some (.text "LIST")
  | .list _ item, "ofType" => some (.one (.type item))
  | _, _ => none

def schemaFact? (served : Served) (shown : List String) : String → Option Fact
  | "description" =>
    schemaType.description.map fun text => .text (text.map fun c => if c = '\n' then ' ' else c)
  | "types" => some (.many (shown.map fun name => .type (.named name)))
  | "queryType" => some (.one (.type (.named served.queryRoot)))
  | "mutationType" => served.mutationRoot.map fun root => .one (.type (.named root))
  | "directives" => some (.many (DirectiveRule.all.map fun (name, rule) => .directive name rule))
  | _ => none

def fieldFact? (name : String) (field : ServedField) : String → Option Fact
  | "name" => some (.text name)
  | "description" => field.description.map .text
  | "args" => some (inputFacts field.arguments)
  | "type" => some (.one (.type field.type))
  | "isDeprecated" => some (.flag false)
  | _ => none

def inputFact? (name : String) (input : ServedInput) : String → Option Fact
  | "name" => some (.text name)
  | "description" => input.description.map .text
  | "type" => some (.one (.type input.type))
  | "defaultValue" => input.default.map .text
  | "isDeprecated" => some (.flag false)
  | _ => none

def wordFact? (name description : String) : String → Option Fact
  | "name" => some (.text name)
  | "description" => some (.text description)
  | "isDeprecated" => some (.flag false)
  | _ => none

def directiveFact? (name : String) (rule : DirectiveRule) : String → Option Fact
  | "name" => some (.text name)
  | "description" => some (.text rule.purpose)
  | "locations" => some (.constant (.array (rule.places.map fun place => .string place.word)))
  | "args" => some (inputFacts rule.arguments)
  | "isRepeatable" => some (.flag false)
  | _ => none

/-- What there is to say of a subject under a key; where there is nothing the answer is null. -/
def fact? (served : Served) : Subject → String → Option Fact
  | .schema shown => schemaFact? served shown
  | .type form => typeFact? served form
  | .field name field => fieldFact? name field
  | .input name input => inputFact? name input
  | .word name description => wordFact? name description
  | .directive name rule => directiveFact? name rule

open Execution

variable {σ : Type}

/-- Why the value of an argument is refused that must be of a scalar type. -/
def unexpected? (values : Keyed Value) (name : String) : TypeForm → Option FieldError
  | .nonNull _ (.named scalar) =>
    (values.lookup name).bind fun value =>
      if Served.scalarHolds scalar value then none else some (.unexpectedValue scalar value)
  | _ => none

/-- The values of the arguments of a field, which must be of their types. -/
def checkedValues (definitions : List VariableDefinition) (field : ServedField)
    (arguments : List (String × Literal)) : Except FieldError (Keyed Value) := do
  let values ← argumentValues definitions arguments
  match field.arguments.findSome? fun (name, input) => unexpected? values name input.type with
  | some error => throw error
  | none => return values

/-- The description of a subject by its selected entries. A type that is not known or cannot be read
has none. -/
def described (served : Served) (subject : Subject) (entries : Run σ (List (String × Json))) :
    Run σ Json :=
  match subject with
  | .type (.named name) => do
    if !served.knows name then throw (.unknownToDescribe name)
    return answer (← entries)
  | .type (.torn behind) => throw (.torn behind)
  | _ => return answer (← entries)

mutual

def describeSelection (served : Served) (definitions : List VariableDefinition)
    (subject : Subject) : Selection → Run σ (List (String × Json))
  | .field label name arguments directives selections =>
    if isSkipped directives then return []
    else if name = Selection.typeName then return [(label.getD name, .string subject.typeName)]
    else
      match field? subject.typeName name with
      | none => return [(label.getD name, .null)]
      | some field => entry (label.getD name) do
        let _ ← checkedValues definitions field arguments
        match fact? served subject name with
        | none => return .null
        | some (.constant value) => return value
        | some (.one inner) =>
          described served inner (describeSelections served definitions inner selections)
        | some (.many inners) =>
          return .array (← inners.mapM fun inner =>
            described served inner (describeSelections served definitions inner selections))
  | .inline condition directives selections =>
    if isSkipped directives then return []
    else if condition.all (· = subject.typeName) then
      describeSelections served definitions subject selections
    else return []
  | .spread _ _ => return []

def describeSelections (served : Served) (definitions : List VariableDefinition)
    (subject : Subject) : List Selection → Run σ (List (String × Json))
  | [] => return []
  | selection :: rest => do
    let entries ← describeSelection served definitions subject selection
    return entries ++ (← describeSelections served definitions subject rest)

end

/-- The subject of a field of the query root: the schema, or the type named by an argument if it is
shown. -/
def rootSubject? (served : Served) (reachable : List String) (field : String)
    (values : Keyed Value) : Option Subject :=
  if field = schemaFieldName then some (.schema (served.shownTypes reachable))
  else
    match values.lookup "name" with
    | some (.string name) =>
      if served.knows name && Served.isShown reachable name then some (.type (.named name))
      else none
    | _ => none

/-- The description that a field of the query root gives. -/
def describe (served : Served) (definitions : List VariableDefinition) (name : String)
    (field : ServedField) (arguments : List (String × Literal)) (selections : List Selection) :
    ExceptT FieldError (Run σ) Json := do
  let values ← checkedValues definitions field arguments
  let reachable ← ExceptT.lift (ExceptT.mk (pure served.reachable))
  match rootSubject? served reachable name values with
  | none => return .null
  | some subject =>
    ExceptT.lift (described served subject
      (describeSelections served definitions subject selections))

end Introspection

end CodeFirst
