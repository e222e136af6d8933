import CodeFirst.Document.Assembly
import CodeFirst.Document.Conflict
import CodeFirst.Document.Limits
import CodeFirst.Document.Scope
import CodeFirst.Introspection

/-!
Validation of a document against the served types. Fragments are surveyed first, then operations,
each in the order of its text; what a document violates as a whole comes last.
-/

namespace CodeFirst

/-- What a survey of one operation or fragment has found so far. -/
structure Survey where
  violations : List Violation := []
  uses : Uses := {}
  /-- The arguments that are known at this place: those of the field or directive entered last,
  until one is left. A field that is not known changes nothing. -/
  known : Option (ArgumentOwner × List String) := none

/-- What surveys a scope. It may end early, and then nothing is reported. -/
abbrev Surveyor := StateT Survey (Except Breakdown)

namespace Survey

def report (violation : Violation) : Surveyor Unit :=
  modify fun survey => { survey with violations := survey.violations ++ [violation] }

def reportAll (violations : List Violation) : Surveyor Unit :=
  modify fun survey => { survey with violations := survey.violations ++ violations }

def reportIf (condition : Bool) (violation : Violation) : Surveyor Unit :=
  if condition then report violation else pure ()

def note (uses : Uses) : Surveyor Unit :=
  modify fun survey => { survey with
    uses := {
      mentions := survey.uses.mentions ++ uses.mentions
      spreads := survey.uses.spreads ++ uses.spreads } }

def enter (known : Option (ArgumentOwner × List String)) : Surveyor Unit :=
  modify fun survey => { survey with known }

def endAt : Option Breakdown → Surveyor Unit
  | none => pure ()
  | some cause => throw cause

/-- Reports a misfit as the violation that it is at this place. -/
def reportObjection (violation : Misfit → Violation) : Option Objection → Surveyor Unit
  | none => pure ()
  | some (.misfit misfit) => report (violation misfit)
  | some (.breakdown cause) => throw cause

end Survey

namespace Validation

open Survey

def repeatedDirectives (directives : List Directive) : List Violation :=
  let names := (directives.map (·.name)).filter fun name => (DirectiveRule.find? name).isSome
  names.zipIdx.filterMap fun (name, index) =>
    if name ∈ names.take index then some (.directiveTwice name) else none

/-- Surveys the arguments of a field or directive that declares these. -/
def surveyArguments (served : Served) (declared : Keyed ServedInput) :
    List String → List (String × Literal) → Surveyor Unit
  | _, [] => pure ()
  | earlier, (name, literal) :: rest => do
    reportIf (name ∈ earlier) (.argumentTwice name)
    match (← get).known with
    | some (owner, names) =>
      reportIf (name ∉ names) (.unknownArgument name owner (Suggestion.near name names))
    | none => pure ()
    match declared.lookup name, literal.constant? with
    | some input, some value =>
      reportObjection .badArgument (served.objection? [name] input.type value)
    | _, _ => pure ()
    endAt ((declared.lookup name).bind fun input => served.breakdown? input.type literal)
    note { mentions := literal.variableNames }
    surveyArguments served declared (name :: earlier) rest

def missingArguments (declared : Keyed ServedInput) (given : List (String × Literal)) :
    Keyed ServedInput :=
  declared.filter fun (name, input) => input.isRequired && (given.lookup name).isNone

def surveyDirective (served : Served) (place : DirectivePlace) (directive : Directive) :
    Surveyor Unit := do
  match DirectiveRule.find? directive.name with
  | none =>
    report (.unknownDirective directive.name)
    enter none
    surveyArguments served [] [] directive.arguments
  | some rule =>
    reportIf (place ∉ rule.places) (.misplacedDirective directive.name place)
    reportAll ((missingArguments rule.arguments directive.arguments).map fun (name, input) =>
      .missingDirectiveArgument directive.name name input.type.text)
    enter (some (.directive directive.name, Keyed.names rule.arguments))
    surveyArguments served rule.arguments [] directive.arguments
  enter none

def surveyDirectives (served : Served) (place : DirectivePlace) (directives : List Directive) :
    Surveyor Unit :=
  directives.forM (surveyDirective served place)

/-- The type of the objects below a field, if the field and the type are known. -/
def innerType (served : Served) : Option ServedField → Except Breakdown (Option String)
  | none => .ok none
  | some field => do return served.known? (← field.type.base)

/-- What the selection of a known field, with objects of a type below it, violates in itself. -/
def fieldViolations (served : Served) (type name : String) (field : ServedField)
    (inner : Option String) (arguments : List (String × Literal)) (isBare : Bool) :
    List Violation :=
  (missingArguments field.arguments arguments).map (fun (argument, _) =>
    .missingArgument name argument type) ++
  match inner with
  | none => []
  | some base =>
    if served.isLeaf base then if isBare then [] else [.selectionOnScalar name base]
    else if isBare then [.noSelection name base] else []

/-- What a type condition violates between objects of the type around it. -/
def impossible (served : Served) (name : Option String) (around : Option String)
    (condition : String) : List Violation :=
  match around with
  | some parent =>
    if served.knows condition && parent ≠ condition then
      [.impossibleFragment name parent condition]
    else []
  | none => []

/-- What the type violates whose objects a fragment selects from. -/
def nonComposite (served : Served) (fragment type : Option String) : List Violation :=
  match type with
  | some name => if served.isObject name then [] else [.conditionOnNonComposite fragment name]
  | none => []

mutual

/-- Surveys a selection from objects of a type, which may be unknown. -/
def surveySelection (served : Served) (fragments : Keyed Fragment) (type : Option String) :
    Selection → Surveyor Unit
  | .field _ name arguments directives selections =>
    if name = Selection.typeName then pure ()
    else do
      let field? := type.bind (served.field? · name)
      let declared := (field?.map (·.arguments)).getD []
      let inner ← innerType served field?
      endAt (declared.findSome? (·.2.type.breakdown?))
      reportAll (repeatedDirectives directives)
      match type, field? with
      | some type, some field =>
        reportAll (fieldViolations served type name field inner arguments selections.isEmpty)
        enter (some (.field name type, Keyed.names field.arguments))
      | some type, none =>
        reportIf (directives.all fun directive => directive.name ≠ "ifdef")
          (.unknownField name type (Suggestion.near name (served.fieldNames type)))
      | none, _ => pure ()
      surveyArguments served declared [] arguments
      surveyDirectives served .field directives
      reportAll (Conflict.conflicts fragments selections)
      surveySelections served fragments inner selections
      enter none
  | .spread name directives => do
    reportAll (repeatedDirectives directives)
    match fragments.lookup name with
    | some fragment => reportAll (impossible served (some name) type fragment.condition)
    | none => report (.unknownFragment name)
    note { spreads := [name] }
    surveyDirectives served .fragmentSpread directives
  | .inline condition directives selections => do
    reportAll (repeatedDirectives directives)
    let selected := match condition with
      | some name => served.known? name
      | none => type
    match condition with
    | some name =>
      reportAll (impossible served none type name)
      reportIf (!served.knows name) (.unknownType name)
    | none => pure ()
    reportAll (nonComposite served none selected)
    surveyDirectives served .inlineFragment directives
    reportAll (Conflict.conflicts fragments selections)
    surveySelections served fragments selected selections

def surveySelections (served : Served) (fragments : Keyed Fragment) (type : Option String) :
    List Selection → Surveyor Unit
  | [] => pure ()
  | selection :: rest => do
    surveySelection served fragments type selection
    surveySelections served fragments type rest

end

def surveyFragment (served : Served) (fragments : Keyed Fragment) (name : String)
    (fragment : Fragment) :
    Surveyor Unit := do
  let type := served.known? fragment.condition
  reportAll (repeatedDirectives fragment.directives)
  reportIf type.isNone (.unknownType fragment.condition)
  reportAll (nonComposite served (some name) type)
  surveyDirectives served .fragmentDefinition fragment.directives
  reportAll (Conflict.conflicts fragments fragment.selections)
  surveySelections served fragments type fragment.selections

/-- Surveys the variables of an operation. An unknown type counts once where it stands by itself,
and then its default counts for nothing, and once as what all lists and marks are about. -/
def surveyVariables (served : Served) :
    List String → List VariableDefinition → Surveyor Unit
  | _, [] => pure ()
  | earlier, definition :: rest => do
    let form := TypeForm.read definition.type.text
    let type ← form.base
    reportAll (repeatedDirectives definition.directives)
    reportIf (served.isObject type) (.outputVariable definition.name type)
    reportIf (definition.name ∈ earlier) (.variableTwice definition.name)
    let isUnknown := form.isSingle && !served.knows type
    reportIf isUnknown (.unknownType type)
    reportIf (!served.knows type) (.unknownType type)
    match isUnknown, definition.defaultValue? with
    | false, some value =>
      reportObjection .badDefault (served.objection? [definition.name] form value)
    | _, _ => pure ()
    surveyVariables served (definition.name :: earlier) rest

def rootOf (served : Served) : OperationKind → Option String
  | .query => some served.queryRoot
  | .mutation => served.mutationRoot
  | .subscription => none

/-- The type of uploaded files, which only mutations take. -/
def uploadType : String := "Upload"

def surveyOperation (served : Served) (fragments : Keyed Fragment) (operation : Operation) :
    Surveyor Unit := do
  if operation.kind ≠ .mutation ∧ served.knows uploadType then
    reportAll ((operation.definitions.filter (·.type.base = uploadType)).map fun _ =>
      .uploadOutsideMutation)
  reportAll (repeatedDirectives operation.directives)
  match rootOf served operation.kind with
  | none => report (.noRoot operation.kind)
  | some root =>
    surveyVariables served [] operation.definitions
    surveyDirectives served (.ofOperation operation.kind) operation.directives
    reportAll (Conflict.conflicts fragments operation.selections)
    surveySelections served fragments (some root) operation.selections

def survey (scope : Surveyor Unit) : Except Breakdown Survey := do
  let (_, survey) ← scope.run {}
  return survey

def rootless (served : Served) (document : Document) : List Violation :=
  document.operations.filterMap fun operation =>
    if (rootOf served operation.kind).isNone then some (.noRoot operation.kind) else none

/-- Everything that a document violates. A missing root counts for the rules and again for the
limits. -/
def violations (served : Served) (document : Document) : Except Breakdown (List Violation) := do
  let fragments ← document.fragments.mapM fun (name, fragment) => do
    return (name, ← survey (surveyFragment served document.fragments name fragment))
  let operations ← document.operations.mapM fun operation => do
    return (operation, ← survey (surveyOperation served document.fragments operation))
  return fragments.flatMap (·.2.violations) ++ operations.flatMap (·.2.violations) ++
    scopeViolations (fragments.map fun fragment => (fragment.1, fragment.2.uses))
      (operations.map fun (operation, survey) => {
        name := operation.name
        definitions := if (rootOf served operation.kind).isSome then operation.definitions else []
        uses := survey.uses }) ++
    rootless served document

end Validation

/-- Why a document is not run. -/
inductive DocumentError where
  | unread (error : ReadError)
  | nestsTooDeep
  | breakdown (cause : Breakdown)
  | tooComplex
  | tooDeep
  | invalid (violations : List Violation)
  | ambiguous
deriving DecidableEq

/-- The messages of an error, one for each violation. -/
def DocumentError.messages : DocumentError → List String
  | .unread error => [error.message]
  | .nestsTooDeep =>
    ["The recursion depth of the query cannot be greater than `" ++
      toString Document.unfoldedLimit ++ "`"]
  | .breakdown cause => [cause.message]
  | .tooComplex => ["Query is too complex."]
  | .tooDeep => ["Query is nested too deep."]
  | .invalid violations => violations.map Violation.message
  | .ambiguous => ["Operation name required in request."]

namespace Validation

variable {ρ : Type}

def rooted (served : Served) (document : Document) : List Operation :=
  document.operations.filter fun operation => (rootOf served operation.kind).isSome

/-- The operation to run of a text, with its fragments written out. The limits count for more than
the rules, and the rules for more than the choice of an operation; no limit is told where the rules
cannot be checked. -/
def accept (schema : Schema ρ) (text : String) : Except DocumentError Operation := do
  let document ← (Document.read text).mapError .unread
  let some unfolded := document.inlined? | throw .nestsTooDeep
  let served := schema.served
  let violations ← (violations served document).mapError .breakdown
  let counted := (rooted served unfolded).map (·.selections)
  if schema.maxComplexity < Selection.totalComplexity counted.flatten then throw .tooComplex
  if counted.any fun selections => schema.maxDepth < Selection.greatestDepth selections then
    throw .tooDeep
  if violations ≠ [] then throw (.invalid violations)
  match unfolded.operations with
  | [operation] => return operation
  | _ => throw .ambiguous

end Validation

end CodeFirst
