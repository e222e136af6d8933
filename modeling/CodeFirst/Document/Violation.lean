import CodeFirst.Document.DirectiveRule
import CodeFirst.Document.Fitting
import CodeFirst.Document.Suggestion

/-!
The rules of documents that a document may violate.
-/

namespace CodeFirst

inductive ArgumentOwner where
  | field (name type : String)
  | directive (name : String)
deriving DecidableEq

def ArgumentOwner.text : ArgumentOwner → String
  | .field name type => "field \"" ++ name ++ "\" of type \"" ++ type ++ "\"."
  | .directive name => "directive \"" ++ name ++ "\"."

inductive Violation where
  | uploadOutsideMutation
  | noRoot (kind : OperationKind)
  | directiveTwice (name : String)
  | outputVariable (name type : String)
  | variableTwice (name : String)
  | unknownType (name : String)
  | badDefault (misfit : Misfit)
  | differentFields (label first second : String)
  /-- `name` is that of the selected entry or of an argument. -/
  | differingArguments (name : String)
  /-- `type` is that of the objects around the field. -/
  | missingArgument (field argument type : String)
  | selectionOnScalar (field type : String)
  | noSelection (field type : String)
  | unknownField (field type : String) (suggestions : List String)
  | argumentTwice (name : String)
  | unknownArgument (argument : String) (owner : ArgumentOwner) (suggestions : List String)
  | badArgument (misfit : Misfit)
  | unknownDirective (name : String)
  | misplacedDirective (name : String) (place : DirectivePlace)
  | missingDirectiveArgument (directive argument type : String)
  /-- Without a name it is an inline fragment. -/
  | impossibleFragment (name : Option String) (parent condition : String)
  | unknownFragment (name : String)
  | conditionOnNonComposite (fragment : Option String) (type : String)
  | unusedVariable (name : String) (operation : Option String)
  | unusedFragment (name : String)
  | undefinedVariable (name : String) (operation : Option String)
  | fragmentCycle (name : String)
deriving DecidableEq

namespace Violation

def quoted (name : String) : String :=
  "\"" ++ name ++ "\""

/-- The name of a fragment in front of what is said of it; an inline fragment has none. -/
def fragmentText : Option String → String
  | none => "Fragment"
  | some name => "Fragment " ++ quoted name

/-- The operation with a name, for the end of a sentence. -/
def operationText : Option String → String
  | none => ""
  | some name => " by operation " ++ quoted name

def conflictAdvice : String :=
  ". Use different aliases on the fields to fetch both if this was intentional."

def message : Violation → String
  | .uploadOutsideMutation => "The Upload type is only allowed to be defined on a mutation"
  | .noRoot kind => "Schema is not configured for " ++ kind.word ++ "s."
  | .directiveTwice name => "Duplicate directive " ++ quoted name
  | .outputVariable name type =>
    "Variable " ++ quoted name ++ " cannot be of non-input type " ++ quoted type
  | .variableTwice name => "There can only be one variable named \"$" ++ name ++ "\""
  | .unknownType name => "Unknown type " ++ quoted name
  | .badDefault misfit => "Invalid default value for argument: " ++ misfit.text
  | .differentFields label first second =>
    "Fields " ++ quoted label ++ " conflict because " ++ quoted first ++ " and " ++ quoted second ++
      " are different fields" ++ conflictAdvice
  | .differingArguments name =>
    "Fields " ++ quoted name ++ " conflict because they have differing arguments" ++ conflictAdvice
  | .missingArgument field argument type =>
    "Field " ++ quoted field ++ " argument " ++ quoted argument ++
      " of type " ++ quoted type ++ " is required but not provided"
  | .selectionOnScalar field type =>
    "Field " ++ quoted field ++ " must not have a selection since type " ++ quoted type ++
      " has no subfields"
  | .noSelection field type =>
    "Field " ++ quoted field ++ " of type " ++ quoted type ++ " must have a selection of subfields"
  | .unknownField field type suggestions =>
    "Unknown field " ++ quoted field ++ " on type " ++ quoted type ++ "." ++
      Suggestion.sentence suggestions
  | .argumentTwice name => "There can only be one argument named " ++ quoted name
  | .unknownArgument argument owner suggestions =>
    "Unknown argument " ++ quoted argument ++ " on " ++ owner.text ++
      Suggestion.sentence suggestions
  | .badArgument misfit => "Invalid value for argument " ++ misfit.text
  | .unknownDirective name => "Unknown directive " ++ quoted name
  | .misplacedDirective name place =>
    "Directive " ++ quoted name ++ " may not be used on " ++ quoted place.word
  | .missingDirectiveArgument directive argument type =>
    "Directive \"@" ++ directive ++ "\" argument " ++ quoted argument ++ " of type " ++
      quoted type ++ " is required but not provided"
  | .impossibleFragment name parent condition =>
    fragmentText name ++ " cannot be spread here as objects of type " ++ quoted parent ++
      " can never be of type " ++ quoted condition
  | .unknownFragment name => "Unknown fragment: " ++ quoted name
  | .conditionOnNonComposite fragment type =>
    fragmentText fragment ++ " cannot condition non composite type " ++ quoted type
  | .unusedVariable name operation =>
    "Variable \"$" ++ name ++ "\" is not used" ++ operationText operation
  | .unusedFragment name => "Fragment " ++ quoted name ++ " is never used"
  | .undefinedVariable name operation =>
    "Variable \"$" ++ name ++ "\" is not defined" ++ operationText operation
  | .fragmentCycle name => "Cannot spread fragment " ++ quoted name

end Violation

end CodeFirst
