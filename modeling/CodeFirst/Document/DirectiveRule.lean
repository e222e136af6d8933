import CodeFirst.Document
import CodeFirst.Schema.Served

/-!
The directives that are known, with their arguments and the places where they may stand.
-/

namespace CodeFirst

/-- A place at which directives may stand, in a document or in the text of a schema. -/
inductive DirectivePlace where
  | query
  | mutation
  | subscription
  | fragmentDefinition
  | field
  | fragmentSpread
  | inlineFragment
  | scalar
  | fieldDefinition
  | argumentDefinition
  | enumValue
  | inputObject
  | inputFieldDefinition
deriving DecidableEq

namespace DirectivePlace

def word : DirectivePlace → String
  | .query => "QUERY"
  | .mutation => "MUTATION"
  | .subscription => "SUBSCRIPTION"
  | .fragmentDefinition => "FRAGMENT_DEFINITION"
  | .field => "FIELD"
  | .fragmentSpread => "FRAGMENT_SPREAD"
  | .inlineFragment => "INLINE_FRAGMENT"
  | .scalar => "SCALAR"
  | .fieldDefinition => "FIELD_DEFINITION"
  | .argumentDefinition => "ARGUMENT_DEFINITION"
  | .enumValue => "ENUM_VALUE"
  | .inputObject => "INPUT_OBJECT"
  | .inputFieldDefinition => "INPUT_FIELD_DEFINITION"

def ofOperation : OperationKind → DirectivePlace
  | .query => .query
  | .mutation => .mutation
  | .subscription => .subscription

end DirectivePlace

structure DirectiveRule where
  purpose : String
  arguments : Keyed ServedInput
  places : List DirectivePlace

namespace DirectiveRule

def includeRule : DirectiveRule where
  purpose :=
    "Directs the executor to include this field or fragment only when the `if` argument is true."
  arguments := [("if", ⟨.read "Boolean!", some "Included when true.", none⟩)]
  places := [.field, .fragmentSpread, .inlineFragment]

def skipRule : DirectiveRule where
  purpose := "Directs the executor to skip this field or fragment when the `if` argument is true."
  arguments := [("if", ⟨.read "Boolean!", some "Skipped when true.", none⟩)]
  places := [.field, .fragmentSpread, .inlineFragment]

def deprecatedRule : DirectiveRule where
  purpose := "Marks an element of a GraphQL schema as no longer supported."
  arguments :=
    [("reason", ⟨.read "String",
      some "A reason for why it is deprecated, formatted using Markdown syntax",
      some "\"No longer supported\""⟩)]
  places := [.fieldDefinition, .argumentDefinition, .inputFieldDefinition, .enumValue]

def oneOfRule : DirectiveRule where
  purpose :=
    "Indicates that an Input Object is a OneOf Input Object " ++
      "(and thus requires exactly one of its field be provided)"
  arguments := []
  places := [.inputObject]

def specifiedByRule : DirectiveRule where
  purpose :=
    "Provides a scalar specification URL for specifying the behavior of custom scalar types."
  arguments :=
    [("url", ⟨.read "String!", some "URL that specifies the behavior of this scalar.", none⟩)]
  places := [.scalar]

/-- The known directives by name, in alphabetical order. -/
def all : Keyed DirectiveRule :=
  [("deprecated", deprecatedRule), ("include", includeRule), ("oneOf", oneOfRule),
    ("skip", skipRule), ("specifiedBy", specifiedByRule)]

def find? (name : String) : Option DirectiveRule :=
  all.lookup name

end DirectiveRule

end CodeFirst
