import CodeFirst.Schema.Served
import CodeFirst.Value.Text

/-!
The types that describe a schema, and the fields of the query root that lead to them.
-/

namespace CodeFirst

namespace Introspection

def plain (name type : String) : String × ServedField :=
  (name, ⟨.read type, none, []⟩)

def explained (name type description : String) : String × ServedField :=
  (name, ⟨.read type, some description, []⟩)

/-- A list from which an argument may ask for what is deprecated as well. -/
def flagged (name type : String) : String × ServedField :=
  (name, ⟨.read type, none, [("includeDeprecated", ⟨.read "Boolean!", none, some "false"⟩)]⟩)

def schemaType : ServedType where
  description := some
    ("A GraphQL Schema defines the capabilities of a GraphQL server. It exposes\n" ++
      "all available types and directives on the server, as well as the entry\n" ++
      "points for query, mutation, and subscription operations.")
  kind := .object
    [explained "description" "String!"
        "description of __Schema for newer graphiql introspection schema\nrequirements",
      explained "types" "[__Type!]!" "A list of all types supported by this server.",
      explained "queryType" "__Type!" "The type that query operations will be rooted at.",
      explained "mutationType" "__Type"
        "If this server supports mutation, the type that mutation operations will\nbe rooted at.",
      explained "subscriptionType" "__Type"
        ("If this server support subscription, the type that subscription\n" ++
          "operations will be rooted at."),
      explained "directives" "[__Directive!]!" "A list of all directives supported by this server."]

def typeType : ServedType where
  description := some
    ("The fundamental unit of any GraphQL Schema is the type. There are many kinds\n" ++
      "of types in GraphQL as represented by the `__TypeKind` enum.\n\n" ++
      "Depending on the kind of a type, certain fields describe information about\n" ++
      "that type. Scalar types provide no information beyond a name and\n" ++
      "description, while Enum types provide their values. Object and Interface\n" ++
      "types provide the fields they describe. Abstract types, Union and Interface,\n" ++
      "provide the Object types possible at runtime. List and NonNull types compose\n" ++
      "other types.")
  kind := .object
    [plain "kind" "__TypeKind!",
      plain "name" "String",
      plain "description" "String",
      flagged "fields" "[__Field!]",
      plain "interfaces" "[__Type!]",
      plain "possibleTypes" "[__Type!]",
      flagged "enumValues" "[__EnumValue!]",
      flagged "inputFields" "[__InputValue!]",
      plain "ofType" "__Type",
      plain "specifiedByURL" "String",
      plain "isOneOf" "Boolean"]

def fieldType : ServedType where
  description := some
    ("Object and Interface types are described by a list of Fields, each of which\n" ++
      "has a name, potentially a list of arguments, and a return type.")
  kind := .object
    [plain "name" "String!",
      plain "description" "String",
      flagged "args" "[__InputValue!]!",
      plain "type" "__Type!",
      plain "isDeprecated" "Boolean!",
      plain "deprecationReason" "String"]

def inputType : ServedType where
  description := some
    ("Arguments provided to Fields or Directives and the input fields of an\n" ++
      "InputObject are represented as Input Values which describe their type and\n" ++
      "optionally a default value.")
  kind := .object
    [plain "name" "String!",
      plain "description" "String",
      plain "type" "__Type!",
      plain "defaultValue" "String",
      plain "isDeprecated" "Boolean!",
      plain "deprecationReason" "String"]

def wordType : ServedType where
  description := some
    ("One possible value for a given Enum. Enum values are unique values, not a\n" ++
      "placeholder for a string or numeric value. However an Enum value is returned\n" ++
      "in a JSON response as a string.")
  kind := .object
    [plain "name" "String!",
      plain "description" "String",
      plain "isDeprecated" "Boolean!",
      plain "deprecationReason" "String"]

def directiveType : ServedType where
  description := some
    ("A Directive provides a way to describe alternate runtime execution and type\n" ++
      "validation behavior in a GraphQL document.\n\n" ++
      "In some cases, you need to provide options to alter GraphQL's execution\n" ++
      "behavior in ways field arguments will not suffice, such as conditionally\n" ++
      "including or skipping a field. Directives provide this by describing\n" ++
      "additional information to the executor.")
  kind := .object
    [plain "name" "String!",
      plain "description" "String",
      plain "locations" "[__DirectiveLocation!]!",
      flagged "args" "[__InputValue!]!",
      plain "isRepeatable" "Boolean!"]

def kindType : ServedType where
  description := some "An enum describing what kind of type a given `__Type` is."
  kind := .enumeration
    [("SCALAR", "Indicates this type is a scalar."),
      ("OBJECT", "Indicates this type is an object. `fields` and `interfaces` are valid\nfields."),
      ("INTERFACE",
        "Indicates this type is an interface. `fields` and `possibleTypes` are\nvalid fields."),
      ("UNION", "Indicates this type is a union. `possibleTypes` is a valid field."),
      ("ENUM", "Indicates this type is an enum. `enumValues` is a valid field."),
      ("INPUT_OBJECT", "Indicates this type is an input object. `inputFields` is a valid field."),
      ("LIST", "Indicates this type is a list. `ofType` is a valid field."),
      ("NON_NULL", "Indicates this type is a non-null. `ofType` is a valid field.")]

def placeType : ServedType where
  description := some
    ("A Directive can be adjacent to many parts of the GraphQL language, a\n" ++
      "__DirectiveLocation describes one such possible adjacencies.")
  kind := .enumeration
    [("QUERY", "Location adjacent to a query operation."),
      ("MUTATION", "Location adjacent to a mutation operation."),
      ("SUBSCRIPTION", "Location adjacent to a subscription operation."),
      ("FIELD", "Location adjacent to a field."),
      ("FRAGMENT_DEFINITION", "Location adjacent to a fragment definition."),
      ("FRAGMENT_SPREAD", "Location adjacent to a fragment spread."),
      ("INLINE_FRAGMENT", "Location adjacent to an inline fragment."),
      ("VARIABLE_DEFINITION", "Location adjacent to a variable definition."),
      ("SCHEMA", "Location adjacent to a schema definition."),
      ("SCALAR", "Location adjacent to a scalar definition."),
      ("OBJECT", "Location adjacent to an object type definition."),
      ("FIELD_DEFINITION", "Location adjacent to a field definition."),
      ("ARGUMENT_DEFINITION", "Location adjacent to an argument definition."),
      ("INTERFACE", "Location adjacent to an interface definition."),
      ("UNION", "Location adjacent to a union definition."),
      ("ENUM", "Location adjacent to an enum definition."),
      ("ENUM_VALUE", "Location adjacent to an enum value definition."),
      ("INPUT_OBJECT", "Location adjacent to an input object type definition."),
      ("INPUT_FIELD_DEFINITION", "Location adjacent to an input object field definition.")]

/-- The type from which all types of introspection are reached. -/
def schemaTypeName : String := "__Schema"

def typeTypeName : String := "__Type"

/-- The field of the query root that leads to the description of the schema. -/
def schemaFieldName : String := "__schema"

def types : Keyed ServedType :=
  [(schemaTypeName, schemaType), (typeTypeName, typeType), ("__Field", fieldType),
    ("__InputValue", inputType), ("__EnumValue", wordType), ("__Directive", directiveType),
    ("__TypeKind", kindType), ("__DirectiveLocation", placeType)]

def field? (type name : String) : Option ServedField :=
  match types.lookup type with
  | some ⟨_, .object fields⟩ => fields.lookup name
  | _ => none

/-- The fields that the query root gets. -/
def rootFields : Keyed ServedField :=
  [(schemaFieldName, ⟨.read "__Schema!", none, []⟩),
    ("__type", ⟨.read "__Type", none, [("name", ⟨.read "String!", none, none⟩)]⟩)]

def extend (type : ServedType) : ServedType :=
  match type.kind with
  | .object fields => { type with kind := .object (fields ++ rootFields) }
  | _ => type

/-- The types that come to those of a schema. A type of the schema stays in the place of one of the
same name, and then what only that one leads to does not come either. -/
def additional (taken : List String) : Keyed ServedType :=
  let next := fun (type : ServedType) => type.mentioned.filterMap (·.base.toOption)
  let come := Keyed.reach next types taken [schemaTypeName]
  types.filter fun type => type.1 ∉ taken && type.1 ∈ come

end Introspection

def Served.scalars : Keyed ServedType :=
  [("Boolean", ⟨some "The `Boolean` scalar type represents `true` or `false`.", .scalar⟩),
    ("Int", ⟨some "The `Int` scalar type represents non-fractional whole numeric values.",
      .scalar⟩),
    ("Float",
      ⟨some ("The `Float` scalar type represents signed double-precision fractional values as " ++
        "specified by [IEEE 754](https://en.wikipedia.org/wiki/IEEE_floating_point)."),
        .scalar⟩),
    ("String",
      ⟨some ("The `String` scalar type represents textual data, represented as UTF-8\n" ++
        "character sequences. The String type is most often used by GraphQL to\n" ++
        "represent free-form human-readable text."),
        .scalar⟩),
    ("ID", ⟨none, .scalar⟩)]

def InputField.served (field : InputField) : ServedInput :=
  ⟨.read field.type.text, field.description, field.default.map Value.text⟩

def OutputField.served {ρ : Type} (field : OutputField ρ) : ServedField :=
  ⟨.read field.type.text, field.description,
    field.arguments.map fun (name, type) => (name, ⟨.read type.text, none, none⟩)⟩

def SchemaType.served {ρ : Type} : SchemaType ρ → ServedType
  | .object fields => ⟨none, .object (fields.map fun (name, field) => (name, field.served))⟩
  | .input fields => ⟨none, .input (fields.map fun (name, field) => (name, field.served))⟩

/-- The types that a schema serves: the built-in ones, its own, and with introspection on those that
describe it. -/
def Schema.served {ρ : Type} (schema : Schema ρ) : Served where
  queryRoot := schema.queryRoot
  mutationRoot := schema.mutationRoot
  types :=
    let own := schema.types.map fun (name, type) => (name, type.served)
    if schema.introspection then
      Served.scalars ++ Keyed.modify schema.queryRoot Introspection.extend own ++
        Introspection.additional (Keyed.names own)
    else Served.scalars ++ own

end CodeFirst
