import CodeFirst.Injector
import CodeFirst.Registry
import CodeFirst.Schema
import CodeFirst.Text.Dump

/-!
How records are shown to developers.
-/

namespace CodeFirst

open Text (Dump)

variable {ρ σ α : Type}

def Scalar.dump (scalar : Scalar) : Dump :=
  .word (if scalar = .id then "Id" else scalar.name)

def DeclaredType.dump : DeclaredType → Dump
  | .named name => .call "Named" (.string name)
  | .list element => .call "List" (.string element)

def Introspected.dump : Introspected → Dump
  | .named name => .call "Named" (.string name)
  | .list => .word "List"
  | .untyped => .word "Opaque"

def FieldKind.dump : FieldKind → Dump
  | .plain => .word "Plain"
  | .query => .word "Query"
  | .mutation => .word "Mutation"

/-- Of someone who waits for the field only the presence is shown. -/
def FieldOptions.dump (options : FieldOptions) : Dump :=
  .structure "FieldOptions"
    [("nullable", .option .bool options.nullable),
      ("comment", .option .string options.comment),
      ("default_value", .option .string options.defaultValue),
      ("complexity", .option .number options.complexity),
      ("on_registered", .bool options.notifies)] false

def Field.dump (field : Field) : Dump :=
  .structure "FieldMetadata"
    [("owner", .string field.owner),
      ("name", .string field.name),
      ("type_name", .string field.type),
      ("is_array", .bool field.isArray),
      ("is_method", .bool field.isMethod),
      ("is_custom_type", .bool field.isCustom),
      ("has_resolver_binding", .bool field.hasResolver),
      ("kind", field.kind.dump),
      ("options", field.options.dump)] false

def Argument.dump (argument : Argument) : Dump :=
  .structure "ArgMetadata"
    [("owner", .string argument.owner),
      ("method", .string argument.method),
      ("name", .string argument.name),
      ("type_name", .string argument.type),
      ("is_custom_type", .bool argument.isCustom),
      ("index", .number argument.index)] false

def TypeRole.dump (role : TypeRole) : Dump :=
  .structure "TypeRole" [("name", .string role.name), ("is_input", .bool role.isInput)] false

/-- Of a resolver only the presence is shown. -/
def Entry.dump (entry : Entry ρ) : Dump :=
  .structure "RegistryEntry"
    [("name", .string entry.name),
      ("fields", .list (entry.fields.map Field.dump)),
      ("args", .map (entry.arguments.map fun (method, slots) =>
        (method, .list (slots.map (.option Argument.dump))))),
      ("role", .option TypeRole.dump entry.role),
      ("resolver", .bool entry.resolver.isSome)] false

def Registry.dump (registry : Registry ρ) : Dump :=
  .structure "MetadataRegistry"
    [("entries", .map (registry.entries.map fun (name, entry) => (name, entry.dump)))] false

/-- The explicit type of a declaration is not shown. -/
def FieldDeclaration.dump (declaration : FieldDeclaration) : Dump :=
  .structure "FieldDeclaration"
    [("owner", .string declaration.owner),
      ("member", .string declaration.member),
      ("member_kind", .word declaration.memberKind.word),
      ("provider", .option (fun _ => .word "TypeProvider(..)") declaration.returns),
      ("options", .option FieldOptions.dump declaration.options),
      ("introspected", .option Introspected.dump declaration.introspected)] false

def Injector.dump (injector : Injector σ α) : Dump :=
  .structure "Injector"
    [("providers", .strings ((Keyed.names injector).mergeSort fun left right => left ≤ right))]
    false

/-- What an introspector knows is not shown. -/
def Introspector.dump (_ : Introspector) : Dump :=
  .structure "AnnotationProcessor" [] true

def Schema.dump (schema : Schema ρ) : Dump :=
  .structure "QuerySession"
    [("schema", .structure "CompiledSchema"
      [("query_fields", .strings schema.queryFields),
        ("mutation_fields", .strings schema.mutationFields),
        ("type_names", .strings schema.typeNames)] true)] false

end CodeFirst
