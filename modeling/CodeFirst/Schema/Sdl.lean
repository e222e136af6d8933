import CodeFirst.Document.DirectiveRule
import CodeFirst.Schema.Check
import CodeFirst.Value.Text

/-!
The text of a schema in the schema definition language.
-/

namespace CodeFirst.Sdl

variable {ρ : Type}

/-- A description in front of a field, with a tab in front of each of its lines. -/
def descriptionText : Option String → String
  | none => ""
  | some description =>
    "\t\"\"\"\n\t" ++
      String.ofList (description.toList.flatMap fun c => if c = '\n' then ['\n', '\t'] else [c]) ++
      "\n\t\"\"\"\n"

def argumentsText : Keyed String → String
  | [] => ""
  | arguments =>
    "(" ++ String.intercalate ", " (arguments.map fun (name, type) => name ++ ": " ++ type) ++ ")"

def outputFieldText (name : String) (field : OutputField ρ) : String :=
  descriptionText field.description ++ "\t" ++ name ++
    argumentsText (field.arguments.map fun (name, type) => (name, type.text)) ++ ": " ++
    field.type.text ++ "\n"

def inputFieldText (name : String) (field : InputField) : String :=
  descriptionText field.description ++ "\t" ++ name ++ ": " ++ field.type.text ++
    (match field.default with
      | none => ""
      | some default => " = " ++ default.text) ++ "\n"

def typeText (name : String) : SchemaType ρ → String
  | .object fields =>
    "type " ++ name ++ " \x7b\n" ++
      String.join (fields.map fun field => outputFieldText field.1 field.2) ++ "\x7d\n\n"
  | .input fields =>
    "input " ++ name ++ " \x7b\n" ++
      String.join (fields.map fun field => inputFieldText field.1 field.2) ++ "\x7d\n\n"

def directiveText (name : String) (rule : DirectiveRule) : String :=
  "\"\"\"\n" ++ rule.purpose ++ "\n\"\"\"\ndirective @" ++ name ++
    argumentsText (rule.arguments.map fun (name, input) => (name, input.type.text)) ++
    " on " ++ String.intercalate " | " (rule.places.map DirectivePlace.word) ++ "\n"

def rootsText (schema : Schema ρ) : String :=
  "schema \x7b\n\tquery: " ++ schema.queryRoot ++ "\n" ++
    (match schema.mutationRoot with
      | none => ""
      | some root => "\tmutation: " ++ root ++ "\n") ++ "\x7d\n"

/-- The text of a schema: its types by name, the directives, the roots. -/
def text (schema : Schema ρ) : String :=
  let visible := schema.types.filter fun type => !isReserved type.1
  let sorted := visible.mergeSort fun left right => left.1 ≤ right.1
  String.join (sorted.map fun type => typeText type.1 type.2) ++
    directiveText "include" .includeRule ++ directiveText "skip" .skipRule ++
    rootsText schema

end CodeFirst.Sdl
