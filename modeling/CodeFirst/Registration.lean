import CodeFirst.Declaration.Processing
import CodeFirst.Registry

/-!
Registration: declarations are processed and kept in the registry. A field or argument that is
refused leaves the registry as it was.
-/

namespace CodeFirst

/-- What someone who waits for a field is told: its name and type. -/
def Field.notice (field : Field) : String :=
  field.name ++ " " ++ field.displayType

/-- One change of a registry, for resolvers of type `ρ`. -/
inductive Registration (ρ : Type) where
  | role (name : String) (isInput : Bool)
  | field (kind : FieldKind) (declaration : FieldDeclaration)
  | argument (declaration : ArgumentDeclaration)
  | resolver (name : String) (resolver : ρ)
  /-- Looks a name up, which creates its entry. -/
  | lookup (name : String)
  | reset

inductive Registered where
  | nothing
  | field (field : Field)
  | argument (argument : Argument)
deriving DecidableEq, Inhabited

namespace Registered

/-- What a registration tells those who wait for a field. -/
def notices : Registered → List String
  | .field kept => if kept.options.notifies then [kept.notice] else []
  | .argument _ => []
  | .nothing => []

end Registered

namespace Registry

variable {ρ : Type}

/-- The result of processing, kept by `keep` if there is one. -/
def keepAccepted {α : Type} (registry : Registry ρ) (accepted : Except DeclarationError α)
    (keep : Registry ρ → α → Registry ρ) : Registry ρ × Except DeclarationError α :=
  match accepted with
  | .ok value => (keep registry value, .ok value)
  | .error error => (registry, .error error)

def declareField (registry : Registry ρ) (introspect : Introspector) (kind : FieldKind)
    (declaration : FieldDeclaration) : Registry ρ × Except DeclarationError Field :=
  registry.keepAccepted (declaration.process introspect kind) addField

def declareArgument (registry : Registry ρ) (introspect : Introspector)
    (declaration : ArgumentDeclaration) : Registry ρ × Except DeclarationError Argument :=
  registry.keepAccepted (declaration.process introspect) addArgument

/-- Makes one registration, with what is known of the types at declaration sites. -/
def register (introspect : Introspector) (registry : Registry ρ) :
    Registration ρ → Registry ρ × Except DeclarationError Registered
  | .role name isInput =>
    let (registry, result) := registry.declareType name isInput
    (registry, result.map fun _ => .nothing)
  | .field kind declaration =>
    let (registry, result) := registry.declareField introspect kind declaration
    (registry, result.map .field)
  | .argument declaration =>
    let (registry, result) := registry.declareArgument introspect declaration
    (registry, result.map .argument)
  | .resolver name resolver =>
    let (registry, result) := registry.bindResolver name resolver
    (registry, result.map fun _ => .nothing)
  | .lookup name => (registry.lookup name, .ok .nothing)
  | .reset => (.empty, .ok .nothing)

/-- The registry after registrations, one after the other, accepted or not. -/
def replay (introspect : Introspector) (registry : Registry ρ) :
    List (Registration ρ) → Registry ρ
  | [] => registry
  | registration :: rest => replay introspect (register introspect registry registration).1 rest

end Registry

end CodeFirst
