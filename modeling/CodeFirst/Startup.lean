import CodeFirst.Fault
import CodeFirst.Registration

/-!
Startup of an application: registrations are made, and resolvers are bound that have to be built as
services first.
-/

namespace CodeFirst

/-- One operation of a startup, with services of type `α` and resolvers of type `ρ`. -/
inductive Startup (α ρ : Type) where
  | registration (registration : Registration ρ)
  /-- Builds a service, and binds the resolver that is made of it to a name. -/
  | service (service name : String) (resolver : α → ρ)

namespace Startup

/-- What an operation came to: what it registered, what those were told who wait for fields, and the
service that it built, which is there even if it could not be bound. -/
structure Outcome (α : Type) where
  result : Except Fault Registered
  notices : List String
  built : Option α

/-- Those who wait for a field are told of it once it is kept. -/
def Outcome.ofRegistration {α : Type} (built : Option α) :
    Except DeclarationError Registered → Outcome α
  | .ok registered => ⟨.ok registered, registered.notices, built⟩
  | .error error => ⟨.error (.declaration error), [], built⟩

end Startup

namespace Registry

variable {σ α ρ : Type}

/-- Takes an operation, with what is known of the types at declaration sites, the factories of
services and the state of these. -/
def startup (introspect : Introspector) (injector : Injector σ α) (registry : Registry ρ)
    (state : σ) : Startup α ρ → (Registry ρ × σ) × Startup.Outcome α
  | .registration registration =>
    let (registry, result) := registry.register introspect registration
    ((registry, state), .ofRegistration none result)
  | .service service name resolver =>
    match injector.construct service state with
    | (.error error, state) => ((registry, state), ⟨.error (.injection error), [], none⟩)
    | (.ok built, state) =>
      let (registry, result) := registry.register introspect (.resolver name (resolver built))
      ((registry, state), .ofRegistration (some built) result)

end Registry

end CodeFirst
