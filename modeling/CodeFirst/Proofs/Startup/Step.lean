import CodeFirst.Proofs.Declaration.Normal
import CodeFirst.Proofs.Registry.Operations
import CodeFirst.Startup

/-! The steps of a startup. Whatever is asked for, a step is refused and leaves no trace, or drops all
entries, or amends the entry of one name. -/
namespace CodeFirst
open Entry (Amendment)

namespace Startup

/-- The name whose entry an operation is about; a reset is about all. -/
def name? {α ρ : Type} : Startup α ρ → Option String
  | .registration (.role name _) => some name
  | .registration (.field _ declaration) => some declaration.owner
  | .registration (.argument declaration) => some declaration.owner
  | .registration (.resolver name _) => some name
  | .registration (.lookup name) => some name
  | .registration .reset => none
  | .service _ name _ => some name

theorem eq_reset_of_name? {α ρ : Type} {operation : Startup α ρ} (unnamed : operation.name? = none) :
    operation = .registration .reset := by
  cases operation with
  | service => cases unnamed
  | registration registration =>
      cases registration with
      | reset => rfl
      | _ => cases unnamed

/-- An operation with all that it depends on: what is known of the types at declaration sites, the
factories of services and their state. -/
structure Step (σ α ρ : Type) where
  introspect : Introspector
  injector : Injector σ α
  state : σ
  operation : Startup α ρ

variable {σ α ρ : Type}

/-- A registration by itself: no service is needed for it, and nothing is known of the types. -/
def Step.bare (registration : Registration ρ) : Step Unit Unit ρ :=
  ⟨.nothing, [], (), .registration registration⟩

/-- What a step would do to which entry: a declaration is obeyed as processing gives it, and a
resolver is bound as it is made of the service that was built. -/
inductive Step.Amends (step : Step σ α ρ) : String → Amendment ρ → Prop
  | role {name isInput} : step.operation = .registration (.role name isInput) →
      Amends step name (.role isInput)
  | field {kind declaration field} : step.operation = .registration (.field kind declaration) →
      declaration.process step.introspect kind = .ok field →
      Amends step field.owner (.field field)
  | argument {declaration argument} : step.operation = .registration (.argument declaration) →
      declaration.process step.introspect = .ok argument →
      Amends step argument.owner (.argument argument)
  | resolver {name resolver} : step.operation = .registration (.resolver name resolver) →
      Amends step name (.resolver resolver)
  | lookup {name} : step.operation = .registration (.lookup name) → Amends step name .nothing
  | service {service name resolver built} : step.operation = .service service name resolver →
      (step.injector.construct service step.state).1 = .ok built →
      Amends step name (.resolver (resolver built))

theorem Step.Amends.name? {step : Step σ α ρ} {name : String} {amendment : Amendment ρ}
    (amends : step.Amends name amendment) : step.operation.name? = some name := by
  cases amends with
  | role operation => exact congrArg Startup.name? operation
  | field operation processed =>
      rw [operation, FieldDeclaration.owner_of_process processed]
      rfl
  | argument operation processed =>
      rw [operation, (ArgumentDeclaration.place_of_process processed).1]
      rfl
  | resolver operation => exact congrArg Startup.name? operation
  | lookup operation => exact congrArg Startup.name? operation
  | service operation _ => exact congrArg Startup.name? operation

end Startup

namespace Registry
open Startup (Step Outcome)

variable {σ α ρ : Type} {registry : Registry ρ}

def takeStep (registry : Registry ρ) (step : Step σ α ρ) : Registry ρ × Outcome α :=
  let taken := registry.startup step.introspect step.injector step.state step.operation
  (taken.1.1, taken.2)

/-- The registry after steps, one after the other, accepted or not. -/
def takeSteps (registry : Registry ρ) : List (Step σ α ρ) → Registry ρ
  | [] => registry
  | step :: rest => takeSteps (registry.takeStep step).1 rest

/-- All that a step can do. -/
inductive Taken (registry : Registry ρ) (step : Step σ α ρ) : Registry ρ × Outcome α → Prop
  | refused {name fault built} : step.operation.name? = some name →
      Taken registry step (registry, ⟨.error fault, [], built⟩)
  | reset : step.operation = .registration .reset →
      Taken registry step (.empty, ⟨.ok .nothing, [], none⟩)
  | amended {name amendment built} : step.Amends name amendment →
      (registry.perform (.amend name amendment)).2 = .ok () →
      Taken registry step ((registry.perform (.amend name amendment)).1,
        ⟨.ok amendment.registered, amendment.registered.notices, built⟩)

/-- An amendment that the registry refuses leaves no trace either. -/
theorem taken_of_amends {step : Step σ α ρ} {name : String} {amendment : Amendment ρ}
    (amends : step.Amends name amendment) (built : Option α) :
    Taken registry step ((registry.perform (.amend name amendment)).1, .ofRegistration built
      ((registry.perform (.amend name amendment)).2.map fun _ => amendment.registered)) := by
  cases result : (registry.perform (.amend name amendment)).2 with
  | ok =>
      exact .amended amends result
  | error error =>
      rw [perform_of_error result]
      exact .refused amends.name?

/-- What a step about a name does, whatever registry it meets: it is refused by itself, or it is for
the entry of the name to say what comes of it. -/
inductive Meant (step : Step σ α ρ) (name : String) : Prop
  | refused (fault : Fault) : (∀ registry : Registry ρ,
      registry.takeStep step = (registry, ⟨.error fault, [], none⟩)) → Meant step name
  | amends {amendment} (built : Option α) : step.Amends name amendment → (∀ registry : Registry ρ,
      registry.takeStep step = ((registry.perform (.amend name amendment)).1, .ofRegistration built
        ((registry.perform (.amend name amendment)).2.map fun _ => amendment.registered))) →
      Meant step name

theorem meant {step : Step σ α ρ} {name : String} (named : step.operation.name? = some name) :
    Meant step name := by
  cases operation : step.operation with
  | registration registration =>
      rw [operation] at named
      cases registration with
      | role other isInput =>
          cases named
          refine .amends none (.role operation) fun registry => ?_
          rw [takeStep, operation]
          rfl
      | field kind declaration =>
          cases named
          cases processed : declaration.process step.introspect kind with
          | error error =>
              refine .refused (.declaration error) fun registry => ?_
              simp only [takeStep, operation, startup, register, declareField, keepAccepted, processed]
              rfl
          | ok field =>
              rw [← FieldDeclaration.owner_of_process processed]
              refine .amends none (.field operation processed) fun registry => ?_
              simp only [takeStep, operation, startup, register, declareField, keepAccepted, processed]
              rfl
      | argument declaration =>
          cases named
          cases processed : declaration.process step.introspect with
          | error error =>
              refine .refused (.declaration error) fun registry => ?_
              simp only [takeStep, operation, startup, register, declareArgument, keepAccepted,
                processed]
              rfl
          | ok argument =>
              rw [← (ArgumentDeclaration.place_of_process processed).1]
              refine .amends none (.argument operation processed) fun registry => ?_
              simp only [takeStep, operation, startup, register, declareArgument, keepAccepted,
                processed]
              rfl
      | resolver other resolver =>
          cases named
          refine .amends none (.resolver operation) fun registry => ?_
          rw [takeStep, operation]
          rfl
      | lookup other =>
          cases named
          refine .amends none (.lookup operation) fun registry => ?_
          rw [takeStep, operation]
          rfl
      | reset => cases named
  | service service other resolver =>
      rw [operation] at named
      cases named
      cases constructed : step.injector.construct service step.state with
      | mk result after =>
          cases result with
          | error error =>
              refine .refused (.injection error) fun registry => ?_
              simp only [takeStep, operation, startup, constructed]
          | ok built =>
              have produced := congrArg Prod.fst constructed
              refine .amends (some built) (.service operation produced) fun registry => ?_
              simp only [takeStep, operation, startup, constructed]
              rfl

theorem taken (registry : Registry ρ) (step : Step σ α ρ) :
    Taken registry step (registry.takeStep step) := by
  cases named : step.operation.name? with
  | none =>
      have reset := Startup.eq_reset_of_name? named
      unfold takeStep
      rw [reset]
      exact .reset reset
  | some name =>
      cases meant named with
      | refused fault same =>
          rw [same registry]
          exact .refused named
      | amends built amends same =>
          rw [same registry]
          exact taken_of_amends amends built

section Everywhere

variable {holds : String → Entry ρ → Prop}

/-- What new entries have and every amendment keeps that a step can make is had everywhere after it. -/
theorem Everywhere.takeStep (everywhere : registry.Everywhere holds) (step : Step σ α ρ)
    (new : ∀ name, holds name (.empty name))
    (kept : ∀ name amendment entry, step.Amends name amendment → holds name entry →
      holds name (entry.amended amendment)) :
    (registry.takeStep step).1.Everywhere holds := by
  have each := taken registry step
  generalize registry.takeStep step = done at each ⊢
  cases each with
  | refused => exact everywhere
  | reset => exact everywhere_empty
  | amended amends _ =>
      apply everywhere.perform_amend new
      exact fun entry => kept _ _ entry amends

theorem Everywhere.takeSteps (steps : List (Step σ α ρ)) (everywhere : registry.Everywhere holds)
    (new : ∀ name, holds name (.empty name))
    (kept : ∀ (step : Step σ α ρ) name amendment entry, step.Amends name amendment →
      holds name entry → holds name (entry.amended amendment)) :
    (registry.takeSteps steps).Everywhere holds := by
  induction steps generalizing registry with
  | nil => exact everywhere
  | cons step rest ih => exact ih (everywhere.takeStep step new (kept step))

end Everywhere

/-- What is refused leaves the registry as it was, with all its entries in their order, and nobody is
told of anything. -/
theorem untraced_of_error {introspect : Introspector} {injector : Injector σ α} {state : σ}
    {operation : Startup α ρ} {fault : Fault}
    (refused : (registry.startup introspect injector state operation).2.result = .error fault) :
    (registry.startup introspect injector state operation).1.1 = registry ∧
      (registry.startup introspect injector state operation).2.notices = [] := by
  have each := taken registry ⟨introspect, injector, state, operation⟩
  unfold takeStep at each
  generalize registry.startup introspect injector state operation = done at refused each ⊢
  obtain ⟨⟨after, _⟩, outcome⟩ := done
  cases each with
  | refused => exact ⟨rfl, rfl⟩
  | reset => cases refused
  | amended => cases refused

/-- A name with a resolver takes no role, and a service without a factory is not bound. -/
theorem untraced_bound :
    let registry : Registry Unit := (Registry.empty.bindResolver "Root" ()).1
    let injector : Injector Unit Unit := []
    ((registry.startup .nothing injector () (.registration (.role "Root" false))).2.result =
          .error (.declaration (.typeOnResolver "Root")) ∧
        (registry.startup .nothing injector () (.registration (.role "Root" false))).1.1 = registry ∧
        (registry.startup .nothing injector () (.registration (.role "Root" false))).2.notices = []) ∧
      ((registry.startup .nothing injector () (.service "Clock" "Time" id)).2.result =
          .error (.injection (.missing "Clock")) ∧
        (registry.startup .nothing injector () (.service "Clock" "Time" id)).1.1 = registry ∧
        (registry.startup .nothing injector () (.service "Clock" "Time" id)).2.notices = []) := by
  intro registry injector
  have conflict : (registry.startup .nothing injector ()
      (.registration (.role "Root" false))).2.result =
        .error (.declaration (.typeOnResolver "Root")) := rfl
  have missing : (registry.startup .nothing injector () (.service "Clock" "Time" id)).2.result =
      .error (.injection (.missing "Clock")) := by
    decide +kernel
  exact ⟨⟨conflict, untraced_of_error conflict⟩, missing, untraced_of_error missing⟩

end Registry

end CodeFirst
