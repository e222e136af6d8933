import CodeFirst.Proofs.Registry.Records
import CodeFirst.Proofs.Startup.Step
import Mathlib.Data.List.DropRight

/-! The history of a startup: operations with what they gave back. The registry holds exactly what was
accepted since the last reset, name by name. -/
namespace CodeFirst
open Entry (Amendment)

namespace Startup

variable {σ α ρ : Type}

def isReset : Startup α ρ → Bool
  | .registration .reset => true
  | _ => false

theorem isReset_of_name? {operation : Startup α ρ} {name : String}
    (named : operation.name? = some name) : operation.isReset = false := by
  cases operation with
  | service => rfl
  | registration registration =>
      cases registration with
      | reset => cases named
      | _ => rfl

/-- An operation with what it gave back. -/
structure Event (α ρ : Type) where
  operation : Startup α ρ
  result : Except Fault Registered

/-- What was registered by an operation, with the name that it was about. -/
def Event.accepted? (event : Event α ρ) : Option (String × Registered) :=
  match event.operation.name?, event.result with
  | some name, .ok registered => some (name, registered)
  | _, _ => none

/-- A field comes back from its declaration only, under the declared owner, and so does an argument,
in the declared place. -/
inductive Answers : Startup α ρ → Registered → Prop
  | role {name isInput} : Answers (.registration (.role name isInput)) .nothing
  | field {kind declaration} {field : Field} : field.owner = declaration.owner →
      Answers (.registration (.field kind declaration)) (.field field)
  | argument {declaration} {argument : Argument} : argument.owner = declaration.owner →
      argument.method = declaration.method → argument.index = declaration.index →
      Answers (.registration (.argument declaration)) (.argument argument)
  | resolver {name resolver} : Answers (.registration (.resolver name resolver)) .nothing
  | lookup {name} : Answers (.registration (.lookup name)) .nothing
  | reset : Answers (.registration .reset) .nothing
  | service {service name resolver} : Answers (.service service name resolver) .nothing

theorem Step.Amends.answers {step : Step σ α ρ} {name : String} {amendment : Amendment ρ}
    (amends : step.Amends name amendment) : Answers step.operation amendment.registered := by
  cases amends with
  | role operation =>
      rw [operation]
      exact .role
  | field operation processed =>
      rw [operation]
      exact .field (FieldDeclaration.owner_of_process processed)
  | argument operation processed =>
      obtain ⟨owner, method, index⟩ := ArgumentDeclaration.place_of_process processed
      rw [operation]
      exact .argument owner method index
  | resolver operation =>
      rw [operation]
      exact .resolver
  | lookup operation =>
      rw [operation]
      exact .lookup
  | service operation _ =>
      rw [operation]
      exact .service

theorem Step.Amends.owned {step : Step σ α ρ} {name : String} {amendment : Amendment ρ}
    (amends : step.Amends name amendment) (argument : Argument)
    (added : amendment = .argument argument) : argument.owner = name := by
  cases amends with
  | argument =>
      cases added
      rfl
  | _ => cases added

/-- The events since the last reset. -/
def sinceReset (log : List (Event α ρ)) : List (Event α ρ) :=
  log.rtakeWhile (!·.operation.isReset)

/-- What was registered since the last reset, with the names, in order. -/
def accepted (log : List (Event α ρ)) : List (String × Registered) :=
  (sinceReset log).filterMap Event.accepted?

theorem accepted_reset (log : List (Event α ρ)) (result : Except Fault Registered) :
    accepted (log ++ [⟨.registration .reset, result⟩]) = [] := by
  rw [accepted, sinceReset, List.rtakeWhile_concat_neg]
  · rfl
  · exact Bool.false_ne_true

theorem accepted_concat (log : List (Event α ρ)) {event : Event α ρ} {name : String}
    (named : event.operation.name? = some name) :
    accepted (log ++ [event]) = accepted log ++ event.accepted?.toList := by
  have kept : (!event.operation.isReset) = true := by
    rw [isReset_of_name? named]
    rfl
  rw [accepted, sinceReset, List.rtakeWhile_concat, if_pos kept]
  exact filterMap_concat Event.accepted? (sinceReset log) event

theorem accepted_error (log : List (Event α ρ)) {operation : Startup α ρ} {name : String}
    (named : operation.name? = some name) (fault : Fault) :
    accepted (log ++ [⟨operation, .error fault⟩]) = accepted log := by
  rw [accepted_concat log named]
  simp only [Event.accepted?, named, Option.toList_none, List.append_nil]

theorem accepted_ok (log : List (Event α ρ)) {operation : Startup α ρ} {name : String}
    (named : operation.name? = some name) (registered : Registered) :
    accepted (log ++ [⟨operation, .ok registered⟩]) = accepted log ++ [(name, registered)] := by
  rw [accepted_concat log named]
  simp only [Event.accepted?, named, Option.toList_some]

/-- What was registered under a name. -/
def under (owner : String) (history : List (String × Registered)) : List Registered :=
  (history.filter (·.1 = owner)).map (·.2)

theorem under_concat (owner name : String) (history : List (String × Registered))
    (registered : Registered) :
    under owner (history ++ [(name, registered)]) =
      if owner = name then under owner history ++ [registered] else under owner history := by
  rw [under, List.filter_append, List.map_append]
  by_cases same : owner = name
  · subst same
    simp [under]
  · simp [under, same, Ne.symm same]

/-- The names of what was registered since the last reset, in the order in which they first came. -/
def touched (log : List (Event α ρ)) : List String :=
  ((accepted log).map (·.1)).eraseDups

end Startup

namespace Registry
open Startup (Step Event Answers accepted touched under)
open Entry (Records Arranged fieldsOf methodsOf argumentsOf)

variable {σ α ρ : Type} {registry : Registry ρ}

def event (registry : Registry ρ) (step : Step σ α ρ) : Event α ρ :=
  ⟨step.operation, (registry.takeStep step).2.result⟩

/-- What steps gave back, in order. -/
def journal (registry : Registry ρ) : List (Step σ α ρ) → List (Event α ρ)
  | [] => []
  | step :: rest => registry.event step :: journal (registry.takeStep step).1 rest

theorem answers_event (step : Step σ α ρ) {registered : Registered}
    (accepted : (registry.event step).result = .ok registered) :
    Answers step.operation registered := by
  have each := taken registry step
  unfold event at accepted
  generalize registry.takeStep step = done at accepted each
  cases each with
  | refused => cases accepted
  | reset operation =>
      cases accepted
      rw [operation]
      exact .reset
  | amended amends _ =>
      cases accepted
      exact amends.answers

theorem answers_journal (steps : List (Step σ α ρ)) {event : Event α ρ} {registered : Registered}
    (member : event ∈ registry.journal steps) (accepted : event.result = .ok registered) :
    Answers event.operation registered := by
  induction steps generalizing registry with
  | nil => cases member
  | cons step rest ih =>
      cases member with
      | head => exact answers_event step accepted
      | tail _ later => exact ih later

/-- A step about one name leaves the entries of all others as they were. -/
theorem get?_takeStep {step : Step σ α ρ} {owner other : String}
    (named : step.operation.name? = some owner) (differs : other ≠ owner) :
    (registry.takeStep step).1.get? other = registry.get? other := by
  have each := taken registry step
  generalize registry.takeStep step = done at each ⊢
  cases each with
  | refused => rfl
  | reset operation =>
      rw [operation] at named
      cases named
  | amended amends _ =>
      cases amends.name?.symm.trans named
      rw [get?_perform_amend, if_neg differs]

/-- The entries have the names of the history, each with what was registered under it. -/
structure Reflects (registry : Registry ρ) (history : List (String × Registered)) : Prop where
  names : registry.names = (history.map (·.1)).eraseDups
  records : ∀ owner, (registry.entryOrEmpty owner).Records owner (under owner history)

theorem reflects_empty : (Registry.empty : Registry ρ).Reflects [] where
  names := rfl
  records := Entry.records_empty

namespace Reflects

variable {history : List (String × Registered)} {log : List (Event α ρ)}

theorem perform_amend (reflects : registry.Reflects history) {name : String}
    {amendment : Amendment ρ}
    (owned : ∀ argument, amendment = .argument argument → argument.owner = name) :
    (registry.perform (.amend name amendment)).1.Reflects
      (history ++ [(name, amendment.registered)]) := by
  constructor
  case names =>
    rw [names_perform_amend, List.map_append, List.map_singleton, eraseDups_concat]
    simp only [reflects.names, List.mem_eraseDups]
  case records =>
    intro owner
    rw [entryOrEmpty_perform_amend, Startup.under_concat]
    split
    · rename_i same
      subst same
      exact (reflects.records owner).amended amendment owned
    · exact reflects.records owner

theorem takeStep (reflects : registry.Reflects (accepted log)) (step : Step σ α ρ) :
    (registry.takeStep step).1.Reflects (accepted (log ++ [registry.event step])) := by
  have each := taken registry step
  unfold event
  generalize registry.takeStep step = done at each ⊢
  cases each with
  | refused named =>
      rw [Startup.accepted_error log named]
      exact reflects
  | reset operation =>
      rw [operation, Startup.accepted_reset]
      exact reflects_empty
  | amended amends _ =>
      rw [Startup.accepted_ok log amends.name?]
      exact reflects.perform_amend amends.owned

/-- By induction on the steps, with the log of those before. -/
theorem takeSteps (steps : List (Step σ α ρ)) (reflects : registry.Reflects (accepted log)) :
    (registry.takeSteps steps).Reflects (accepted (log ++ registry.journal steps)) := by
  induction steps generalizing registry log with
  | nil =>
      rw [journal, List.append_nil]
      exact reflects
  | cons step rest ih =>
      have later := ih (reflects.takeStep step)
      rw [List.append_assoc] at later
      exact later

theorem entries_eq (reflects : registry.Reflects history) :
    registry.entries =
      (history.map (·.1)).eraseDups.map fun name => (name, registry.entryOrEmpty name) := by
  rw [← reflects.names]
  apply Keyed.eq_map_names
  · change registry.names.Nodup
    rw [reflects.names]
    exact nodup_eraseDups _
  · intro name entry found
    exact entryOrEmpty_of_get? found

end Reflects

theorem reflects_takeSteps (steps : List (Step σ α ρ)) :
    (Registry.empty.takeSteps steps).Reflects (accepted (Registry.empty.journal steps)) := by
  have start : (Registry.empty : Registry ρ).Reflects (accepted ([] : List (Event α ρ))) :=
    reflects_empty
  exact start.takeSteps steps

/-- What a registry holds after a log. -/
structure Refines (registry : Registry ρ) (log : List (Event α ρ)) : Prop where
  answered : ∀ event ∈ log, ∀ registered, event.result = .ok registered →
    Answers event.operation registered
  all : registry.entries = (touched log).map fun name => (name, registry.entryOrEmpty name)
  named : ∀ owner, (registry.entryOrEmpty owner).name = owner
  fields : ∀ owner,
    (registry.entryOrEmpty owner).fields = fieldsOf (under owner (accepted log))
  arguments : ∀ owner, (registry.entryOrEmpty owner).arguments =
    (methodsOf (under owner (accepted log))).map fun method =>
      (method, (registry.entryOrEmpty owner).slots method)
  undeclared : ∀ owner method, (registry.entryOrEmpty owner).arguments.lookup method = none ↔
    argumentsOf method (under owner (accepted log)) = []
  arranged : ∀ owner method slots,
    (registry.entryOrEmpty owner).arguments.lookup method = some slots →
      Arranged owner method (argumentsOf method (under owner (accepted log))) slots
  others : ∀ {σ : Type} (step : Step σ α ρ) (owner other : String),
    step.operation.name? = some owner → other ≠ owner →
      (registry.takeStep step).1.get? other = registry.get? other

theorem refines_journal (steps : List (Step σ α ρ)) :
    (Registry.empty.takeSteps steps).Refines (Registry.empty.journal steps) := by
  have reflects := reflects_takeSteps steps
  constructor
  case answered =>
    intro event member registered accepted
    exact answers_journal steps member accepted
  case all => exact reflects.entries_eq
  case named => exact fun owner => (reflects.records owner).named
  case fields => exact fun owner => (reflects.records owner).fields
  case arguments => exact fun owner => (reflects.records owner).arguments_eq
  case undeclared => exact fun owner => (reflects.records owner).lookup_eq_none
  case arranged => exact fun owner _ _ => (reflects.records owner).arranged
  case others => exact fun step _ _ => get?_takeStep

end Registry

end CodeFirst
