import CodeFirst.Proofs.Keyed
import CodeFirst.Registration

/-! Operations on a registry. Each concerns the entry of one name, which is created if need be. A new
entry refuses nothing, so an operation that is refused leaves the registry as it was. -/
namespace CodeFirst

namespace Entry

/-- What can be done with an entry that was looked up. -/
inductive Amendment (ρ : Type) where
  | nothing
  | field (field : Field)
  | argument (argument : Argument)
  | role (isInput : Bool)
  | resolver (resolver : ρ)

variable {ρ : Type}

/-- What is given back for an amendment. -/
def Amendment.registered : Amendment ρ → Registered
  | .nothing => .nothing
  | .field added => .field added
  | .argument added => .argument added
  | .role _ => .nothing
  | .resolver _ => .nothing

def amend (entry : Entry ρ) : Amendment ρ → Except DeclarationError (Entry ρ)
  | .nothing => .ok entry
  | .field field => .ok (entry.addField field)
  | .argument argument => .ok (entry.addArgument argument)
  | .role isInput => entry.setRole isInput
  | .resolver resolver => entry.bindResolver resolver

/-- The entry after an amendment, as it was if it refuses. -/
def amended (entry : Entry ρ) (amendment : Amendment ρ) : Entry ρ :=
  match entry.amend amendment with
  | .ok changed => changed
  | .error _ => entry

theorem amended_of_ok {entry changed : Entry ρ} {amendment : Amendment ρ}
    (accepted : entry.amend amendment = .ok changed) : entry.amended amendment = changed := by
  unfold amended
  rw [accepted]

theorem amended_of_error {entry : Entry ρ} {amendment : Amendment ρ} {error : DeclarationError}
    (refused : entry.amend amendment = .error error) : entry.amended amendment = entry := by
  unfold amended
  rw [refused]

theorem exists_amend_empty (name : String) (amendment : Amendment ρ) :
    ∃ changed, (Entry.empty name).amend amendment = .ok changed := by
  cases amendment with
  | nothing => exact ⟨_, rfl⟩
  | field field => exact ⟨_, rfl⟩
  | argument argument => exact ⟨_, rfl⟩
  | role isInput => exact ⟨_, rfl⟩
  | resolver resolver => exact ⟨_, rfl⟩

theorem setRole_eq_ok {entry changed : Entry ρ} {isInput : Bool} :
    entry.setRole isInput = .ok changed ↔ entry.role = none ∧ entry.resolver = none ∧
      { entry with role := some ⟨entry.name, isInput⟩ } = changed := by
  unfold setRole
  cases entry.resolver with
  | some bound => simp
  | none => cases entry.role <;> simp

theorem bindResolver_eq_ok {entry changed : Entry ρ} {resolver : ρ} :
    entry.bindResolver resolver = .ok changed ↔ entry.role = none ∧ entry.resolver = none ∧
      { entry with resolver := some resolver } = changed := by
  unfold bindResolver
  cases entry.role with
  | some role => simp
  | none => cases entry.resolver <;> simp

theorem registered_of_error {entry : Entry ρ} {amendment : Amendment ρ} {error : DeclarationError}
    (refused : entry.amend amendment = .error error) : amendment.registered = .nothing := by
  cases amendment with
  | nothing => rfl
  | field field => cases refused
  | argument argument => cases refused
  | role isInput => rfl
  | resolver resolver => rfl

/-- All that an amendment can make of an entry: it takes a field or an argument, or else stays, or
takes, while it has neither role nor resolver, one of these. -/
theorem amended_cases (holds : Entry ρ → Prop) {entry : Entry ρ} (amendment : Amendment ρ)
    (same : amendment.registered = .nothing → holds entry)
    (field : ∀ field, amendment = .field field → holds (entry.addField field))
    (argument : ∀ argument, amendment = .argument argument → holds (entry.addArgument argument))
    (role : ∀ isInput, amendment = .role isInput → entry.role = none → entry.resolver = none →
      holds { entry with role := some ⟨entry.name, isInput⟩ })
    (resolver : ∀ resolver, amendment = .resolver resolver → entry.role = none →
      entry.resolver = none → holds { entry with resolver := some resolver }) :
    holds (entry.amended amendment) := by
  cases outcome : entry.amend amendment with
  | error error =>
      rw [amended_of_error outcome]
      exact same (registered_of_error outcome)
  | ok changed =>
      rw [amended_of_ok outcome]
      cases amendment with
      | nothing =>
          cases outcome
          exact same rfl
      | field added =>
          cases outcome
          exact field added rfl
      | argument added =>
          cases outcome
          exact argument added rfl
      | role isInput =>
          obtain ⟨untyped, unbound, rfl⟩ := setRole_eq_ok.mp outcome
          exact role isInput rfl untyped unbound
      | resolver bound =>
          obtain ⟨untyped, unbound, rfl⟩ := bindResolver_eq_ok.mp outcome
          exact resolver bound rfl untyped unbound

end Entry

namespace Registry
open Entry (Amendment)

/-- An operation on a registry: a name is looked up and its entry amended, or all entries are
dropped. -/
inductive Operation (ρ : Type) where
  | amend (name : String) (amendment : Amendment ρ)
  | reset

variable {ρ : Type} {registry : Registry ρ} {name : String} {entry : Entry ρ}

def perform (registry : Registry ρ) : Operation ρ → Registry ρ × Except DeclarationError Unit
  | .amend name amendment => registry.amend name (·.amend amendment)
  | .reset => (.empty, .ok ())

/-- The registry after operations, one after the other, accepted or not. -/
def performAll (registry : Registry ρ) : List (Operation ρ) → Registry ρ
  | [] => registry
  | operation :: rest => performAll (registry.perform operation).1 rest

section Named

theorem perform_lookup (registry : Registry ρ) (name : String) :
    registry.perform (.amend name .nothing) = (registry.lookup name, .ok ()) := rfl

theorem perform_field (registry : Registry ρ) (field : Field) :
    registry.perform (.amend field.owner (.field field)) = (registry.addField field, .ok ()) := rfl

theorem perform_argument (registry : Registry ρ) (argument : Argument) :
    registry.perform (.amend argument.owner (.argument argument)) =
      (registry.addArgument argument, .ok ()) := rfl

theorem perform_role (registry : Registry ρ) (name : String) (isInput : Bool) :
    registry.perform (.amend name (.role isInput)) = registry.declareType name isInput := rfl

theorem perform_resolver (registry : Registry ρ) (name : String) (resolver : ρ) :
    registry.perform (.amend name (.resolver resolver)) = registry.bindResolver name resolver := rfl

end Named

theorem entryOrEmpty_of_get? (found : registry.get? name = some entry) :
    registry.entryOrEmpty name = entry := by
  unfold entryOrEmpty
  rw [found]
  rfl

theorem entryOrEmpty_of_absent (absent : registry.get? name = none) :
    registry.entryOrEmpty name = .empty name := by
  unfold entryOrEmpty
  rw [absent]
  rfl

theorem get?_setEntry (registry : Registry ρ) (name other : String) (entry : Entry ρ) :
    (registry.setEntry name entry).get? other =
      if other = name then some entry else registry.get? other :=
  Keyed.lookup_put name other entry registry.entries

theorem entryOrEmpty_setEntry (registry : Registry ρ) (name other : String) (entry : Entry ρ) :
    (registry.setEntry name entry).entryOrEmpty other =
      if other = name then entry else registry.entryOrEmpty other := by
  unfold entryOrEmpty
  rw [get?_setEntry]
  split <;> rfl

theorem setEntry_of_get? (found : registry.get? name = some entry) :
    registry.setEntry name entry = registry :=
  congrArg Registry.mk (Keyed.put_of_lookup found)

theorem perform_amend (registry : Registry ρ) (name : String) (amendment : Amendment ρ) :
    (registry.perform (.amend name amendment)).1 =
      registry.setEntry name ((registry.entryOrEmpty name).amended amendment) := by
  simp only [perform, amend, Entry.amended]
  cases (registry.entryOrEmpty name).amend amendment with
  | ok changed => rfl
  | error error => rfl

theorem perform_amend_result (registry : Registry ρ) (name : String) (amendment : Amendment ρ) :
    (registry.perform (.amend name amendment)).2 =
      ((registry.entryOrEmpty name).amend amendment).map fun _ => () := by
  simp only [perform, amend]
  cases (registry.entryOrEmpty name).amend amendment with
  | ok changed => rfl
  | error error => rfl

/-- An operation changes no entry but that of its name. -/
theorem get?_perform_amend (registry : Registry ρ) (name other : String)
    (amendment : Amendment ρ) :
    (registry.perform (.amend name amendment)).1.get? other =
      if other = name then some ((registry.entryOrEmpty name).amended amendment)
      else registry.get? other := by
  rw [perform_amend, get?_setEntry]

theorem entryOrEmpty_perform_amend (registry : Registry ρ) (name other : String)
    (amendment : Amendment ρ) :
    (registry.perform (.amend name amendment)).1.entryOrEmpty other =
      if other = name then (registry.entryOrEmpty name).amended amendment
      else registry.entryOrEmpty other := by
  rw [perform_amend, entryOrEmpty_setEntry]

/-- Entries stand in the order in which their names first came. -/
theorem names_perform_amend (registry : Registry ρ) (name : String) (amendment : Amendment ρ) :
    (registry.perform (.amend name amendment)).1.names =
      if name ∈ registry.names then registry.names else registry.names ++ [name] := by
  rw [perform_amend]
  exact Keyed.names_put name _ registry.entries

/-- An operation that is refused leaves the registry as it was: an entry that refuses was there
before, since a new one refuses nothing. -/
theorem perform_of_error {operation : Operation ρ} {error : DeclarationError}
    (refused : (registry.perform operation).2 = .error error) :
    (registry.perform operation).1 = registry := by
  cases operation with
  | reset => cases refused
  | amend name amendment =>
      rw [perform_amend_result] at refused
      cases found : registry.get? name with
      | none =>
          obtain ⟨changed, accepted⟩ := Entry.exists_amend_empty name amendment
          rw [entryOrEmpty_of_absent found, accepted] at refused
          cases refused
      | some entry =>
          rw [entryOrEmpty_of_get? found] at refused
          rw [perform_amend, entryOrEmpty_of_get? found]
          cases changed : entry.amend amendment with
          | ok changed =>
              rw [changed] at refused
              cases refused
          | error error =>
              rw [Entry.amended_of_error changed]
              exact setEntry_of_get? found

/-- All entries have a property of the name that they stand under. -/
def Everywhere (holds : String → Entry ρ → Prop) (registry : Registry ρ) : Prop :=
  ∀ name entry, (name, entry) ∈ registry.entries → holds name entry

section Everywhere

variable {holds : String → Entry ρ → Prop}

theorem everywhere_empty : Registry.empty.Everywhere holds := by
  intro name entry member
  cases member

theorem Everywhere.entryOrEmpty (everywhere : registry.Everywhere holds)
    (new : ∀ name, holds name (.empty name)) (name : String) :
    holds name (registry.entryOrEmpty name) := by
  cases found : registry.get? name with
  | none =>
      rw [entryOrEmpty_of_absent found]
      exact new name
  | some entry =>
      rw [entryOrEmpty_of_get? found]
      exact everywhere name entry (Keyed.mem_of_lookup found)

/-- A property that new entries have and an amendment keeps is had everywhere after it. -/
theorem Everywhere.perform_amend {amendment : Amendment ρ} (everywhere : registry.Everywhere holds)
    (new : ∀ name, holds name (.empty name))
    (kept : ∀ entry, holds name entry → holds name (entry.amended amendment)) :
    (registry.perform (.amend name amendment)).1.Everywhere holds := by
  rw [Registry.perform_amend]
  intro other entry member
  rcases Keyed.mem_put member with same | before
  · cases same
    exact kept _ (everywhere.entryOrEmpty new name)
  · exact everywhere other entry before

/-- What new entries have and every amendment keeps is had everywhere after any operations. -/
theorem Everywhere.performAll (operations : List (Operation ρ))
    (everywhere : registry.Everywhere holds) (new : ∀ name, holds name (.empty name))
    (kept : ∀ name entry amendment, holds name entry → holds name (entry.amended amendment)) :
    (registry.performAll operations).Everywhere holds := by
  induction operations generalizing registry with
  | nil => exact everywhere
  | cons operation rest ih =>
      cases operation with
      | reset => exact ih everywhere_empty
      | amend name amendment =>
          exact ih (everywhere.perform_amend new fun entry => kept name entry amendment)

end Everywhere

end Registry

end CodeFirst
