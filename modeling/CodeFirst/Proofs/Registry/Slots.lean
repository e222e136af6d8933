import CodeFirst.Proofs.Registry.Operations
import Mathlib.Data.List.Induction
import Mathlib.Order.MinMax

/-! Argument slots. In whatever order the arguments of a method are declared, a slot holds the one
that came last at its index, and the slots end at the largest index. -/
namespace CodeFirst

namespace Entry

theorem length_fillSlot (slots : List (Option Argument)) (index : Nat) (argument : Argument) :
    (fillSlot slots index argument).length = max slots.length (index + 1) := by
  simp only [fillSlot, List.length_set, List.length_append, List.length_replicate]
  omega

theorem getElem?_padded (slots : List (Option Argument)) (count other : Nat) :
    (slots ++ List.replicate count none)[other]?.join = slots[other]?.join := by
  rcases Nat.lt_or_ge other slots.length with inside | beyond
  · rw [List.getElem?_append_left inside]
  · rw [List.getElem?_append_right beyond, List.getElem?_eq_none beyond, List.getElem?_replicate]
    split <;> rfl

/-- Filling a slot leaves every other as it was, empty where there was none. -/
theorem getElem?_fillSlot (slots : List (Option Argument)) (index other : Nat)
    (argument : Argument) :
    (fillSlot slots index argument)[other]?.join =
      if other = index then some argument else slots[other]?.join := by
  unfold fillSlot
  rw [List.getElem?_set]
  by_cases same : index = other
  · subst same
    have inside : index < (slots ++ List.replicate (index + 1 - slots.length) none).length := by
      rw [List.length_append, List.length_replicate]
      omega
    rw [if_pos rfl, if_pos inside, if_pos rfl]
    rfl
  · rw [if_neg same, if_neg (Ne.symm same)]
    exact getElem?_padded _ _ _

/-- Slots filled with arguments one after the other. -/
def filled (declared : List Argument) : List (Option Argument) :=
  declared.foldl (fun slots argument => fillSlot slots argument.index argument) []

theorem filled_concat (declared : List Argument) (argument : Argument) :
    filled (declared ++ [argument]) = fillSlot (filled declared) argument.index argument := by
  rw [filled, List.foldl_append]
  rfl

/-- The argument that was declared last at an index. -/
def latest (declared : List Argument) (index : Nat) : Option Argument :=
  declared.reverse.find? (·.index = index)

theorem latest_concat (declared : List Argument) (argument : Argument) (index : Nat) :
    latest (declared ++ [argument]) index =
      if index = argument.index then some argument else latest declared index := by
  unfold latest
  rw [List.reverse_concat, List.find?_cons]
  by_cases same : index = argument.index
  · simp [same]
  · simp [same, Ne.symm same]

/-- One more than the largest index, or nothing. -/
def extent (declared : List Argument) : Nat :=
  match (declared.map (·.index)).max? with
  | some largest => 1 + largest
  | none => 0

theorem lt_extent {declared : List Argument} {index : Nat} :
    index < extent declared ↔ ∃ argument ∈ declared, index ≤ argument.index := by
  unfold extent
  cases largest : (declared.map (·.index)).max? with
  | none =>
      rw [List.max?_eq_none_iff, List.map_eq_nil_iff] at largest
      simp [largest]
  | some top =>
      obtain ⟨member, bound⟩ := List.max?_eq_some_iff.mp largest
      obtain ⟨argument, among, rfl⟩ := List.mem_map.mp member
      change index < 1 + argument.index ↔ _
      constructor
      · intro below
        exact ⟨argument, among, by omega⟩
      · rintro ⟨other, declared, below⟩
        have := bound _ (List.mem_map.mpr ⟨other, declared, rfl⟩)
        omega

theorem extent_concat (declared : List Argument) (argument : Argument) :
    extent (declared ++ [argument]) = max (extent declared) (argument.index + 1) := by
  refine eq_of_forall_lt_iff fun index => ?_
  rw [lt_max_iff, lt_extent, lt_extent, Nat.lt_succ_iff]
  simp only [List.mem_append, List.mem_singleton, or_and_right, exists_or, exists_eq_left]

theorem length_filled (declared : List Argument) : (filled declared).length = extent declared := by
  induction declared using List.reverseRecOn with
  | nil => rfl
  | append_singleton declared argument ih =>
      rw [filled_concat, length_fillSlot, extent_concat, ih]

theorem getElem?_filled (declared : List Argument) (index : Nat) :
    (filled declared)[index]?.join = latest declared index := by
  induction declared using List.reverseRecOn with
  | nil => rfl
  | append_singleton declared argument ih =>
      rw [filled_concat, getElem?_fillSlot, latest_concat, ih]

theorem filled_eq (declared : List Argument) :
    filled declared = (List.range (extent declared)).map (latest declared) := by
  apply List.ext_getElem?
  intro index
  have kept := getElem?_filled declared index
  rw [List.getElem?_map]
  by_cases inside : index < extent declared
  · rw [← length_filled] at inside
    rw [List.getElem?_eq_getElem inside] at kept ⊢
    rw [length_filled] at inside
    rw [List.getElem?_range inside, Option.map_some, ← kept]
    rfl
  · have beyond : (filled declared).length ≤ index := by
      rw [length_filled]
      exact Nat.le_of_not_lt inside
    rw [List.getElem?_eq_none beyond, List.getElem?_eq_none (by simpa using Nat.le_of_not_lt inside)]
    rfl

section Frame

variable {ρ : Type} {entry changed : Entry ρ}

theorem slots_addArgument (entry : Entry ρ) (argument : Argument) (method : String) :
    (entry.addArgument argument).slots method =
      if method = argument.method then fillSlot (entry.slots method) argument.index argument
      else entry.slots method := by
  unfold addArgument slots
  rw [Keyed.lookup_put]
  by_cases same : method = argument.method
  · subst same
    rw [if_pos rfl, if_pos rfl]
    rfl
  · rw [if_neg same, if_neg same]

theorem arguments_of_setRole {isInput : Bool} (done : entry.setRole isInput = .ok changed) :
    changed.arguments = entry.arguments := by
  obtain ⟨-, -, rfl⟩ := setRole_eq_ok.mp done
  rfl

theorem arguments_of_bindResolver {resolver : ρ} (done : entry.bindResolver resolver = .ok changed) :
    changed.arguments = entry.arguments := by
  obtain ⟨-, -, rfl⟩ := bindResolver_eq_ok.mp done
  rfl

end Frame

end Entry

namespace Registry
open Entry (filled)

variable {ρ : Type} {introspect : Introspector} {registry : Registry ρ} {owner method name : String}
  {entry : Entry ρ}

/-- The argument slots of a method of an owner; none, if there is no such owner. -/
def slots (registry : Registry ρ) (owner method : String) : List (Option Argument) :=
  (registry.entryOrEmpty owner).slots method

theorem slots_of_get? (found : registry.get? owner = some entry) :
    registry.slots owner method = entry.slots method := by
  rw [slots, entryOrEmpty_of_get? found]

theorem slots_setEntry (kept : entry.arguments = (registry.entryOrEmpty name).arguments) :
    (registry.setEntry name entry).slots owner method = registry.slots owner method := by
  unfold slots
  rw [entryOrEmpty_setEntry]
  split
  · rename_i same
    subst same
    unfold Entry.slots
    rw [kept]
  · rfl

theorem slots_amend {change : Entry ρ → Except DeclarationError (Entry ρ)}
    (kept : ∀ entry changed, change entry = .ok changed → changed.arguments = entry.arguments) :
    (registry.amend name change).1.slots owner method = registry.slots owner method := by
  unfold amend
  split
  · rename_i changed done
    exact slots_setEntry (kept _ changed done)
  · exact slots_setEntry rfl

theorem slots_addArgument (registry : Registry ρ) (argument : Argument) (owner method : String) :
    (registry.addArgument argument).slots owner method =
      if owner = argument.owner ∧ method = argument.method then
        Entry.fillSlot (registry.slots owner method) argument.index argument
      else registry.slots owner method := by
  unfold addArgument slots
  rw [entryOrEmpty_setEntry]
  by_cases same : owner = argument.owner
  · subst same
    rw [if_pos rfl, Entry.slots_addArgument]
    simp only [true_and]
  · rw [if_neg same, if_neg fun both => same both.1]

/-- What a registration makes of the arguments that were declared for a method: an accepted one
comes last, and a reset drops all. -/
def noteArgument (introspect : Introspector) (owner method : String) (declared : List Argument) :
    Registration ρ → List Argument
  | .argument declaration =>
    match declaration.process introspect with
    | .ok argument =>
      if owner = argument.owner ∧ method = argument.method then declared ++ [argument] else declared
    | .error _ => declared
  | .reset => []
  | .role _ _ => declared
  | .field _ _ => declared
  | .resolver _ _ => declared
  | .lookup _ => declared

/-- The arguments of a method that are declared after a history, in order of declaration. -/
def declaredArguments (introspect : Introspector) (owner method : String)
    (history : List (Registration ρ)) : List Argument :=
  history.foldl (noteArgument introspect owner method) []

theorem slots_register (registration : Registration ρ) {declared : List Argument}
    (kept : registry.slots owner method = filled declared) :
    (registry.register introspect registration).1.slots owner method =
      filled (noteArgument introspect owner method declared registration) := by
  cases registration with
  | role name isInput =>
      refine Eq.trans ?_ kept
      exact slots_amend fun _ _ => Entry.arguments_of_setRole
  | field kind declaration =>
      refine Eq.trans ?_ kept
      simp only [register, declareField, keepAccepted]
      cases declaration.process introspect kind with
      | error => rfl
      | ok field => exact slots_setEntry rfl
  | argument declaration =>
      simp only [register, declareArgument, keepAccepted, noteArgument]
      cases declaration.process introspect with
      | error => exact kept
      | ok argument =>
          simp only
          rw [slots_addArgument, kept]
          split
          · rw [Entry.filled_concat]
          · rfl
  | resolver name resolver =>
      refine Eq.trans ?_ kept
      exact slots_amend fun _ _ => Entry.arguments_of_bindResolver
  | lookup name =>
      refine Eq.trans ?_ kept
      exact slots_setEntry rfl
  | reset => rfl

theorem slots_replay {declared : List Argument} (history : List (Registration ρ))
    (kept : registry.slots owner method = filled declared) :
    (registry.replay introspect history).slots owner method =
      filled (history.foldl (noteArgument introspect owner method) declared) := by
  induction history generalizing registry declared with
  | nil => exact kept
  | cons registration rest ih => exact ih (slots_register registration kept)

/-- After a history, slots hold the arguments of their own owner and method, and of these the last
at each index. -/
theorem slots_replay_empty (history : List (Registration ρ)) :
    (Registry.empty.replay introspect history).slots owner method =
      filled (declaredArguments introspect owner method history) :=
  slots_replay history rfl

end Registry

end CodeFirst
