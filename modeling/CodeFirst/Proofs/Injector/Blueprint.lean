import CodeFirst.Proofs.Keyed
import CodeFirst.Recipe
import Mathlib.Data.Option.Basic
import Mathlib.Data.Set.Basic

/-! Factories with fixed needs. Such a factory asks for services in order, gives the first refusal
back, and else succeeds or fails by itself, so its outcome depends on its needs alone. -/
namespace CodeFirst

variable {σ α : Type}

/-- What is known of an outcome: this if there is a service, that if there is an error. -/
def Verdict (built : Prop) (refused : InjectionError → Prop) : Except InjectionError α → Prop
  | .ok _ => built
  | .error error => refused error

theorem Verdict.imp {built built' : Prop} {refused refused' : InjectionError → Prop}
    {result : Except InjectionError α} (verdict : Verdict built refused result)
    (success : built → built') (failure : ∀ error, refused error → refused' error) :
    Verdict built' refused' result := by
  cases result with
  | error error => exact failure error verdict
  | ok service => exact success verdict

/-- The services that a factory asks for, and the errors with which it fails by itself; there are
none if it succeeds. -/
structure Blueprint where
  needs : List String
  failures : Set InjectionError

namespace Factory

/-- A program that asks for no service, with an outcome of a kind whatever the state and the depth. -/
inductive Ends (outcome : Except InjectionError α → Prop) : Factory σ α → Prop
  | finish {build} : (∀ state, outcome (build state).1) → Ends outcome (.finish build)
  | measure {next} : (∀ depth, Ends outcome (next depth)) → Ends outcome (.measure next)

/-- A program that asks for all these services in order, gives the first refusal back as its own
outcome, and when it has all of them succeeds or fails by itself. -/
inductive Follows (failures : Set InjectionError) : List String → Factory σ α → Prop
  | finish {factory} : Ends (Verdict (failures = ∅) (· ∈ failures)) factory →
      Follows failures [] factory
  | request {service rest next} : (∀ built, Follows failures rest (next (.ok built))) →
      (∀ error, Ends (· = .error error) (next (.error error))) →
      Follows failures (service :: rest) (.request service next)
  | measure {needs next} : (∀ depth, Follows failures needs (next depth)) →
      Follows failures needs (.measure next)

variable {answer : String → σ → Except InjectionError α × σ}

theorem Ends.run {outcome : Except InjectionError α → Prop} {factory : Factory σ α}
    (ends : Ends outcome factory) (depth : Nat) (state : σ) :
    outcome (factory.run answer depth state).1 := by
  induction ends with
  | finish all => exact all state
  | measure _ ih => exact ih depth

/-- A factory builds if all its needs are built and it does not fail by itself; an error is that of a
need, or its own if all its needs are built. -/
theorem Follows.run {failures : Set InjectionError} {needs : List String} {factory : Factory σ α}
    {built : String → Prop} {refused : String → InjectionError → Prop}
    (follows : Follows failures needs factory)
    (answered : ∀ service ∈ needs, ∀ state,
      Verdict (built service) (refused service) (answer service state).1)
    (depth : Nat) (state : σ) :
    Verdict ((∀ service ∈ needs, built service) ∧ failures = ∅)
      (fun error => (∃ service ∈ needs, refused service error) ∨
        (∀ service ∈ needs, built service) ∧ error ∈ failures)
      (factory.run answer depth state).1 := by
  induction follows generalizing state with
  | finish ends =>
      refine (ends.run depth state).imp (fun none => ⟨by simp, none⟩) fun error own => ?_
      exact Or.inr ⟨by simp, own⟩
  | @request service rest next _ refusals ih =>
      obtain ⟨first, later⟩ := List.forall_mem_cons.mp answered
      rw [Factory.run]
      have verdict := first state
      rcases asked : answer service state with ⟨result, after⟩
      rw [asked] at verdict
      cases result with
      | error error =>
          rw [(refusals error).run depth after]
          exact Or.inl ⟨service, List.mem_cons_self, verdict⟩
      | ok part =>
          refine (ih part later after).imp ?_ ?_
          · rintro ⟨others, none⟩
            exact ⟨List.forall_mem_cons.mpr ⟨verdict, others⟩, none⟩
          · rintro error (⟨other, among, refusal⟩ | ⟨others, own⟩)
            · exact Or.inl ⟨other, List.mem_cons_of_mem _ among, refusal⟩
            · exact Or.inr ⟨List.forall_mem_cons.mpr ⟨verdict, others⟩, own⟩
  | measure _ ih => exact ih depth answered state

end Factory

namespace Recipe

/-- A recipe whose dependencies are all required. -/
def Required (recipe : Recipe) : Prop :=
  ∀ dependency ∈ recipe.dependencies, dependency.isOptional = false

instance (recipe : Recipe) : Decidable recipe.Required :=
  inferInstanceAs (Decidable (∀ dependency ∈ recipe.dependencies, dependency.isOptional = false))

def blueprint (recipe : Recipe) : Blueprint where
  needs := recipe.dependencies.map (·.service)
  failures := {error | ∃ reason, recipe.failure = some reason ∧ error = .failed recipe.label reason}

theorem follows_request {failures : Set InjectionError} {next : List Account → Factory Nat Service}
    (ends : ∀ accounts, (next accounts).Follows failures []) (accounts : List Account)
    {dependencies : List Dependency}
    (required : ∀ dependency ∈ dependencies, dependency.isOptional = false) :
    (request next accounts dependencies).Follows failures (dependencies.map (·.service)) := by
  induction dependencies generalizing accounts with
  | nil => exact ends accounts
  | cons dependency rest ih =>
      obtain ⟨first, later⟩ := List.forall_mem_cons.mp required
      refine .request (fun built => ih _ later) fun error => ?_
      simp only [first, Bool.false_eq_true, if_false]
      exact .finish fun _ => rfl

/-- The factory of a recipe without optional dependencies has fixed needs. -/
theorem Required.follows {recipe : Recipe} (required : recipe.Required) :
    recipe.factory.Follows recipe.blueprint.failures recipe.blueprint.needs := by
  refine .measure fun depth => follows_request (fun parts => ?_) [] required
  refine .finish (.measure fun depthAfter => .finish fun built => ?_)
  cases failing : recipe.failure with
  | none =>
      change {error | ∃ reason, recipe.failure = some reason ∧ _} = (∅ : Set InjectionError)
      simp [failing]
  | some reason => exact ⟨reason, failing, rfl⟩

end Recipe

end CodeFirst
