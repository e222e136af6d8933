import CodeFirst.Proofs.Compilation.Acceptance
import CodeFirst.Proofs.Compilation.Culprits
import CodeFirst.Proofs.Schema.Build
import CodeFirst.Proofs.Startup.History
import Mathlib.Data.List.Duplicate

/-! When builds come to an end. A field is registered whatever fields its type has, but a type takes no
second field of one name when it is compiled: the build stops there, with no error to give back. -/
namespace CodeFirst
open Outcome

theorem duplicate_append_cons {name : String} {before : List String} (after : List String)
    (earlier : name ∈ before) : List.Duplicate name (before ++ name :: after) := by
  have both : List.Sublist ([name] ++ [name]) (before ++ name :: after) := by
    apply List.Sublist.append
    · exact List.singleton_sublist.mpr earlier
    · exact List.singleton_sublist.mpr List.mem_cons_self
  exact List.duplicate_iff_sublist.mpr both

namespace Compilation

variable {ρ α : Type} {registry : Registry ρ} {config : Config} {resolvers : List String}
  {name type : String}

/-- A run that gives a result or an error, and does not stop at a second field of one name. -/
def Completes (outcome : Except BuildError α) : Prop :=
  ∀ name, outcome ≠ .error (.repeatedField name)

/-- Whatever stops the compilation of types is a field after one of its name. -/
theorem TypeCulprit.duplicate {usage : Usage α} {names : List String}
    (culprit : TypeCulprit usage registry names (.repeatedField name)) :
    ∃ type entry, Reached registry names type ∧ registry.get? type = some entry ∧
      List.Duplicate name (entry.fields.map (·.name)) := by
  cases culprit with
  | @repeated type entry before field after reached found split earlier =>
      refine ⟨type, entry, reached, found, ?_⟩
      rw [← split, List.map_append, List.map_cons]
      exact duplicate_append_cons _ earlier

theorem Culprit.duplicate (culprit : Culprit registry config resolvers (.repeatedField name)) :
    ∃ type entry, Referred registry resolvers type ∧ registry.get? type = some entry ∧
      List.Duplicate name (entry.fields.map (·.name)) := by
  cases culprit with
  | output culprit =>
      obtain ⟨type, entry, reached, repeated⟩ := culprit.duplicate
      exact ⟨type, entry, Or.inl reached, repeated⟩
  | input culprit =>
      obtain ⟨type, entry, reached, repeated⟩ := culprit.duplicate
      exact ⟨type, entry, Or.inr reached, repeated⟩
  | operation _ _ _ culprit => cases culprit

/-- The checks of the schema as a whole stop no build, so it stops at a type. -/
theorem duplicate_of_build
    (stops : Schema.build registry config resolvers = .error (.repeatedField name)) :
    ∃ type entry, Referred registry resolvers type ∧ registry.get? type = some entry ∧
      List.Duplicate name (entry.fields.map (·.name)) := by
  rcases Schema.build_eq_error.mp stops with failed | ⟨_, _, _, _, rejected⟩
  · exact (failsBy_compile config resolvers _ failed).duplicate
  · cases rejected

/-- No type that compiles has two fields of one name. -/
theorem WellFormed.distinct (wellFormed : WellFormed registry config resolvers)
    (referred : Referred registry resolvers type) :
    ∃ entry, registry.get? type = some entry ∧ (entry.fields.map (·.name)).Nodup := by
  rcases referred with output | input
  · obtain ⟨entry, found, usable⟩ := wellFormed.outputs type output
    exact ⟨entry, found, usable.distinct⟩
  · obtain ⟨entry, found, usable⟩ := wellFormed.inputs type input
    exact ⟨entry, found, usable.distinct⟩

theorem culprit_of_duplicate {entry : Entry ρ} (config : Config)
    (referred : Referred registry resolvers type) (found : registry.get? type = some entry)
    (duplicate : List.Duplicate name (entry.fields.map (·.name))) :
    ∃ error, Schema.build registry config resolvers = .error error ∧
      Culprit registry config resolvers error := by
  cases run : compile registry config resolvers with
  | error error =>
      have failed := Schema.build_eq_error.mpr (Or.inl run)
      exact ⟨error, failed, failsBy_compile config resolvers error run⟩
  | ok compiled =>
      obtain ⟨other, same, distinct⟩ := (compile_eq_ok.mp run).wellFormed.distinct referred
      cases found.symm.trans same
      exact absurd distinct duplicate.not_nodup

end Compilation

namespace Registry
open Compilation
open Startup (Step Event accepted under)
open Entry (fieldsOf)

variable {σ α ρ : Type}

/-- Two fields of one name were registered under a type since the last reset. -/
def Doubled (log : List (Event α ρ)) (type name : String) : Prop :=
  List.Duplicate name ((fieldsOf (under type (accepted log))).map (·.name))

theorem doubled_iff (steps : List (Step σ α ρ)) (type name : String) :
    Doubled (Registry.empty.journal steps) type name ↔
      ∃ entry, (Registry.empty.takeSteps steps).get? type = some entry ∧
        List.Duplicate name (entry.fields.map (·.name)) := by
  rw [Doubled, ← ((reflects_takeSteps steps).records type).fields]
  cases found : (Registry.empty.takeSteps steps).get? type with
  | none =>
      rw [entryOrEmpty_of_absent found]
      constructor
      · exact fun duplicate => absurd duplicate (List.not_duplicate_nil name)
      · intro ⟨entry, same, _⟩
        cases same
  | some entry =>
      rw [entryOrEmpty_of_get? found]
      constructor
      · exact fun duplicate => ⟨entry, rfl, duplicate⟩
      · intro ⟨other, same, duplicate⟩
        cases same
        exact duplicate

/-- How builds of a registry end after a log. One that stops does so at a name that two fields of a
type have, of those that it compiles. While there is such a type no build gives a schema, and one
stops that nothing else stands against. The roots have each name once and stop none. -/
structure Completion (registry : Registry ρ) (log : List (Event α ρ)) (config : Config)
    (resolvers : List String) : Prop where
  completes : (∀ type, Referred registry resolvers type → ∀ name, ¬ Doubled log type name) →
    Completes (Schema.build registry config resolvers)
  stopped : ∀ name, Schema.build registry config resolvers = .error (.repeatedField name) →
    ∃ type, Referred registry resolvers type ∧ Doubled log type name
  refused : ∀ type name, Referred registry resolvers type → Doubled log type name →
    ∃ error, Schema.build registry config resolvers = .error error ∧
      Culprit registry config resolvers error
  stops : ∀ type name, Referred registry resolvers type → Doubled log type name →
    (∀ error, Culprit registry config resolvers error → ∃ field, error = .repeatedField field) →
      ¬ Completes (Schema.build registry config resolvers)
  roots : ∀ compiled, compile registry config resolvers = .ok compiled →
    (Keyed.names compiled.roots.queries).Nodup ∧ (Keyed.names compiled.roots.mutations).Nodup

theorem completion_takeSteps (steps : List (Step σ α ρ)) (config : Config)
    (resolvers : List String) :
    (Registry.empty.takeSteps steps).Completion (Registry.empty.journal steps) config
      resolvers := by
  have doubled := doubled_iff steps
  generalize Registry.empty.takeSteps steps = registry at doubled ⊢
  generalize Registry.empty.journal steps = log at doubled ⊢
  have stopped : ∀ name, Schema.build registry config resolvers = .error (.repeatedField name) →
      ∃ type, Referred registry resolvers type ∧ Doubled log type name := by
    intro name stops
    obtain ⟨type, entry, referred, found, duplicate⟩ := duplicate_of_build stops
    exact ⟨type, referred, (doubled type name).mpr ⟨entry, found, duplicate⟩⟩
  have refused : ∀ type name, Referred registry resolvers type → Doubled log type name →
      ∃ error, Schema.build registry config resolvers = .error error ∧
        Culprit registry config resolvers error := by
    intro type name referred twice
    obtain ⟨entry, found, duplicate⟩ := (doubled type name).mp twice
    exact culprit_of_duplicate config referred found duplicate
  constructor
  case completes =>
    intro distinct name stops
    obtain ⟨type, referred, twice⟩ := stopped name stops
    exact distinct type referred name twice
  case stopped => exact stopped
  case refused => exact refused
  case stops =>
    intro type name referred twice only completes
    obtain ⟨error, run, culprit⟩ := refused type name referred twice
    obtain ⟨field, rfl⟩ := only error culprit
    exact completes field run
  case roots =>
    intro compiled run
    have success := compile_eq_ok.mp run
    exact ⟨success.queries.nodup, success.mutations.nodup⟩

/-- A type with two fields of one name, each of which was registered. -/
def twins : List (Registration Unit) :=
  [.role "T" false,
    .field .plain (methodField "T" "f" "String"),
    .field .plain (methodField "T" "f" "Int"),
    .field .query (methodField "R" "q" "T"),
    .resolver "R" ()]

theorem stopped_twins :
    (∀ event ∈ Registry.empty.journal (twins.map Step.bare), event.result.isOk = true) ∧
      ¬ Completes (Schema.build (Registry.empty.takeSteps (twins.map Step.bare)) {} ["R"]) := by
  have stops : (Schema.build (Registry.empty.takeSteps (twins.map Step.bare)) {} ["R"]).map
      (fun _ => ()) = .error (.repeatedField "f") := by
    decide +kernel
  refine ⟨by decide +kernel, ?_⟩
  intro completes
  exact completes "f" (map_eq_error.mp stops)

end Registry

end CodeFirst
