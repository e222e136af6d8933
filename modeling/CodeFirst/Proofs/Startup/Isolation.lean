import CodeFirst.Proofs.Compilation.Agreement
import CodeFirst.Proofs.Compilation.Stitching
import CodeFirst.Proofs.Startup.History

/-! Names are registered apart from each other. What comes of the steps about a name does not depend on
how they are mixed with steps about others, and a build sees no more than the names that it meets. -/
namespace CodeFirst

namespace Startup

variable {σ α ρ : Type}

theorem exists_name?_of_lasting {operation : Startup α ρ} (lasting : operation.isReset = false) :
    ∃ name, operation.name? = some name := by
  cases named : operation.name? with
  | some name => exact ⟨name, rfl⟩
  | none =>
      rw [eq_reset_of_name? named] at lasting
      cases lasting

def Step.about (name : String) (step : Step σ α ρ) : Bool :=
  step.operation.name? = some name

theorem Step.about_eq_true {name : String} {step : Step σ α ρ} :
    step.about name = true ↔ step.operation.name? = some name :=
  decide_eq_true_iff

end Startup

namespace Registry
open Startup (Step Outcome)

variable {σ α ρ : Type} {registry other : Registry ρ} {name : String}

/-- Steps with all that they came to, in order. -/
def responses (registry : Registry ρ) : List (Step σ α ρ) → List (Step σ α ρ × Outcome α)
  | [] => []
  | step :: rest => (step, (registry.takeStep step).2) :: responses (registry.takeStep step).1 rest

theorem entryOrEmpty_congr (same : registry.get? name = other.get? name) :
    registry.entryOrEmpty name = other.entryOrEmpty name := by
  unfold entryOrEmpty
  rw [same]

/-- A step about a name comes to the same, and leaves the same entry, wherever the name has the same
entry before. -/
theorem takeStep_congr {step : Step σ α ρ} (named : step.operation.name? = some name)
    (same : registry.get? name = other.get? name) :
    (registry.takeStep step).2 = (other.takeStep step).2 ∧
      (registry.takeStep step).1.get? name = (other.takeStep step).1.get? name := by
  cases meant named with
  | refused _ each =>
      rw [each registry, each other]
      exact ⟨rfl, same⟩
  | amends _ _ each =>
      rw [each registry, each other]
      simp only [get?_perform_amend, perform_amend_result, entryOrEmpty_congr same, if_true, and_self]

/-- Of steps that drop no entries, those about a name do without the others what they do among them. -/
theorem takeSteps_about {steps : List (Step σ α ρ)}
    (lasting : ∀ step ∈ steps, step.operation.isReset = false)
    (same : registry.get? name = other.get? name) :
    (registry.responses steps).filter (·.1.about name) =
        other.responses (steps.filter (Step.about name)) ∧
      (registry.takeSteps steps).get? name =
        (other.takeSteps (steps.filter (Step.about name))).get? name := by
  induction steps generalizing registry other with
  | nil => exact ⟨rfl, same⟩
  | cons step rest ih =>
      obtain ⟨first, later⟩ := List.forall_mem_cons.mp lasting
      obtain ⟨owner, named⟩ := Startup.exists_name?_of_lasting first
      cases about : step.about name with
      | true =>
          obtain ⟨outcome, entry⟩ := takeStep_congr (Step.about_eq_true.mp about) same
          obtain ⟨answers, entries⟩ := ih later entry
          simp only [responses, List.filter_cons, about, if_true, answers, outcome,
            true_and]
          exact entries
      | false =>
          have differs : name ≠ owner := by
            intro same
            rw [← same, ← Step.about_eq_true, about] at named
            cases named
          have kept : (registry.takeStep step).1.get? name = other.get? name := by
            rw [get?_takeStep named differs]
            exact same
          simp only [responses, List.filter_cons, about, Bool.false_eq_true, if_false]
          exact ih later kept

theorem takeSteps_append (registry : Registry ρ) (first rest : List (Step σ α ρ)) :
    registry.takeSteps (first ++ rest) = (registry.takeSteps first).takeSteps rest := by
  induction first generalizing registry with
  | nil => rfl
  | cons step first ih => exact ih (registry.takeStep step).1

theorem nodup_names_takeSteps (steps : List (Step σ α ρ)) :
    (Registry.empty.takeSteps steps).names.Nodup := by
  rw [(reflects_takeSteps steps).names]
  exact nodup_eraseDups _

/-- Steps that drop no entries, in two orders that are one for each name. -/
structure Rearranged (first second : List (Step σ α ρ)) : Prop where
  lasting : ∀ step ∈ first ++ second, step.operation.isReset = false
  alike : ∀ name, first.filter (Step.about name) = second.filter (Step.about name)

/-- Steps may be moved past steps about other names. -/
theorem Rearranged.swap {first second : List (Step σ α ρ)}
    (firstLasting : ∀ step ∈ first, step.operation.isReset = false)
    (secondLasting : ∀ step ∈ second, step.operation.isReset = false)
    (apart : ∀ step ∈ first, ∀ other ∈ second, step.operation.name? ≠ other.operation.name?) :
    Rearranged (first ++ second) (second ++ first) := by
  constructor
  case lasting =>
    have both := List.forall_mem_append.mpr ⟨firstLasting, secondLasting⟩
    have turned := List.forall_mem_append.mpr ⟨secondLasting, firstLasting⟩
    exact List.forall_mem_append.mpr ⟨both, turned⟩
  case alike =>
    intro name
    rw [List.filter_append, List.filter_append]
    by_cases none : first.filter (Step.about name) = []
    · rw [none, List.nil_append, List.append_nil]
    · obtain ⟨step, member⟩ := List.exists_mem_of_ne_nil _ none
      obtain ⟨listed, about⟩ := List.mem_filter.mp member
      have absent : second.filter (Step.about name) = [] := by
        apply List.filter_eq_nil_iff.mpr
        intro other among same
        apply apart step listed other among
        exact (Step.about_eq_true.mp about).trans (Step.about_eq_true.mp same).symm
      rw [absent, List.nil_append, List.append_nil]

/-- Each name goes its own way through both orders. -/
theorem Rearranged.takeSteps {first second : List (Step σ α ρ)}
    (rearranged : Rearranged first second) (registry : Registry ρ) (name : String) :
    (registry.responses first).filter (·.1.about name) =
        (registry.responses second).filter (·.1.about name) ∧
      (registry.takeSteps first).get? name = (registry.takeSteps second).get? name := by
  obtain ⟨firstLasting, secondLasting⟩ := List.forall_mem_append.mp rearranged.lasting
  have start : registry.get? name = registry.get? name := rfl
  obtain ⟨one, oneEntry⟩ := takeSteps_about firstLasting start
  obtain ⟨other, otherEntry⟩ := takeSteps_about secondLasting start
  rw [one, oneEntry, other, otherEntry, rearranged.alike]
  exact ⟨rfl, rfl⟩

/-- What two runs of steps have in common that differ at most in the order of the entries. -/
structure Unordered (registry : Registry ρ) (first second : List (Step σ α ρ)) : Prop where
  responses : ∀ name, (registry.responses first).filter (·.1.about name) =
    (registry.responses second).filter (·.1.about name)
  entry : ∀ name, (registry.takeSteps first).get? name = (registry.takeSteps second).get? name
  all : (registry.takeSteps first).entries.Perm (registry.takeSteps second).entries
  compiled : ∀ config resolvers, Compilation.compile (registry.takeSteps first) config resolvers =
    Compilation.compile (registry.takeSteps second) config resolvers
  built : ∀ config resolvers, Schema.build (registry.takeSteps first) config resolvers =
    Schema.build (registry.takeSteps second) config resolvers

/-- The order of steps about different names shows in nothing but the order of the entries. -/
theorem unordered_takeSteps (before : List (Step σ α ρ)) {first second : List (Step σ α ρ)}
    (rearranged : Rearranged first second) :
    (Registry.empty.takeSteps before).Unordered first second := by
  have distinct : ∀ steps : List (Step σ α ρ),
      ((Registry.empty.takeSteps before).takeSteps steps).names.Nodup := by
    intro steps
    rw [← takeSteps_append]
    exact nodup_names_takeSteps (before ++ steps)
  generalize Registry.empty.takeSteps before = registry at distinct ⊢
  have same := rearranged.takeSteps registry
  have agree : ∀ resolvers, Compilation.Agrees (registry.takeSteps first)
      (registry.takeSteps second) resolvers := by
    intro resolvers
    apply Compilation.Agrees.of_get?
    · exact fun name _ => (same name).2
    · exact fun name _ => (same name).2
  constructor
  case responses => exact fun name => (same name).1
  case entry => exact fun name => (same name).2
  case all =>
    apply Keyed.perm_of_lookup (distinct first) (distinct second)
    exact fun name => (same name).2
  case compiled =>
    intro config resolvers
    exact Compilation.compile_congr (agree resolvers) config
  case built =>
    intro config resolvers
    exact Compilation.build_congr (agree resolvers) config

section Interleaved
open Compilation (methodField)

def books : List (Registration Unit) :=
  [.role "Book" false, .field .plain (methodField "Book" "title" "String"), .role "Book" true]

def shelves : List (Registration Unit) :=
  [.field .query (methodField "Shelf" "book" "Book"), .resolver "Shelf" (), .role "Shelf" false]

/-- Books before shelves and the other way round; the last step about either is refused. -/
theorem unordered_books :
    let before := [Step.bare (.lookup "Author")]
    let registry := Registry.empty.takeSteps before
    let first := (books ++ shelves).map Step.bare
    let second := (shelves ++ books).map Step.bare
    Rearranged first second ∧ registry.Unordered first second ∧
      (registry.responses first).map (·.2.result.isOk) = [true, true, false, true, true, false] ∧
      (registry.takeSteps first).names = ["Author", "Book", "Shelf"] ∧
      (registry.takeSteps second).names = ["Author", "Shelf", "Book"] ∧
      (Schema.build (registry.takeSteps second) {} ["Shelf"]).isOk = true := by
  intro before registry first second
  have booksLast : ∀ step ∈ books.map Step.bare, step.operation.isReset = false := by decide
  have shelvesLast : ∀ step ∈ shelves.map Step.bare, step.operation.isReset = false := by decide
  have apart : ∀ step ∈ books.map Step.bare, ∀ other ∈ shelves.map Step.bare,
      step.operation.name? ≠ other.operation.name? := by decide
  have rearranged : Rearranged first second := Rearranged.swap booksLast shelvesLast apart
  exact ⟨rearranged, unordered_takeSteps before rearranged, by decide +kernel, by decide +kernel,
    by decide +kernel, by decide +kernel⟩

end Interleaved

section Isolated
open Compilation

/-- The names that a build meets: those of the resolvers and all that their entries lead to. -/
def Met (registry : Registry ρ) (resolvers : List String) (name : String) : Prop :=
  name ∈ resolvers ∨ Referred registry resolvers name

/-- A build is the same on all registries that have the same entries under the names that it meets,
and so steps about other names do not change it. -/
structure Isolated (registry : Registry ρ) (config : Config) (resolvers : List String) : Prop where
  compiled : ∀ other : Registry ρ,
    (∀ name, Met registry resolvers name → registry.get? name = other.get? name) →
      compile registry config resolvers = compile other config resolvers
  built : ∀ other : Registry ρ,
    (∀ name, Met registry resolvers name → registry.get? name = other.get? name) →
      Schema.build registry config resolvers = Schema.build other config resolvers
  unrelated : ∀ {σ α : Type} (steps : List (Step σ α ρ)),
    (∀ step ∈ steps, ∃ name, step.operation.name? = some name ∧ ¬ Met registry resolvers name) →
      Schema.build registry config resolvers =
        Schema.build (registry.takeSteps steps) config resolvers

/-- Steps about other names leave the entry of a name as it was. -/
theorem get?_takeSteps {steps : List (Step σ α ρ)}
    (others : ∀ step ∈ steps, ∃ other, step.operation.name? = some other ∧ name ≠ other) :
    (registry.takeSteps steps).get? name = registry.get? name := by
  induction steps generalizing registry with
  | nil => rfl
  | cons step rest ih =>
      obtain ⟨⟨other, named, differs⟩, later⟩ := List.forall_mem_cons.mp others
      calc ((registry.takeStep step).1.takeSteps rest).get? name
          = (registry.takeStep step).1.get? name := ih later
        _ = registry.get? name := get?_takeStep named differs

theorem agrees_of_met {other : Registry ρ} {resolvers : List String}
    (same : ∀ name, Met registry resolvers name → registry.get? name = other.get? name) :
    Agrees registry other resolvers := by
  apply Agrees.of_get?
  · intro name listed
    exact same name (Or.inl listed)
  · intro name referred
    exact same name (Or.inr referred)

theorem isolated_build (registry : Registry ρ) (config : Config) (resolvers : List String) :
    registry.Isolated config resolvers := by
  constructor
  case compiled =>
    intro other same
    exact compile_congr (agrees_of_met same) config
  case built =>
    intro other same
    exact build_congr (agrees_of_met same) config
  case unrelated =>
    intro σ α steps unmet
    apply build_congr
    apply agrees_of_met
    intro name met
    apply Eq.symm
    apply get?_takeSteps
    intro step member
    obtain ⟨owner, named, unmet⟩ := unmet step member
    refine ⟨owner, named, ?_⟩
    intro same
    rw [same] at met
    exact unmet met

/-- Whatever a build meets is among names that hold all that it starts from. -/
theorem Met.mem {known resolvers : List String} (met : Met registry resolvers name)
    (closed : Closed registry known) (named : ∀ first ∈ resolvers, first ∈ known)
    (outputs : ∀ first ∈ outputRoots registry resolvers, first ∈ known)
    (inputs : ∀ first ∈ inputRoots registry resolvers, first ∈ known) : name ∈ known := by
  rcases met with listed | output | input
  · exact named name listed
  · exact closed.of_reached outputs output
  · exact closed.of_reached inputs input

/-- Visitors read books, but no book leads to its visitors. -/
theorem isolated_library :
    let registry := Registry.empty.replay .nothing library
    let steps := [Step.bare (.role "Visitor" false),
      .bare (.field .plain (methodField "Visitor" "book" "Book")), .bare (.resolver "Desk" ())]
    (∀ step ∈ steps, ∃ name, step.operation.name? = some name ∧
        ¬ Met registry ["Library"] name) ∧
      Schema.build registry {} ["Library"] =
        Schema.build (registry.takeSteps steps) {} ["Library"] ∧
      (Schema.build registry {} ["Library"]).isOk = true ∧
      (registry.takeSteps steps).names =
        ["Book", "Author", "Filter", "Library", "Visitor", "Desk"] := by
  intro registry steps
  have each : ∀ name ∈ registry.names,
      ∀ next ∈ ((registry.get? name).map customFieldTypes).getD [], next ∈ registry.names := by
    decide +kernel
  have closed : Closed registry registry.names := by
    intro name known entry found next referred
    apply each name known next
    rw [found]
    exact referred
  have known : ∀ name, Met registry ["Library"] name → name ∈ registry.names := by
    intro name met
    apply met.mem closed
    · decide +kernel
    · decide +kernel
    · decide +kernel
  have unmet : ∀ step ∈ steps, ∃ name, step.operation.name? = some name ∧
      ¬ Met registry ["Library"] name := by
    have visitor : ¬ Met registry ["Library"] "Visitor" :=
      fun met => absurd (known "Visitor" met) (by decide +kernel)
    have desk : ¬ Met registry ["Library"] "Desk" :=
      fun met => absurd (known "Desk" met) (by decide +kernel)
    intro step member
    simp only [steps, List.mem_cons, List.not_mem_nil, or_false] at member
    rcases member with rfl | rfl | rfl
    · exact ⟨"Visitor", rfl, visitor⟩
    · exact ⟨"Visitor", rfl, visitor⟩
    · exact ⟨"Desk", rfl, desk⟩
  exact ⟨unmet, (isolated_build registry {} ["Library"]).unrelated steps unmet, by decide +kernel,
    by decide +kernel⟩

end Isolated

end Registry

end CodeFirst
