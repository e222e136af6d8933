import CodeFirst.Proofs.Execution.Alignment
import CodeFirst.Proofs.Value.Path

/-! From the JSON that a method returns to the data of an answer. The fields of a schema lead along
every path to what the path finds in the JSON. -/
namespace CodeFirst

namespace FieldValue

/-- No value, or the null that stands for it in a list. -/
def IsNothing (found : Option FieldValue) : Prop :=
  found = none ∨ found = some (.value .null)

variable {path : List Access} {json : Json}

/-- Only for null it matters where a path ends. -/
theorem shown_cases (path : List Access) (json : Json) :
    shown path json = ofValue? (Value.ofJson json) ∨
      json = .null ∧ shown path json = some (.value .null) := by
  unfold shown
  split
  · unfold element
    cases found : ofValue? (Value.ofJson json) with
    | none => exact Or.inr ⟨ofValue?_eq_none.mp found, rfl⟩
    | some value => exact Or.inl rfl
  · exact Or.inl rfl

theorem isNothing_shown : IsNothing (shown path json) ↔ json = .null := by
  rcases shown_cases path json with same | ⟨rfl, same⟩
  · rw [IsNothing, same, or_iff_left (ofValue?_ne_null _), ofValue?_eq_none]
  · exact iff_of_true (Or.inr same) rfl

theorem shown_eq_list {values : List FieldValue} :
    shown path json = some (.list values) ↔
      ∃ items, json = .array items ∧ items.map element = values := by
  rcases shown_cases path json with same | ⟨rfl, same⟩
  · rw [same, ofValue?_eq_list]
  · rw [same]
    exact iff_of_false nofun nofun

theorem shown_ne_list (inner : List Value) : shown path json ≠ some (.value (.list inner)) := by
  rcases shown_cases path json with same | ⟨rfl, same⟩
  · rw [same]
    exact ofValue?_ne_list _ inner
  · rw [same]
    exact nofun

/-- What the paths into resolved JSON come to. -/
structure Navigates (json : Json) : Prop where
  arrives : ∀ path, at? json path = (json.at? path).bind (shown path)
  isNothing_iff : ∀ path, IsNothing (at? json path) ↔
    json.at? path = some .null ∨ ∃ before access after parent, path = before ++ access :: after ∧
      json.at? before = some parent ∧ parent.Misses access
  list_iff : ∀ path values, at? json path = some (.list values) ↔
    ∃ items, json.at? path = some (.array items) ∧ items.map element = values
  /-- A list is never one value, whose elements no field could be asked for. -/
  opened : ∀ path inner, at? json path ≠ some (.value (.list inner))

theorem navigates (json : Json) : Navigates json := by
  constructor
  case arrives => exact at?_eq json
  case isNothing_iff =>
    intro path
    rw [at?_eq, ← Json.at?_eq_none]
    cases json.at? path with
    | none => exact iff_of_true (Or.inl rfl) (Or.inr rfl)
    | some found =>
        rw [Option.bind_some, isNothing_shown, or_iff_left nofun]
        exact Option.some_inj.symm
  case list_iff =>
    intro path values
    rw [at?_eq]
    cases json.at? path with
    | none => exact iff_of_false nofun nofun
    | some found =>
        rw [Option.bind_some, shown_eq_list]
        simp only [Option.some_inj]
  case opened =>
    intro path inner
    rw [at?_eq]
    cases json.at? path with
    | none => exact nofun
    | some found => exact shown_ne_list inner

end FieldValue

namespace Execution
open Outcome Compilation

variable {σ ρ : Type}

theorem resolve_of_member {context : Context σ ρ} {field : OutputField ρ} {key : String}
    {arguments : List (String × Literal)} {submitted : Keyed Value}
    (source : field.source = .member key)
    (given : argumentValues context.definitions arguments = .ok submitted) (parent : FieldValue) :
    resolve context field parent arguments = return parent.access? (.key key) := by
  unfold resolve
  rw [given, source]
  rfl

/-- The fields that a compilation gives lead along the paths into what methods return. -/
structure Navigation (compiled : Compiled ρ) : Prop where
  called : ∀ kind name field, (name, field) ∈ compiled.roots.ofKind kind →
    ∃ resolver slots, field.source = .call resolver name slots ∧
      ∀ {σ : Type} (context : Context σ ρ) (parent : FieldValue)
        (arguments : List (String × Literal)) (submitted : Keyed Value),
        argumentValues context.definitions arguments = .ok submitted →
        ∀ (progress : Progress σ) (json : Json) (state : σ),
          context.call resolver name (align slots submitted) progress.state = (.ok json, state) →
            (resolve context field parent arguments).run.run.run progress =
              (.ok (.ok (FieldValue.at? json [])), { progress with state })
  member : ∀ type fields, (type, fields) ∈ compiled.types.outputs →
    ∀ name field, (name, field) ∈ fields →
      ∀ {σ : Type} (context : Context σ ρ) (arguments : List (String × Literal))
        (submitted : Keyed Value), argumentValues context.definitions arguments = .ok submitted →
        ∀ json path parent, FieldValue.at? json path = some parent →
          resolve context field parent arguments =
            return FieldValue.at? json (path ++ [.key name])
  element : ∀ json path values index, FieldValue.at? json path = some (.list values) →
    values[index]? = FieldValue.at? json (path ++ [.position index])
  navigates : ∀ json, FieldValue.Navigates json

theorem navigation_of_compile {registry : Registry ρ} {config : Config} {resolvers : List String}
    {compiled : Compiled ρ} (run : compile registry config resolvers = .ok compiled) :
    Navigation compiled := by
  have success := compile_eq_ok.mp run
  constructor
  case called =>
    intro kind name field member
    obtain ⟨⟨entry, operation⟩, last, compiledRoot⟩ := success.exists_lastOperation member
    obtain ⟨-, -, rfl⟩ := mem_of_lastOperation? last
    obtain ⟨resolver, -, bound⟩ := bindOperation_eq_ok.mp (compileRoot_eq_ok.mp compiledRoot).1
    obtain ⟨-, type, items, -, -, same⟩ := compileOperation_eq_ok.mp bound
    cases same
    refine ⟨resolver, _, rfl, ?_⟩
    intro σ context parent arguments submitted given progress json state returned
    exact (calls_of_source rfl).returned context parent arguments submitted given progress json state
      returned
  case member =>
    intro type fields output name field among σ context arguments submitted given json path parent
      reached
    obtain ⟨declared, ref, same, -⟩ := success.outputs.refers output among
    cases same
    rw [resolve_of_member rfl given, FieldValue.at?_concat, reached]
    rfl
  case element =>
    intro json path values index reached
    rw [FieldValue.at?_concat, reached]
    rfl
  case navigates => exact FieldValue.navigates

theorem navigation_library : ∃ compiled,
    compile (Registry.empty.replay .nothing library) {} ["Library"] = .ok compiled ∧
      Navigation compiled := by
  have accepted :
      (compile (Registry.empty.replay .nothing library) {} ["Library"]).isOk = true := by
    decide +kernel
  obtain ⟨compiled, run⟩ := exists_of_isOk accepted
  exact ⟨compiled, run, navigation_of_compile run⟩

end Execution

end CodeFirst
