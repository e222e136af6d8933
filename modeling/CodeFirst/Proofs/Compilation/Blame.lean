import CodeFirst.Proofs.Compilation.Binding
import CodeFirst.Proofs.Compilation.Density

/-! What the errors of a build blame. Each one names something that the declarations really have or
lack, and those about the roots come only where every type is in order. -/
namespace CodeFirst.Compilation
open Outcome

variable {ρ α : Type} {registry : Registry ρ} {config : Config} {resolvers : List String}

/-- The entry has a field or an argument of this type, which is neither composite nor cataloged. -/
def Uncataloged (entry : Entry ρ) (type : String) : Prop :=
  (∃ field ∈ entry.fields, field.type = type ∧ ¬ Cataloged field.type field.isCustom) ∨
    ∃ method argument, some argument ∈ entry.slots method ∧ argument.type = type ∧
      ¬ Cataloged argument.type argument.isCustom

/-- What must be so where a build ends with an error. -/
def Blamed (registry : Registry ρ) (config : Config) (resolvers : List String) :
    CompileError → Prop
  | .typeWithoutField name =>
    (name ∈ resolvers ∨ Referred registry resolvers name) ∧ ¬ Declared registry name
  | .inputAsOutput name =>
    Reached registry (outputRoots registry resolvers) name ∧
      ∃ entry, registry.get? name = some entry ∧ entry.fields ≠ [] ∧ entry.isInput = true
  | .outputAsInput name =>
    Reached registry (inputRoots registry resolvers) name ∧
      ∃ entry, registry.get? name = some entry ∧ entry.fields ≠ [] ∧ entry.isInput = false
  | .unhandledScalar type =>
    ∃ name entry, (name ∈ resolvers ∨ Referred registry resolvers name) ∧
      registry.get? name = some entry ∧ Uncataloged entry type
  | .noResolver owner kind name =>
    ∃ entry ∈ namedEntries registry resolvers, entry.name = owner ∧ entry.resolver = none ∧
      ∃ field ∈ entry.fields, field.kind ≠ .plain ∧ field.kind.word = kind ∧ field.name = name
  | .argumentGap owner method index =>
    config.strictArgumentIndices = true ∧ ∃ entry ∈ namedEntries registry resolvers,
      ∃ field ∈ entry.fields, field.kind ≠ .plain ∧ field.owner = owner ∧ field.name = method ∧
        FirstGap (entry.slots method) index
  | .noQueryFields =>
    config.placeholderQuery = false ∧
      ∀ entry ∈ namedEntries registry resolvers, ∀ field ∈ entry.fields, field.kind ≠ .query

/-- All types that a list of resolvers leads to have fields, and a role that fits. -/
structure TypesUsable (registry : Registry ρ) (resolvers : List String) : Prop where
  declared : ∀ name ∈ resolvers, Declared registry name
  outputs : ∀ name, Reached registry (outputRoots registry resolvers) name →
    ∃ entry, registry.get? name = some entry ∧ Usable false entry
  inputs : ∀ name, Reached registry (inputRoots registry resolvers) name →
    ∃ entry, registry.get? name = some entry ∧ Usable true entry

theorem not_declared {name : String}
    (undeclared : ∀ entry, registry.get? name = some entry → entry.fields = []) :
    ¬ Declared registry name := by
  rintro ⟨entry, found, declared⟩
  exact declared (undeclared entry found)

/-- What stands against the types is to blame; a misused type is so in the way of the usage. -/
theorem TypeCulprit.blamed {usage : Usage α} {names : List String} {error : CompileError}
    (culprit : TypeCulprit usage registry names (.compile error))
    (referred : ∀ name, Reached registry names name → Referred registry resolvers name)
    (misused : ∀ name entry, Reached registry names name → registry.get? name = some entry →
      entry.fields ≠ [] → entry.isInput ≠ usage.isInput →
        Blamed registry config resolvers (usage.misuse name)) :
    Blamed registry config resolvers error := by
  generalize same : BuildError.compile error = failed at culprit
  cases culprit with
  | undeclared reached undeclared =>
      cases same
      exact ⟨Or.inr (referred _ reached), not_declared undeclared⟩
  | misused reached found declared differs =>
      cases same
      exact misused _ _ reached found declared differs
  | unhandled reached found declared unhandled =>
      cases same
      exact ⟨_, _, Or.inr (referred _ reached), found, Or.inl ⟨_, declared, rfl, unhandled⟩⟩
  | repeated => cases same

theorem OperationCulprit.blamed {entry : Entry ρ} {field : Field} {error : CompileError}
    (among : entry ∈ namedEntries registry resolvers) (declared : field ∈ entry.fields)
    (operation : field.kind ≠ .plain)
    (culprit : OperationCulprit config.strictArgumentIndices entry field (.compile error)) :
    Blamed registry config resolvers error := by
  obtain ⟨name, named, found⟩ := mem_namedEntries.mp among
  generalize same : BuildError.compile error = failed at culprit
  cases culprit with
  | unbound unbound =>
      cases same
      exact ⟨entry, among, rfl, unbound, field, declared, operation, rfl, rfl⟩
  | result unhandled =>
      cases same
      exact ⟨name, entry, Or.inl named, found, Or.inl ⟨field, declared, rfl, unhandled⟩⟩
  | argument slotted unhandled =>
      cases same
      exact ⟨name, entry, Or.inl named, found, Or.inr ⟨_, _, slotted, rfl, unhandled⟩⟩
  | gap strict empty filled =>
      cases same
      exact ⟨strict, entry, among, field, declared, operation, rfl, rfl, empty, filled⟩

theorem Culprit.blamed {error : CompileError}
    (culprit : Culprit registry config resolvers (.compile error)) :
    Blamed registry config resolvers error := by
  generalize same : BuildError.compile error = failed at culprit
  cases culprit with
  | configuration => cases same
  | undeclared named undeclared =>
      cases same
      exact ⟨Or.inl named, undeclared⟩
  | output culprit =>
      subst same
      apply culprit.blamed fun _ => Or.inl
      intro name entry reached found declared input
      exact ⟨reached, entry, found, declared, eq_true_of_ne_false input⟩
  | input culprit =>
      subst same
      apply culprit.blamed fun _ => Or.inr
      intro name entry reached found declared output
      exact ⟨reached, entry, found, declared, eq_false_of_ne_true output⟩
  | operation among declared operation culprit =>
      subst same
      exact culprit.blamed among declared operation
  | rootless noPlaceholder noQuery =>
      cases same
      exact ⟨noPlaceholder, noQuery⟩

/-- An error of a build is about a real culprit, and one about the roots means that no type is in
the way. -/
theorem blamed_of_build {error : CompileError}
    (failed : Schema.build registry config resolvers = .error (.compile error)) :
    Blamed registry config resolvers error ∧
      (concernsRoots error = true → TypesUsable registry resolvers) := by
  rcases Schema.build_eq_error.mp failed with failed | ⟨_, _, _, _, rejected⟩
  · refine ⟨(failsBy_compile config resolvers _ failed).blamed, fun concerns => ?_⟩
    obtain ⟨-, declared, referenced, -⟩ := addOperations_of_concernsRoots concerns failed
    obtain ⟨outputs, inputs⟩ := exists_compileReferenced.mp referenced
    exact ⟨declared, outputs, inputs⟩
  · cases rejected

/-- The only argument of the library stands at the second position. -/
theorem blamed_library :
    Schema.build (Registry.empty.replay .nothing library) { strictArgumentIndices := true }
        ["Library"] = .error (.compile (.argumentGap "Library" "book" 0)) ∧
      Blamed (Registry.empty.replay .nothing library) { strictArgumentIndices := true } ["Library"]
        (.argumentGap "Library" "book" 0) ∧
      TypesUsable (Registry.empty.replay .nothing library) ["Library"] := by
  have refused : (Schema.build (Registry.empty.replay .nothing library)
      { strictArgumentIndices := true } ["Library"]).map (fun _ => ()) =
        .error (.compile (.argumentGap "Library" "book" 0)) := by
    decide +kernel
  have failed := map_eq_error.mp refused
  obtain ⟨blamed, usable⟩ := blamed_of_build failed
  exact ⟨failed, blamed, usable rfl⟩

end CodeFirst.Compilation
