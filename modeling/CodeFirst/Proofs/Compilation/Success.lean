import CodeFirst.Proofs.Compilation.Operations
import CodeFirst.Proofs.Compilation.Reach

/-! What it takes for the named resolvers to compile, and what they compile to: the types by runs
over all that the entries refer to, the roots by their operations. -/
namespace CodeFirst.Compilation
open Outcome

variable {ρ : Type}

/-- The entries of the names that have one, in the order of the names. -/
def namedEntries (registry : Registry ρ) (resolvers : List String) : List (Entry ρ) :=
  resolvers.filterMap registry.get?

theorem mem_namedEntries {registry : Registry ρ} {resolvers : List String} {entry : Entry ρ} :
    entry ∈ namedEntries registry resolvers ↔
      ∃ name ∈ resolvers, registry.get? name = some entry :=
  List.mem_filterMap

/-- The composite types of the fields of the named entries. -/
def outputRoots (registry : Registry ρ) (resolvers : List String) : List String :=
  (namedEntries registry resolvers).flatMap customFieldTypes

/-- The composite types in the argument lists of the named entries. -/
def inputRoots (registry : Registry ρ) (resolvers : List String) : List String :=
  (namedEntries registry resolvers).flatMap customArgumentTypes

/-- The names of the types that the named entries lead to. -/
def Referred (registry : Registry ρ) (resolvers : List String) (name : String) : Prop :=
  Reached registry (outputRoots registry resolvers) name ∨
    Reached registry (inputRoots registry resolvers) name

/-- A name whose entry has a field. -/
def Declared (registry : Registry ρ) (name : String) : Prop :=
  ∃ entry, registry.get? name = some entry ∧ entry.fields ≠ []

theorem resolverEntries_eq_ok {registry : Registry ρ} {resolvers : List String}
    {entries : List (Entry ρ)} :
    resolverEntries registry resolvers = .ok entries ↔
      (∀ name ∈ resolvers, Declared registry name) ∧ namedEntries registry resolvers = entries := by
  rw [resolverEntries, mapM_eq_ok]
  induction resolvers generalizing entries with
  | nil => simp [namedEntries, eq_comm]
  | cons name rest ih =>
      constructor
      · intro all
        cases all with
        | @cons _ entry _ entries first later =>
            obtain ⟨declared, rfl⟩ := ih.mp later
            split at first
            · cases first
            · rename_i found
              split at first
              · cases first
              · rename_i fields
                cases first
                exact ⟨List.forall_mem_cons.mpr ⟨⟨_, found, fields⟩, declared⟩,
                  List.filterMap_cons_some found⟩
      · rintro ⟨declared, rfl⟩
        obtain ⟨⟨entry, found, fields⟩, others⟩ := List.forall_mem_cons.mp declared
        rw [namedEntries, List.filterMap_cons_some found]
        refine .cons ?_ (ih.mpr ⟨others, rfl⟩)
        simp only [found]
        exact if_neg fields

/-- The types that entries refer to compile as outputs and as inputs, each kind by itself. -/
theorem compileReferenced_eq_ok {registry : Registry ρ} {entries : List (Entry ρ)}
    {types result : Types ρ} :
    entries.foldlM (compileReferenced registry) types = .ok result ↔
      compileTypes .output registry [] (entries.flatMap customFieldTypes) types.outputs =
          .ok result.outputs ∧
        compileTypes .input registry [] (entries.flatMap customArgumentTypes) types.inputs =
          .ok result.inputs := by
  induction entries generalizing types with
  | nil =>
      obtain ⟨outputs, inputs⟩ := types
      obtain ⟨outputs', inputs'⟩ := result
      simp only [foldlM_nil_eq_ok, compileTypes, List.flatMap_nil, Types.mk.injEq]
  | cons entry rest ih =>
      simp only [foldlM_cons_eq_ok, ih, compileReferenced, bind_eq_ok, pure_eq_ok, compileTypes,
        List.flatMap_cons, foldlM_append_eq_ok]
      constructor
      · rintro ⟨_, ⟨outputs, first, inputs, second, rfl⟩, third, fourth⟩
        exact ⟨⟨outputs, first, third⟩, inputs, second, fourth⟩
      · rintro ⟨⟨outputs, first, third⟩, inputs, second, fourth⟩
        exact ⟨_, ⟨outputs, first, inputs, second, rfl⟩, third, fourth⟩

/-- What the named resolvers compile to. -/
structure Success (registry : Registry ρ) (config : Config) (resolvers : List String)
    (compiled : Compiled ρ) : Prop where
  valid : config.validate = .ok ()
  declared : ∀ name ∈ resolvers, Declared registry name
  outputs : Compiles .output registry {} (outputRoots registry resolvers)
    ⟨compiled.types.outputs, []⟩
  inputs : Compiles .input registry {} (inputRoots registry resolvers)
    ⟨compiled.types.inputs, []⟩
  queries : Rooted config.strictArgumentIndices .query
    (declaredFields (namedEntries registry resolvers)) compiled.roots.queries
  mutations : Rooted config.strictArgumentIndices .mutation
    (declaredFields (namedEntries registry resolvers)) compiled.roots.mutations
  rooted : compiled.roots.queries = [] → config.placeholderQuery = true

theorem compile_eq_ok {registry : Registry ρ} {config : Config} {resolvers : List String}
    {compiled : Compiled ρ} :
    compile registry config resolvers = .ok compiled ↔
      Success registry config resolvers compiled := by
  unfold compile
  cases valid : config.validate with
  | error error =>
      constructor
      · intro run
        cases run
      · intro success
        cases valid.symm.trans success.valid
  | ok =>
      simp only [bind_eq_ok, resolverEntries_eq_ok, compileReferenced_eq_ok, addOperations_eq_ok,
        compileTypes_eq_ok]
      constructor
      · rintro ⟨_, ⟨declared, rfl⟩, types, ⟨outputs, inputs⟩, _,
          ⟨queries, mutations, first, second, rfl⟩, run⟩
        split at run
        · cases run
        · rename_i rooted
          cases pure_eq_ok.mp run
          refine ⟨valid, declared, outputs, inputs, ⟨queries, first, rfl⟩, ⟨mutations, second, rfl⟩,
            ?_⟩
          intro empty
          by_contra absent
          exact rooted ⟨empty, by simpa using absent⟩
      · intro success
        obtain ⟨types, roots⟩ := compiled
        obtain ⟨queries, first, sameQueries⟩ := success.queries
        obtain ⟨mutations, second, sameMutations⟩ := success.mutations
        have same : (⟨Keyed.ofList queries, Keyed.ofList mutations⟩ : Roots ρ) = roots := by
          rw [sameQueries, sameMutations]
        refine ⟨_, ⟨success.declared, rfl⟩, types, ⟨success.outputs, success.inputs⟩, roots,
          ⟨queries, mutations, first, second, same⟩, ?_⟩
        rw [if_neg]
        · rfl
        · rintro ⟨empty, absent⟩
          rw [success.rooted empty] at absent
          cases absent

/-- The fields of the root of a kind; plain fields have none. -/
def Roots.ofKind (roots : Roots ρ) : FieldKind → Keyed (OutputField ρ)
  | .plain => []
  | .query => roots.queries
  | .mutation => roots.mutations

theorem Success.exists_lastOperation {registry : Registry ρ} {config : Config}
    {resolvers : List String} {compiled : Compiled ρ} {kind : FieldKind} {name : String}
    {field : OutputField ρ} (success : Success registry config resolvers compiled)
    (member : (name, field) ∈ compiled.roots.ofKind kind) :
    ∃ operation,
      lastOperation? kind (declaredFields (namedEntries registry resolvers)) name =
          some operation ∧
        compileRoot config.strictArgumentIndices operation = .ok (name, field) := by
  cases kind with
  | plain => cases member
  | query => exact success.queries.exists_lastOperation member
  | mutation => exact success.mutations.exists_lastOperation member

end CodeFirst.Compilation
