import CodeFirst.Proofs.Compilation.Success

/-! Which declarations compile: those that are well formed, wherever the named entries lead, and no
others. -/
namespace CodeFirst.Compilation
open Outcome

variable {ρ α : Type} {registry : Registry ρ}

/-- An entry that can be compiled as a type of this role. -/
structure Usable (isInput : Bool) (entry : Entry ρ) : Prop where
  declared : entry.fields ≠ []
  role : entry.isInput = isInput
  distinct : (entry.fields.map (·.name)).Nodup
  cataloged : ∀ field ∈ entry.fields, Cataloged field.type field.isCustom

/-- An operation that can be compiled as a root field of its entry. -/
structure Operable (strict : Bool) (entry : Entry ρ) (field : Field) : Prop where
  bound : entry.resolver.isSome
  cataloged : Cataloged field.type field.isCustom
  arguments : ∀ argument, some argument ∈ entry.slots field.name →
    Cataloged argument.type argument.isCustom
  dense : strict = true → none ∉ entry.slots field.name

structure WellFormed (registry : Registry ρ) (config : Config) (resolvers : List String) :
    Prop where
  valid : config.validate = .ok ()
  declared : ∀ name ∈ resolvers, Declared registry name
  outputs : ∀ name, Reached registry (outputRoots registry resolvers) name →
    ∃ entry, registry.get? name = some entry ∧ Usable false entry
  inputs : ∀ name, Reached registry (inputRoots registry resolvers) name →
    ∃ entry, registry.get? name = some entry ∧ Usable true entry
  operations : ∀ entry ∈ namedEntries registry resolvers, ∀ field ∈ entry.fields,
    field.kind ≠ .plain → Operable config.strictArgumentIndices entry field
  rooted : config.placeholderQuery = true ∨
    ∃ entry ∈ namedEntries registry resolvers, ∃ field ∈ entry.fields, field.kind = .query

theorem exists_compileField (usage : Usage α) {field : Field} :
    (∃ item, compileField usage field = .ok item) ↔ Cataloged field.type field.isCustom := by
  rw [← exists_typeRef]
  simp only [compileField_eq_ok]
  constructor
  · rintro ⟨_, type, named, _⟩
    exact ⟨type, named⟩
  · rintro ⟨type, named⟩
    exact ⟨_, type, named, rfl⟩

/-- The fields of an entry fit exactly if the entry is usable in the role of the usage. -/
theorem exists_fits {usage : Usage α} {entry : Entry ρ} :
    (∃ fields, Fits usage entry fields) ↔ Usable usage.isInput entry := by
  constructor
  · rintro ⟨fields, fits⟩
    obtain ⟨distinct, run⟩ := attachFields_nil_eq_ok.mp fits.attached
    have compiled := exists_mapM_eq_ok.mp ⟨fields, run⟩
    exact ⟨fits.declared, fits.role, distinct,
      fun field member => (exists_compileField usage).mp (compiled field member)⟩
  · intro usable
    obtain ⟨fields, run⟩ := exists_mapM_eq_ok.mpr fun field member =>
      (exists_compileField usage).mpr (usable.cataloged field member)
    exact ⟨fields, usable.declared, usable.role,
      attachFields_nil_eq_ok.mpr ⟨usable.distinct, run⟩⟩

/-- From an empty memo, a run over names comes to its end exactly if every name that they lead to
has a usable entry. -/
theorem exists_compiles_iff (usage : Usage α) {names : List String} :
    (∃ compiled, Compiles usage registry {} names ⟨compiled, []⟩) ↔
      ∀ name, Reached registry names name →
        ∃ entry, registry.get? name = some entry ∧ Usable usage.isInput entry := by
  constructor
  · rintro ⟨compiled, run⟩ name reached
    obtain ⟨fields, member⟩ := Keyed.mem_names.mp (run.mem_names_iff.mpr reached)
    obtain ⟨entry, found, fits⟩ := run.fits_of_mem member
    exact ⟨entry, found, exists_fits.mp ⟨fields, fits⟩⟩
  · intro usable
    have each : ∀ name, Reached registry names name →
        ∃ entry fields, registry.get? name = some entry ∧ Fits usage entry fields := by
      intro name reached
      obtain ⟨entry, found, usable⟩ := usable name reached
      obtain ⟨fields, fits⟩ := exists_fits.mpr usable
      exact ⟨entry, fields, found, fits⟩
    obtain ⟨⟨compiled, pending⟩, run⟩ := exists_compiles {} each
    cases run.pending_eq
    exact ⟨compiled, run⟩

theorem exists_compileArgument {argument : Argument} :
    (∃ item, compileArgument argument = .ok item) ↔
      Cataloged argument.type argument.isCustom := by
  rw [← exists_baseName]
  simp only [compileArgument_eq_ok]
  constructor
  · rintro ⟨_, base, named, _⟩
    exact ⟨base, named⟩
  · rintro ⟨base, named⟩
    exact ⟨_, base, named, rfl⟩

theorem exists_compileOperation {strict : Bool} {entry : Entry ρ} {resolver : ρ} {field : Field} :
    (∃ result, compileOperation strict entry resolver field = .ok result) ↔
      (strict = true → none ∉ entry.slots field.name) ∧ Cataloged field.type field.isCustom ∧
        ∀ argument, some argument ∈ entry.slots field.name →
          Cataloged argument.type argument.isCustom := by
  simp only [compileOperation_eq_ok, ← mem_declaredIn, ← exists_compileArgument, ← exists_typeRef,
    ← exists_mapM_eq_ok]
  constructor
  · rintro ⟨_, dense, type, items, named, compiled, _⟩
    exact ⟨dense, ⟨type, named⟩, items, compiled⟩
  · rintro ⟨dense, ⟨type, named⟩, items, compiled⟩
    exact ⟨_, dense, type, items, named, compiled, rfl⟩

theorem exists_compileRoot {strict : Bool} {operation : Entry ρ × Field} :
    (∃ item, compileRoot strict operation = .ok item) ↔
      Operable strict operation.1 operation.2 := by
  simp only [compileRoot_eq_ok, bindOperation_eq_ok]
  constructor
  · rintro ⟨item, ⟨resolver, bound, compiled⟩, _⟩
    obtain ⟨dense, cataloged, arguments⟩ := exists_compileOperation.mp ⟨_, compiled⟩
    exact ⟨Option.isSome_iff_exists.mpr ⟨resolver, bound⟩, cataloged, arguments, dense⟩
  · intro operable
    obtain ⟨resolver, bound⟩ := Option.isSome_iff_exists.mp operable.bound
    obtain ⟨compiled, run⟩ := exists_compileOperation.mpr
      ⟨operable.dense, operable.cataloged, operable.arguments⟩
    exact ⟨(_, compiled), ⟨resolver, bound, run⟩, rfl⟩

/-- A root comes about exactly if each operation of its kind is operable. -/
theorem exists_rooted {strict : Bool} {kind : FieldKind} {declared : List (Entry ρ × Field)} :
    (∃ root, Rooted strict kind declared root) ↔
      ∀ operation ∈ declared, operation.2.kind = kind → Operable strict operation.1 operation.2 := by
  have each : (∃ root, Rooted strict kind declared root) ↔
      ∀ operation ∈ operationsOf kind declared, ∃ item, compileRoot strict operation = .ok item := by
    rw [← exists_mapM_eq_ok]
    constructor
    · rintro ⟨_, items, run, _⟩
      exact ⟨items, run⟩
    · rintro ⟨items, run⟩
      exact ⟨_, items, run, rfl⟩
  rw [each]
  simp only [mem_operationsOf, exists_compileRoot, and_imp]

/-- Both roots come about exactly if every operation is operable. -/
theorem exists_roots {strict : Bool} {declared : List (Entry ρ × Field)} :
    ((∃ queries, Rooted strict .query declared queries) ∧
        ∃ mutations, Rooted strict .mutation declared mutations) ↔
      ∀ operation ∈ declared, operation.2.kind ≠ .plain →
        Operable strict operation.1 operation.2 := by
  rw [exists_rooted, exists_rooted]
  constructor
  · intro ⟨queries, mutations⟩ operation member
    cases kind : operation.2.kind with
    | plain => exact fun isOperation => absurd rfl isOperation
    | query => exact fun _ => queries operation member kind
    | mutation => exact fun _ => mutations operation member kind
  · intro operable
    constructor
    · intro operation member kind
      exact operable operation member (by simp [kind])
    · intro operation member kind
      exact operable operation member (by simp [kind])

theorem forall_mem_declaredFields {entries : List (Entry ρ)} {holds : Entry ρ → Field → Prop} :
    (∀ operation ∈ declaredFields entries, holds operation.1 operation.2) ↔
      ∀ entry ∈ entries, ∀ field ∈ entry.fields, holds entry field := by
  simp only [Prod.forall, mem_declaredFields, and_imp]
  constructor
  · intro each entry among field declared
    exact each entry field among declared
  · intro each entry field among declared
    exact each entry among field declared

section WellFormed

variable {config : Config} {resolvers : List String}

/-- Whatever compiles is well formed, also what a run has passed over. -/
theorem Success.wellFormed {compiled : Compiled ρ}
    (success : Success registry config resolvers compiled) :
    WellFormed registry config resolvers := by
  have operable := exists_roots.mp ⟨⟨_, success.queries⟩, _, success.mutations⟩
  constructor
  case valid => exact success.valid
  case declared => exact success.declared
  case outputs => exact (exists_compiles_iff _).mp ⟨_, success.outputs⟩
  case inputs => exact (exists_compiles_iff _).mp ⟨_, success.inputs⟩
  case operations => exact forall_mem_declaredFields.mp operable
  case rooted =>
    by_cases empty : compiled.roots.queries = []
    · exact Or.inl (success.rooted empty)
    · rw [success.queries.eq_nil_iff] at empty
      simp only [ne_eq, not_forall, not_not] at empty
      obtain ⟨operation, member, kind⟩ := empty
      obtain ⟨among, declared⟩ := mem_declaredFields.mp member
      exact Or.inr ⟨_, among, _, declared, kind⟩

theorem WellFormed.exists_success (wellFormed : WellFormed registry config resolvers) :
    ∃ compiled, Success registry config resolvers compiled := by
  obtain ⟨outputs, compiledOutputs⟩ := (exists_compiles_iff .output).mpr wellFormed.outputs
  obtain ⟨inputs, compiledInputs⟩ := (exists_compiles_iff .input).mpr wellFormed.inputs
  obtain ⟨⟨queries, rootedQueries⟩, mutations, rootedMutations⟩ :=
    exists_roots.mpr (forall_mem_declaredFields.mpr wellFormed.operations)
  refine ⟨⟨⟨outputs, inputs⟩, ⟨queries, mutations⟩⟩, wellFormed.valid, wellFormed.declared,
    compiledOutputs, compiledInputs, rootedQueries, rootedMutations, fun empty => ?_⟩
  rcases wellFormed.rooted with placeholder | ⟨entry, among, field, declared, kind⟩
  · exact placeholder
  · have member : (entry, field) ∈ declaredFields (namedEntries registry resolvers) :=
      mem_declaredFields.mpr ⟨among, declared⟩
    exact absurd kind (rootedQueries.eq_nil_iff.mp empty _ member)

theorem exists_success_iff :
    (∃ compiled, Success registry config resolvers compiled) ↔
      WellFormed registry config resolvers := by
  constructor
  · intro ⟨compiled, success⟩
    exact success.wellFormed
  · exact WellFormed.exists_success

end WellFormed

/-- The named resolvers compile exactly if the declarations are well formed: nothing is passed over
because it was compiled before or in the other pass, and nothing well formed is refused. -/
theorem exists_compile_iff_wellFormed {config : Config} {resolvers : List String} :
    (∃ compiled, compile registry config resolvers = .ok compiled) ↔
      WellFormed registry config resolvers := by
  simp only [compile_eq_ok]
  exact exists_success_iff

end CodeFirst.Compilation
