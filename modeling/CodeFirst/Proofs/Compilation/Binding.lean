import CodeFirst.Proofs.Compilation.Acceptance
import CodeFirst.Proofs.Compilation.Agreement
import CodeFirst.Proofs.Compilation.Culprits
import CodeFirst.Proofs.Schema.Build

/-! Which operations a build takes to resolvers. Those of the named entries need one, and the first that
has none ends the build; those of other entries are members like any field of a type. -/
namespace CodeFirst.Compilation
open Outcome

variable {ρ α : Type} {registry : Registry ρ} {config : Config} {resolvers : List String}

/-- What entries refer to compiles exactly if each of the types is usable in its role. -/
theorem exists_compileReferenced :
    (∃ types, (namedEntries registry resolvers).foldlM (compileReferenced registry) {} =
        .ok types) ↔
      (∀ name, Reached registry (outputRoots registry resolvers) name →
        ∃ entry, registry.get? name = some entry ∧ Usable false entry) ∧
      ∀ name, Reached registry (inputRoots registry resolvers) name →
        ∃ entry, registry.get? name = some entry ∧ Usable true entry := by
  simp only [compileReferenced_eq_ok, compileTypes_eq_ok]
  constructor
  · intro ⟨types, outputs, inputs⟩
    exact ⟨(exists_compiles_iff .output).mp ⟨_, outputs⟩, (exists_compiles_iff .input).mp ⟨_, inputs⟩⟩
  · intro ⟨outputs, inputs⟩
    obtain ⟨compiledOutputs, outputRun⟩ := (exists_compiles_iff .output).mpr outputs
    obtain ⟨compiledInputs, inputRun⟩ := (exists_compiles_iff .input).mpr inputs
    exact ⟨⟨compiledOutputs, compiledInputs⟩, outputRun, inputRun⟩

/-- Operations are added exactly if each can be compiled; plain fields are in no one's way. -/
theorem exists_addOperations {strict : Bool} {declared : List (Entry ρ × Field)} {roots : Roots ρ} :
    (∃ result, declared.foldlM (fun roots operation =>
        addOperation strict roots operation.1 operation.2) roots = .ok result) ↔
      ∀ operation ∈ declared, operation.2.kind ≠ .plain →
        Operable strict operation.1 operation.2 := by
  rw [← exists_roots]
  simp only [addOperations_eq_ok]
  constructor
  · intro ⟨_, queries, mutations, first, second, _⟩
    exact ⟨⟨_, queries, first, rfl⟩, _, mutations, second, rfl⟩
  · intro ⟨⟨_, queries, first, _⟩, _, mutations, second, _⟩
    exact ⟨_, queries, mutations, first, second, rfl⟩

/-- An error about the roots comes only behind all types: from an operation, or from a root of
queries that stays empty. -/
theorem addOperations_of_concernsRoots {error : CompileError} (concerns : concernsRoots error = true)
    (failed : compile registry config resolvers = .error (.compile error)) :
    config.validate = .ok () ∧ (∀ name ∈ resolvers, Declared registry name) ∧
      (∃ types, (namedEntries registry resolvers).foldlM (compileReferenced registry) {} =
        .ok types) ∧
      ((declaredFields (namedEntries registry resolvers)).foldlM (fun roots operation =>
          addOperation config.strictArgumentIndices roots operation.1 operation.2) {} =
            .error (.compile error) ∨ error = .noQueryFields) := by
  unfold compile at failed
  cases valid : config.validate with
  | error error =>
      rw [valid] at failed
      cases failed
  | ok =>
      rw [valid] at failed
      rcases bind_eq_error.mp failed with failed | ⟨entries, found, failed⟩
      · have undeclared : FailsBy (fun error => ∃ type, error = .compile (.typeWithoutField type))
            (resolverEntries registry resolvers) :=
          failsBy_resolverEntries fun type _ _ => ⟨type, rfl⟩
        obtain ⟨type, other⟩ := undeclared _ failed
        cases other
        cases concerns
      obtain ⟨declared, rfl⟩ := resolverEntries_eq_ok.mp found
      rcases bind_eq_error.mp failed with failed | ⟨types, referenced, failed⟩
      · rw [not_concernsRoots_of_compileReferenced failed] at concerns
        cases concerns
      refine ⟨rfl, declared, ⟨types, referenced⟩, ?_⟩
      rcases bind_eq_error.mp failed with failed | ⟨roots, _, failed⟩
      · exact Or.inl failed
      · split at failed
        · cases failed
          exact Or.inr rfl
        · cases failed

theorem addOperation_of_unbound {strict : Bool} {roots : Roots ρ} {entry : Entry ρ} {field : Field}
    (operation : field.kind ≠ .plain) (unbound : entry.resolver = none) :
    addOperation strict roots entry field =
      .error (.compile (.noResolver entry.name field.kind.word field.name)) := by
  have refused : bindOperation strict entry field =
      .error (.compile (.noResolver entry.name field.kind.word field.name)) := by
    unfold bindOperation
    rw [unbound]
  unfold addOperation
  cases kind : field.kind with
  | plain => exact absurd kind operation
  | query =>
      rw [kind] at refused
      rw [refused]
      rfl
  | mutation =>
      rw [kind] at refused
      rw [refused]
      rfl

/-- An operation of a named entry without a resolver, where nothing stands against the compilation
but perhaps what comes after it. -/
structure FirstUnbound (registry : Registry ρ) (config : Config) (resolvers : List String)
    (entry : Entry ρ) (field : Field) : Prop where
  valid : config.validate = .ok ()
  declared : ∀ name ∈ resolvers, Declared registry name
  outputs : ∀ name, Reached registry (outputRoots registry resolvers) name →
    ∃ entry, registry.get? name = some entry ∧ Usable false entry
  inputs : ∀ name, Reached registry (inputRoots registry resolvers) name →
    ∃ entry, registry.get? name = some entry ∧ Usable true entry
  operation : field.kind ≠ .plain
  unbound : entry.resolver = none
  first : ∃ before after,
    before ++ (entry, field) :: after = declaredFields (namedEntries registry resolvers) ∧
      ∀ operation ∈ before, operation.2.kind ≠ .plain →
        Operable config.strictArgumentIndices operation.1 operation.2

section Unbound

variable {owner kind name : String}

theorem FirstUnbound.compile {entry : Entry ρ} {field : Field}
    (unbound : FirstUnbound registry config resolvers entry field) :
    compile registry config resolvers =
      .error (.compile (.noResolver entry.name field.kind.word field.name)) := by
  obtain ⟨before, after, split, operable⟩ := unbound.first
  obtain ⟨types, referenced⟩ := exists_compileReferenced.mpr ⟨unbound.outputs, unbound.inputs⟩
  obtain ⟨roots, added⟩ := exists_addOperations.mpr operable
  unfold Compilation.compile
  rw [unbound.valid]
  refine bind_eq_error.mpr (Or.inr ⟨_, resolverEntries_eq_ok.mpr ⟨unbound.declared, rfl⟩, ?_⟩)
  refine bind_eq_error.mpr (Or.inr ⟨types, referenced, ?_⟩)
  refine bind_eq_error.mpr (Or.inl (foldlM_eq_error.mpr ?_))
  exact ⟨before, (entry, field), after, roots, split, added,
    addOperation_of_unbound unbound.operation unbound.unbound⟩

/-- Adding an operation misses a resolver only if its entry has none. -/
theorem addOperation_eq_noResolver {strict : Bool} {roots : Roots ρ} {entry : Entry ρ}
    {field : Field}
    (failed : addOperation strict roots entry field =
      .error (.compile (.noResolver owner kind name))) :
    field.kind ≠ .plain ∧ entry.resolver = none ∧
      owner = entry.name ∧ kind = field.kind.word ∧ name = field.name := by
  have caused : FailsBy
      (fun error => field.kind ≠ .plain ∧ OperationCulprit strict entry field error)
      (addOperation strict roots entry field) :=
    failsBy_addOperation fun operation error culprit => ⟨operation, culprit⟩
  obtain ⟨operation, culprit⟩ := caused _ failed
  cases culprit with
  | unbound unbound => exact ⟨operation, unbound, rfl, rfl, rfl⟩

/-- A missing resolver is the answer of a compilation only where it comes to the operation. -/
theorem exists_firstUnbound
    (failed : compile registry config resolvers = .error (.compile (.noResolver owner kind name))) :
    ∃ entry field, FirstUnbound registry config resolvers entry field ∧
      owner = entry.name ∧ kind = field.kind.word ∧ name = field.name := by
  obtain ⟨valid, declared, referenced, failed⟩ := addOperations_of_concernsRoots rfl failed
  obtain ⟨outputs, inputs⟩ := exists_compileReferenced.mp referenced
  rcases failed with failed | other
  · obtain ⟨before, operation, after, middle, split, added, failed⟩ := foldlM_eq_error.mp failed
    obtain ⟨isOperation, unbound, same⟩ := addOperation_eq_noResolver failed
    have operable := exists_addOperations.mp ⟨middle, added⟩
    exact ⟨operation.1, operation.2, ⟨valid, declared, outputs, inputs, isOperation, unbound,
      before, after, split, operable⟩, same⟩
  · cases other

theorem build_eq_noResolver :
    Schema.build registry config resolvers = .error (.compile (.noResolver owner kind name)) ↔
      ∃ entry field, FirstUnbound registry config resolvers entry field ∧
        owner = entry.name ∧ kind = field.kind.word ∧ name = field.name := by
  rw [Schema.build_eq_error]
  constructor
  · rintro (failed | ⟨_, _, _, _, rejected⟩)
    · exact exists_firstUnbound failed
    · cases rejected
  · rintro ⟨entry, field, unbound, rfl, rfl, rfl⟩
    exact Or.inl unbound.compile

end Unbound

/-- The fields of a compiled type are those of its entry, in order, of whatever kind. -/
theorem Compiles.exists_names {usage : Usage α} {names : List String} {after : Memo α}
    {type : String × Keyed α} (run : Compiles usage registry {} names after)
    (member : type ∈ after.compiled) :
    ∃ entry, registry.get? type.1 = some entry ∧
      Keyed.names type.2 = entry.fields.map (·.name) := by
  obtain ⟨entry, found, fits⟩ := run.fits_of_mem member
  exact ⟨entry, found, names_of_attachFields fits.attached⟩

/-- What a build does with operations. Those of named entries have a resolver if anything compiles,
and the first without one ends the build if nothing does before. The types take them for members,
and as far as entries are only referred to it makes no difference which of their fields are
operations and whether they have a resolver. -/
structure Binding (registry : Registry ρ) (config : Config) (resolvers : List String) : Prop where
  bound : ∀ compiled, compile registry config resolvers = .ok compiled →
    ∀ entry ∈ namedEntries registry resolvers, ∀ field ∈ entry.fields, field.kind ≠ .plain →
      entry.resolver.isSome
  refused_iff : ∀ owner kind name,
    Schema.build registry config resolvers = .error (.compile (.noResolver owner kind name)) ↔
      ∃ entry field, FirstUnbound registry config resolvers entry field ∧
        owner = entry.name ∧ kind = field.kind.word ∧ name = field.name
  outputs : ∀ compiled, compile registry config resolvers = .ok compiled →
    ∀ name fields, (name, fields) ∈ compiled.types.outputs →
      (∃ entry, registry.get? name = some entry ∧
        Keyed.names fields = entry.fields.map (·.name)) ∧
      ∀ field ∈ fields, ∃ key, field.2.source = .member key
  inputs : ∀ compiled, compile registry config resolvers = .ok compiled →
    ∀ name fields, (name, fields) ∈ compiled.types.inputs →
      ∃ entry, registry.get? name = some entry ∧ Keyed.names fields = entry.fields.map (·.name)
  blind : ∀ other, Agrees registry other resolvers →
    Schema.build registry config resolvers = Schema.build other config resolvers

theorem binding_build (registry : Registry ρ) (config : Config) (resolvers : List String) :
    Binding registry config resolvers := by
  constructor
  case bound =>
    intro compiled run entry among field declared operation
    have wellFormed := (compile_eq_ok.mp run).wellFormed
    exact (wellFormed.operations entry among field declared operation).bound
  case refused_iff =>
    intro owner kind name
    exact build_eq_noResolver
  case outputs =>
    intro compiled run name fields member
    have success := compile_eq_ok.mp run
    exact ⟨success.outputs.exists_names member, (success.output_sources member).2⟩
  case inputs =>
    intro compiled run name fields member
    exact (compile_eq_ok.mp run).inputs.exists_names member
  case blind =>
    intro other agree
    exact build_congr agree config

/-- A query whose values are of a type that has a query too, and no resolver. -/
def nested : List (Registration Unit) :=
  [.field .query (methodField "T" "q" "String"),
    .field .query (methodField "R" "t" "T"),
    .resolver "R" ()]

theorem unbound_nested : ∃ schema entry field,
    Schema.build (Registry.empty.replay .nothing nested) {} ["R"] = .ok schema ∧
      "T" ∈ schema.typeNames ∧
      (Registry.empty.replay .nothing nested).get? "T" = some entry ∧
      field ∈ entry.fields ∧ field.kind = .query ∧ entry.resolver = none := by
  have served : (Schema.build (Registry.empty.replay .nothing nested) {} ["R"]).map
      (·.typeNames) = .ok ["T"] := by
    decide +kernel
  have kept : ((Registry.empty.replay .nothing nested).get? "T").map (fun entry =>
      (entry.fields.map (·.kind), entry.resolver)) = some ([.query], none) := by
    decide +kernel
  obtain ⟨schema, run, names⟩ := map_eq_ok.mp served
  obtain ⟨entry, found, same⟩ := Option.map_eq_some_iff.mp kept
  obtain ⟨kinds, unbound⟩ := Prod.mk.inj same
  have queried : FieldKind.query ∈ entry.fields.map (·.kind) := by
    rw [kinds]
    exact List.mem_singleton.mpr rfl
  obtain ⟨field, member, kind⟩ := List.mem_map.mp queried
  refine ⟨schema, entry, field, run, ?_, found, member, kind, unbound⟩
  rw [names]
  exact List.mem_singleton.mpr rfl

end CodeFirst.Compilation
