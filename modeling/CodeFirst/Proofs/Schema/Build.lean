import CodeFirst.Proofs.Compilation.Closure

/-! What an accepted build serves of the types that it registers. Of two types with one name the
later stays: no compiled type is ever replaced, but a root is if an output type has its name. -/
namespace CodeFirst
open Outcome

theorem Config.validate_eq_ok {config : Config} :
    config.validate = .ok () ↔ config.queryRoot ≠ "" ∧ config.mutationRoot ≠ "" ∧
      config.queryRoot ≠ config.mutationRoot ∧ config.maxDepth ≠ 0 ∧ config.maxComplexity ≠ 0 := by
  unfold Config.validate
  by_cases query : config.queryRoot = ""
  · simp [query]
  by_cases mutation : config.mutationRoot = ""
  · simp [query, mutation]
  by_cases same : config.queryRoot = config.mutationRoot
  · simp [mutation, same]
  by_cases depth : config.maxDepth = 0
  · simp [query, mutation, same, depth]
  by_cases complexity : config.maxComplexity = 0
  · simp [query, mutation, same, depth, complexity]
  · simp [query, mutation, same, depth, complexity]

namespace Schema
open Compilation

variable {ρ : Type} {registry : Registry ρ} {config : Config} {resolvers : List String}

theorem objectFields?_eq_some {types : Keyed (SchemaType ρ)} {name : String}
    {fields : Keyed (OutputField ρ)} :
    objectFields? types name = some fields ↔ types.lookup name = some (.object fields) := by
  unfold objectFields?
  split
  · rename_i found
    simp [found]
  · rename_i other
    simpa using other fields

theorem inputFields?_eq_some {types : Keyed (SchemaType ρ)} {name : String}
    {fields : Keyed InputField} :
    inputFields? types name = some fields ↔ types.lookup name = some (.input fields) := by
  refine ⟨lookup_of_inputFields?, fun found => ?_⟩
  unfold inputFields?
  rw [found]

theorem check_eq_ok {schema : Schema ρ} : schema.check = .ok () ↔ schema.defects = [] := by
  unfold check
  cases schema.defects with
  | nil => simp
  | cons first rest => simp

theorem exists_objectFields_of_root {schema : Schema ρ} (sound : schema.defects = []) {root : String}
    (isRoot : root ∈ schema.queryRoot :: schema.mutationRoot.toList) :
    ∃ fields, objectFields? schema.types root = some fields := by
  simp only [defects, List.append_eq_nil_iff] at sound
  obtain ⟨⟨⟨⟨_, query⟩, mutation⟩, _⟩, _⟩ := sound
  apply Option.isSome_iff_exists.mp
  rcases List.mem_cons.mp isRoot with rfl | other
  · by_contra absent
    rw [if_neg absent] at query
    cases query
  · rw [Option.mem_toList] at other
    simp only [other] at mutation
    by_contra absent
    rw [if_neg absent] at mutation
    cases mutation

theorem build_eq_ok {schema : Schema ρ} :
    build registry config resolvers = .ok schema ↔
      ∃ compiled, compile registry config resolvers = .ok compiled ∧
        (Compilation.schema config compiled).defects = [] ∧
        Compilation.schema config compiled = schema := by
  unfold build
  rw [bind_eq_ok]
  refine exists_congr fun compiled => and_congr_right fun _ => ?_
  rw [← check_eq_ok]
  cases checked : (Compilation.schema config compiled).check with
  | error defect =>
      simp only [checked]
      constructor
      · intro run
        cases run
      · rintro ⟨failed, _⟩
        cases failed
  | ok => simp only [checked, pure_eq_ok, true_and]

/-- A build fails by its compilation, or at the first defect of the schema. -/
theorem build_eq_error {error : BuildError} :
    build registry config resolvers = .error error ↔
      compile registry config resolvers = .error error ∨
        ∃ compiled, compile registry config resolvers = .ok compiled ∧
          ∃ defect, (Compilation.schema config compiled).check = .error defect ∧
            .rejected defect.message = error := by
  unfold build
  rw [bind_eq_error]
  refine or_congr_right (exists_congr fun compiled => and_congr_right fun _ => ?_)
  cases checked : (Compilation.schema config compiled).check with
  | error defect =>
      simp only [checked, Except.error.injEq, exists_eq_left']
      constructor
      · intro failed
        cases failed
        rfl
      · intro same
        cases same
        rfl
  | ok =>
      simp only [checked]
      constructor
      · intro failed
        cases failed
      · rintro ⟨defect, failed, _⟩
        cases failed

end Schema

namespace Compilation
open Schema (objectFields? inputFields?)

variable {ρ : Type} {registry : Registry ρ} {config : Config} {resolvers : List String}
  {compiled : Compiled ρ}

/-- The fields of the query root, of which there is always one. -/
def queryRootFields (compiled : Compiled ρ) : Keyed (OutputField ρ) :=
  if compiled.roots.queries = [] then [(placeholderName, placeholder)] else compiled.roots.queries

def mutationRoots (config : Config) (compiled : Compiled ρ) : List (String × SchemaType ρ) :=
  if compiled.roots.mutations = [] then []
  else [(config.mutationRoot, .object compiled.roots.mutations)]

theorem registered_eq : registered config compiled =
    (config.queryRoot, .object (queryRootFields compiled)) :: mutationRoots config compiled
      ++ compiled.types.outputs.map (fun type => (type.1, .object type.2))
      ++ compiled.types.inputs.map (fun type => (type.1, .input type.2)) := rfl

theorem names_mutationRoots : Keyed.names (mutationRoots config compiled) =
    (schema config compiled).mutationRoot.toList := by
  unfold mutationRoots schema
  split
  · rfl
  · rfl

theorem names_registered : Keyed.names (registered config compiled) =
    (config.queryRoot :: (schema config compiled).mutationRoot.toList)
      ++ Keyed.names compiled.types.outputs ++ Keyed.names compiled.types.inputs := by
  rw [registered_eq, Keyed.names_append, Keyed.names_append, List.cons_append, Keyed.names_cons,
    names_mutationRoots]
  simp [Keyed.names, Function.comp_def]

/-- The roots have two names, and no compiled type is both an output and an input. -/
theorem Success.nodup_registered_iff (success : Success registry config resolvers compiled) :
    (Keyed.names (registered config compiled)).Nodup ↔
      ∀ root ∈ config.queryRoot :: (schema config compiled).mutationRoot.toList,
        root ∉ Keyed.names compiled.types.outputs ∧ root ∉ Keyed.names compiled.types.inputs := by
  have roots : (config.queryRoot :: (schema config compiled).mutationRoot.toList).Nodup := by
    obtain ⟨_, _, differ, _⟩ := Config.validate_eq_ok.mp success.valid
    unfold schema
    split
    · exact List.nodup_singleton _
    · simpa using differ
  rw [names_registered]
  generalize config.queryRoot :: (schema config compiled).mutationRoot.toList = roots at *
  simp only [List.nodup_append, List.mem_append]
  constructor
  · rintro ⟨⟨_, _, outputs⟩, _, inputs⟩ root member
    exact ⟨fun output => outputs root member root output rfl,
      fun input => inputs root (Or.inl member) root input rfl⟩
  · intro apart
    refine ⟨⟨roots, success.outputs.nodup List.nodup_nil, ?_⟩,
      success.nodup_inputs, ?_⟩
    · rintro root member output among rfl
      exact (apart root member).1 among
    · rintro name (member | output) input among rfl
      · exact (apart name member).2 among
      · exact success.disjoint output among

theorem nodup_mutationRoots : (Keyed.names (mutationRoots config compiled)).Nodup := by
  rw [names_mutationRoots]
  cases (schema config compiled).mutationRoot <;> simp

/-- Under a name an input is served if there is one, else an output, else a root. -/
theorem Success.lookup_types (success : Success registry config resolvers compiled) (name : String) :
    (schema config compiled).types.lookup name =
      ((compiled.types.inputs.lookup name).map .input).or
        (((compiled.types.outputs.lookup name).map .object).or
          (((mutationRoots config compiled).lookup name).or
            (if name = config.queryRoot then some (.object (queryRootFields compiled)) else none))) := by
  unfold schema
  rw [Keyed.ofList, Keyed.lookup_putAll, registered_eq]
  simp only [List.reverse_append, List.reverse_cons, List.lookup_append, ← List.map_reverse,
    Keyed.lookup_map, Keyed.lookup_cons_eq, List.lookup_nil, Option.or_none]
  rw [Keyed.lookup_reverse success.nodup_inputs,
    Keyed.lookup_reverse success.nodup_outputs,
    Keyed.lookup_reverse nodup_mutationRoots]

theorem Success.not_mem_inputs_of_root (success : Success registry config resolvers compiled)
    (sound : (schema config compiled).defects = []) {root : String}
    (isRoot : root ∈ config.queryRoot :: (schema config compiled).mutationRoot.toList) :
    root ∉ Keyed.names compiled.types.inputs := by
  intro input
  obtain ⟨own, member⟩ := Keyed.mem_names.mp input
  obtain ⟨fields, found⟩ := Schema.exists_objectFields_of_root sound isRoot
  rw [Schema.objectFields?_eq_some, success.lookup_types,
    Keyed.lookup_of_mem success.nodup_inputs member] at found
  cases found

/-- An output type has a field, and takes its fields from the values around them. -/
theorem Success.output_sources (success : Success registry config resolvers compiled)
    {output : String × Keyed (OutputField ρ)} (member : output ∈ compiled.types.outputs) :
    output.2 ≠ [] ∧ ∀ field ∈ output.2, ∃ key, field.2.source = .member key := by
  constructor
  · intro empty
    obtain ⟨entry, _, fits⟩ := success.outputs.fits_of_mem member
    obtain ⟨_, run⟩ := attachFields_nil_eq_ok.mp fits.attached
    rw [empty, mapM_eq_ok, List.forall₂_nil_right_iff] at run
    exact fits.declared run
  · intro field among
    obtain ⟨declared, _, rfl, _⟩ := success.outputs.refers member among
    exact ⟨declared.name, rfl⟩

theorem Rooted.source_ne_member {strict : Bool} {kind : FieldKind}
    {declared : List (Entry ρ × Field)} {root : Keyed (OutputField ρ)}
    (rooted : Rooted strict kind declared root) :
    ∀ field ∈ root, ∀ key, field.2.source ≠ .member key := by
  intro field member key
  obtain ⟨operation, _, _, compiled⟩ := rooted.exists_operation member
  obtain ⟨resolver, _, compiled⟩ := bindOperation_eq_ok.mp (compileRoot_eq_ok.mp compiled).1
  obtain ⟨_, _, _, _, _, same⟩ := compileOperation_eq_ok.mp compiled
  rw [← same]
  exact nofun

/-- The fields of a root are served exactly if no output type has the root's name. -/
theorem Success.objectFields_root_iff (success : Success registry config resolvers compiled)
    {root : String} {fields : Keyed (OutputField ρ)}
    (noInput : root ∉ Keyed.names compiled.types.inputs)
    (isRoot : ((mutationRoots config compiled).lookup root).or
      (if root = config.queryRoot then some (.object (queryRootFields compiled)) else none) =
        some (.object fields))
    (called : ∀ field ∈ fields, ∀ key, field.2.source ≠ .member key) :
    objectFields? (schema config compiled).types root = some fields ↔
      root ∉ Keyed.names compiled.types.outputs := by
  rw [Schema.objectFields?_eq_some, success.lookup_types, Keyed.lookup_eq_none.mpr noInput, isRoot]
  by_cases output : root ∈ Keyed.names compiled.types.outputs
  · obtain ⟨own, member⟩ := Keyed.mem_names.mp output
    rw [Keyed.lookup_of_mem success.nodup_outputs member]
    refine ⟨fun same => ?_, absurd output⟩
    cases same
    obtain ⟨declared, members⟩ := success.output_sources member
    obtain ⟨field, among⟩ := List.exists_mem_of_ne_nil _ declared
    obtain ⟨key, source⟩ := members field among
    exact absurd source (called field among key)
  · rw [Keyed.lookup_eq_none.mpr output]
    exact ⟨fun _ => output, fun _ => rfl⟩

/-- What a schema serves of the types that were registered for it. Compiled types are never
replaced. A root keeps its fields, and all names are distinct, exactly if the named entries lead to
no output type with the name of a root. -/
structure Serves (registry : Registry ρ) (config : Config) (resolvers : List String)
    (compiled : Compiled ρ) (schema : Schema ρ) : Prop where
  nodup_iff : (Keyed.names (registered config compiled)).Nodup ↔
    ∀ root ∈ schema.queryRoot :: schema.mutationRoot.toList,
      ¬ Reached registry (outputRoots registry resolvers) root
  types_of_nodup : (Keyed.names (registered config compiled)).Nodup →
    schema.types = registered config compiled
  outputs : ∀ name fields, (name, fields) ∈ compiled.types.outputs →
    objectFields? schema.types name = some fields
  inputs : ∀ name fields, (name, fields) ∈ compiled.types.inputs →
    inputFields? schema.types name = some fields
  query_iff : objectFields? schema.types schema.queryRoot = some (queryRootFields compiled) ↔
    ¬ Reached registry (outputRoots registry resolvers) schema.queryRoot
  query_names : Keyed.names (queryRootFields compiled) =
    if schema.queryFields = [] then [placeholderName] else schema.queryFields
  mutation_iff : ∀ root, schema.mutationRoot = some root →
    (objectFields? schema.types root = some compiled.roots.mutations ↔
      ¬ Reached registry (outputRoots registry resolvers) root)
  mutation_names : Keyed.names compiled.roots.mutations = schema.mutationFields

theorem names_queryRootFields : Keyed.names (queryRootFields compiled) =
    if (schema config compiled).queryFields = [] then [placeholderName]
    else (schema config compiled).queryFields := by
  unfold queryRootFields schema
  by_cases empty : compiled.roots.queries = []
  · simp [empty]
  · have named : Keyed.names compiled.roots.queries ≠ [] := by simpa [Keyed.names] using empty
    rw [if_neg empty, if_neg named]

theorem Success.serves (success : Success registry config resolvers compiled)
    (sound : (schema config compiled).defects = []) :
    Serves registry config resolvers compiled (schema config compiled) := by
  have noInput : ∀ root ∈ config.queryRoot :: (schema config compiled).mutationRoot.toList,
      root ∉ Keyed.names compiled.types.inputs :=
    fun root => success.not_mem_inputs_of_root sound
  obtain ⟨_, _, differ, _⟩ := Config.validate_eq_ok.mp success.valid
  constructor
  case nodup_iff =>
    rw [success.nodup_registered_iff]
    refine forall₂_congr fun root isRoot => ?_
    rw [success.mem_outputs, and_iff_left (noInput root isRoot)]
  case types_of_nodup =>
    intro distinct
    exact Keyed.putAll_of_nodup distinct
  case outputs =>
    intro name fields member
    have noInput := success.disjoint (Keyed.mem_names.mpr ⟨fields, member⟩)
    rw [Schema.objectFields?_eq_some, success.lookup_types, Keyed.lookup_eq_none.mpr noInput,
      Keyed.lookup_of_mem success.nodup_outputs member]
    rfl
  case inputs =>
    intro name fields member
    rw [Schema.inputFields?_eq_some, success.lookup_types,
      Keyed.lookup_of_mem success.nodup_inputs member]
    rfl
  case query_iff =>
    rw [← success.mem_outputs]
    have absent : (mutationRoots config compiled).lookup config.queryRoot = none := by
      unfold mutationRoots
      split
      · rfl
      · rw [Keyed.lookup_cons_eq, if_neg differ, List.lookup_nil]
    refine success.objectFields_root_iff (noInput _ List.mem_cons_self) ?_ ?_
    · change ((mutationRoots config compiled).lookup config.queryRoot).or _ = _
      rw [absent]
      exact if_pos rfl
    · unfold queryRootFields
      split
      · intro field member key
        cases List.mem_singleton.mp member
        exact nofun
      · exact success.queries.source_ne_member
  case query_names => exact names_queryRootFields
  case mutation_iff =>
    intro root isRoot
    have member : root ∈ config.queryRoot :: (schema config compiled).mutationRoot.toList :=
      List.mem_cons_of_mem _ (Option.mem_toList.mpr isRoot)
    rw [← success.mem_outputs]
    refine success.objectFields_root_iff (noInput root member) ?_ success.mutations.source_ne_member
    unfold schema at isRoot
    unfold mutationRoots
    split at isRoot
    · cases isRoot
    · rename_i some
      cases isRoot
      rw [if_neg some, Keyed.lookup_cons_eq, if_pos rfl]
      rfl
  case mutation_names => rfl

/-- An accepted build loses nothing but a root whose name an output type has, and that in silence. -/
theorem serves_of_build {schema : Schema ρ}
    (accepted : Schema.build registry config resolvers = .ok schema) :
    ∃ compiled, compile registry config resolvers = .ok compiled ∧
      Serves registry config resolvers compiled schema := by
  obtain ⟨compiled, run, sound, rfl⟩ := Schema.build_eq_ok.mp accepted
  exact ⟨compiled, run, (compile_eq_ok.mp run).serves sound⟩

theorem serves_library : ∃ schema compiled,
    Schema.build (Registry.empty.replay .nothing library) {} ["Library"] = .ok schema ∧
      compile (Registry.empty.replay .nothing library) {} ["Library"] = .ok compiled ∧
      Serves (Registry.empty.replay .nothing library) {} ["Library"] compiled schema := by
  have accepted :
      (Schema.build (Registry.empty.replay .nothing library) {} ["Library"]).isOk = true := by
    decide +kernel
  obtain ⟨schema, run⟩ := exists_of_isOk accepted
  obtain ⟨compiled, compiledRun, serves⟩ := serves_of_build run
  exact ⟨schema, compiled, run, compiledRun, serves⟩

/-- A query whose values are of a type with the name of the query root. -/
def eclipse : List (Registration Unit) :=
  [.role "RootQuery" false,
    .field .plain (methodField "RootQuery" "x" "String"),
    .field .query (methodField "R" "q" "RootQuery"),
    .resolver "R" ()]

theorem eclipsed_queryRoot : ∃ schema compiled,
    Schema.build (Registry.empty.replay .nothing eclipse) {} ["R"] = .ok schema ∧
      compile (Registry.empty.replay .nothing eclipse) {} ["R"] = .ok compiled ∧
      ¬ (Keyed.names (registered {} compiled)).Nodup ∧ schema.queryFields = ["q"] ∧
      (objectFields? schema.types schema.queryRoot).map Keyed.names = some ["x"] := by
  have served : (Schema.build (Registry.empty.replay .nothing eclipse) {} ["R"]).map (fun schema =>
      (schema.queryFields, (objectFields? schema.types schema.queryRoot).map Keyed.names)) =
        .ok (["q"], some ["x"]) := by
    decide +kernel
  have named : (compile (Registry.empty.replay .nothing eclipse) {} ["R"]).map (fun compiled =>
      Keyed.names (registered {} compiled)) = .ok ["RootQuery", "RootQuery"] := by
    decide +kernel
  obtain ⟨schema, run, same⟩ := map_eq_ok.mp served
  obtain ⟨compiled, compiledRun, names⟩ := map_eq_ok.mp named
  obtain ⟨fields, root⟩ := Prod.mk.inj same
  refine ⟨schema, compiled, run, compiledRun, ?_, fields, root⟩
  rw [names]
  decide

end Compilation

end CodeFirst
