import CodeFirst.Proofs.Schema.Build

/-! The roots of an accepted build. A name has the place at which it first came among the operations
of its kind, and its field is wholly that of the last of them. -/
namespace CodeFirst.Compilation
open Outcome

variable {ρ : Type}

/-- A root field that takes everything from one declaration: its type, its description, its
arguments in the order of the slots, and the method that it calls on the resolver of the entry. -/
structure TakenFrom (operation : Entry ρ × Field) (root : OutputField ρ) : Prop where
  type : typeRef operation.2 = .ok root.type
  description : root.description = operation.2.options.comment
  arguments : ∃ items,
    (declaredIn (operation.1.slots operation.2.name)).mapM compileArgument = .ok items ∧
      root.arguments = Keyed.ofList items
  source : ∃ resolver, operation.1.resolver = some resolver ∧
    root.source = .call resolver operation.2.name
      ((operation.1.slots operation.2.name).map (Option.map Argument.name))

theorem takenFrom_of_compileRoot {strict : Bool} {operation : Entry ρ × Field}
    {item : String × OutputField ρ} (run : compileRoot strict operation = .ok item) :
    TakenFrom operation item.2 := by
  obtain ⟨resolver, bound, compiled⟩ := bindOperation_eq_ok.mp (compileRoot_eq_ok.mp run).1
  obtain ⟨-, type, items, named, arguments, same⟩ := compileOperation_eq_ok.mp compiled
  rw [← same]
  exact {
    type := named
    description := rfl
    arguments := ⟨items, arguments, rfl⟩
    source := ⟨resolver, bound, rfl⟩ }

/-- The fields of the root of a kind: each name once, where it first came among the operations of
the kind, with the field of the last of them. -/
structure Gathered (kind : FieldKind) (declared : List (Entry ρ × Field))
    (root : Keyed (OutputField ρ)) : Prop where
  names : Keyed.names root = ((operationsOf kind declared).map (·.2.name)).eraseDups
  nodup : (Keyed.names root).Nodup
  last : ∀ name field, (name, field) ∈ root → ∃ operation,
    lastOperation? kind declared name = some operation ∧ TakenFrom operation field

theorem Rooted.gathered {strict : Bool} {kind : FieldKind} {declared : List (Entry ρ × Field)}
    {root : Keyed (OutputField ρ)} (rooted : Rooted strict kind declared root) :
    Gathered kind declared root where
  names := rooted.names_eq
  nodup := rooted.nodup
  last _ _ member := by
    obtain ⟨operation, last, compiled⟩ := rooted.exists_lastOperation member
    exact ⟨operation, last, takenFrom_of_compileRoot compiled⟩

/-- The placeholder calls no method, so no operation can be taken for it. -/
theorem Gathered.placeholder_not_mem {kind : FieldKind} {declared : List (Entry ρ × Field)}
    {root : Keyed (OutputField ρ)} (gathered : Gathered kind declared root) (name : String) :
    (name, placeholder) ∉ root := by
  intro member
  obtain ⟨_, _, taken⟩ := gathered.last _ _ member
  obtain ⟨_, _, source⟩ := taken.source
  cases source

/-- What the roots of a schema are made of, from the fields of the named entries in the order of the
resolvers and of registration. -/
structure Assembled (config : Config) (declared : List (Entry ρ × Field)) (compiled : Compiled ρ)
    (schema : Schema ρ) : Prop where
  queries : Gathered .query declared compiled.roots.queries
  queryFields : schema.queryFields = Keyed.names compiled.roots.queries
  mutations : Gathered .mutation declared compiled.roots.mutations
  mutationFields : schema.mutationFields = Keyed.names compiled.roots.mutations
  queryObject : (registered config compiled).head? =
    some (schema.queryRoot, .object (queryRootFields compiled))
  queryObject_fields : queryRootFields compiled =
    if operationsOf .query declared = [] then [(placeholderName, placeholder)]
    else compiled.roots.queries
  placeholder : (placeholderName, placeholder) ∈ queryRootFields compiled ↔
    ∀ operation ∈ declared, operation.2.kind ≠ .query
  mutationRoot : schema.mutationRoot.isSome ↔
    ∃ operation ∈ declared, operation.2.kind = .mutation
  mutationObject : ∀ root, schema.mutationRoot = some root →
    (root, .object compiled.roots.mutations) ∈ registered config compiled

theorem operationsOf_eq_nil {kind : FieldKind} {declared : List (Entry ρ × Field)} :
    operationsOf kind declared = [] ↔ ∀ operation ∈ declared, operation.2.kind ≠ kind := by
  simp [operationsOf, List.filter_eq_nil_iff]

variable {registry : Registry ρ} {config : Config} {resolvers : List String}
  {compiled : Compiled ρ}

theorem Success.assembled (success : Success registry config resolvers compiled) :
    Assembled config (declaredFields (namedEntries registry resolvers)) compiled
      (schema config compiled) := by
  have noQuery := success.queries.eq_nil_iff
  have noMutation := success.mutations.eq_nil_iff
  constructor
  case queries => exact success.queries.gathered
  case queryFields => rfl
  case mutations => exact success.mutations.gathered
  case mutationFields => rfl
  case queryObject => rfl
  case queryObject_fields =>
    unfold queryRootFields
    simp only [noQuery, operationsOf_eq_nil]
  case placeholder =>
    rw [← noQuery]
    unfold queryRootFields
    split
    · rename_i empty
      exact ⟨fun _ => empty, fun _ => List.mem_singleton.mpr rfl⟩
    · rename_i some
      have absent := success.queries.gathered.placeholder_not_mem placeholderName
      exact ⟨fun member => absurd member absent, fun empty => absurd empty some⟩
  case mutationRoot =>
    unfold schema
    split
    · rename_i empty
      simpa using noMutation.mp empty
    · rename_i some
      rw [noMutation] at some
      simpa using some
  case mutationObject =>
    intro root isRoot
    unfold schema at isRoot
    split at isRoot
    · cases isRoot
    · rename_i some
      cases isRoot
      rw [registered_eq, mutationRoots, if_neg some]
      simp

/-- The fields of the roots are the operations of the named entries: the first of a name gives the
place, the last everything else. -/
theorem assembled_of_build {schema : Schema ρ}
    (accepted : Schema.build registry config resolvers = .ok schema) :
    ∃ compiled, compile registry config resolvers = .ok compiled ∧
      Assembled config (declaredFields (namedEntries registry resolvers)) compiled schema := by
  obtain ⟨compiled, run, -, rfl⟩ := Schema.build_eq_ok.mp accepted
  exact ⟨compiled, run, (compile_eq_ok.mp run).assembled⟩

/-- Two resolvers with one query in common, which the first declares twice. -/
def overlap : List (Registration Nat) :=
  [.field .query (methodField "Left" "shared" "String"),
    .field .query (methodField "Left" "own" "Int"),
    .field .plain (methodField "Left" "detail" "Int"),
    .field .query (methodField "Left" "shared" "Boolean"),
    .resolver "Left" 1,
    .field .query (methodField "Right" "shared" "Float"),
    .field .mutation (methodField "Right" "shared" "Int"),
    .resolver "Right" 2]

theorem assembled_overlap : ∃ schema compiled,
    Schema.build (Registry.empty.replay .nothing overlap) {} ["Left", "Right", "Left"] = .ok schema ∧
      compile (Registry.empty.replay .nothing overlap) {} ["Left", "Right", "Left"] =
        .ok compiled ∧
      Assembled {} (declaredFields (namedEntries (Registry.empty.replay .nothing overlap)
        ["Left", "Right", "Left"])) compiled schema ∧
      schema.queryFields = ["shared", "own"] ∧ schema.mutationFields = ["shared"] := by
  have accepted : (Schema.build (Registry.empty.replay .nothing overlap) {}
      ["Left", "Right", "Left"]).map (fun schema => (schema.queryFields, schema.mutationFields)) =
        .ok (["shared", "own"], ["shared"]) := by
    decide +kernel
  obtain ⟨schema, run, same⟩ := map_eq_ok.mp accepted
  obtain ⟨queries, mutations⟩ := Prod.mk.inj same
  obtain ⟨compiled, compiledRun, assembled⟩ := assembled_of_build run
  exact ⟨schema, compiled, run, compiledRun, assembled, queries, mutations⟩

end CodeFirst.Compilation
