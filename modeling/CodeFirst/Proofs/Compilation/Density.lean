import CodeFirst.Proofs.Compilation.Acceptance
import CodeFirst.Proofs.Compilation.Closure
import CodeFirst.Proofs.Compilation.Culprits

/-! Gaps between argument positions. Strictness refuses those of the operations of named entries, and
changes nothing else; the lists of other methods may have gaps either way. -/
namespace CodeFirst.Compilation
open Outcome

variable {ρ α : Type} {registry : Registry ρ} {config : Config} {resolvers : List String}

/-- The argument lists of the operations of named entries have no gap. -/
def DenseOperations (registry : Registry ρ) (resolvers : List String) : Prop :=
  ∀ entry ∈ namedEntries registry resolvers, ∀ field ∈ entry.fields, field.kind ≠ .plain →
    none ∉ entry.slots field.name

/-- The first gap of a list is at this index. -/
def FirstGap (slots : List (Option Argument)) (index : Nat) : Prop :=
  slots[index]? = some none ∧ ∀ earlier < index, slots[earlier]? ≠ some none

theorem compileRoot_strict {operation : Entry ρ × Field} {item : String × OutputField ρ} :
    compileRoot true operation = .ok item ↔
      none ∉ operation.1.slots operation.2.name ∧ compileRoot false operation = .ok item := by
  simp only [compileRoot_eq_ok, bindOperation_eq_ok, compileOperation_eq_ok]
  constructor
  · rintro ⟨⟨resolver, bound, dense, compiled⟩, named⟩
    exact ⟨dense trivial, ⟨resolver, bound, nofun, compiled⟩, named⟩
  · rintro ⟨dense, ⟨resolver, bound, _, compiled⟩, named⟩
    exact ⟨⟨resolver, bound, fun _ => dense, compiled⟩, named⟩

theorem rooted_strict {kind : FieldKind} {declared : List (Entry ρ × Field)}
    {root : Keyed (OutputField ρ)} :
    Rooted true kind declared root ↔
      (∀ operation ∈ operationsOf kind declared, none ∉ operation.1.slots operation.2.name) ∧
        Rooted false kind declared root := by
  simp only [Rooted, mapM_eq_ok, compileRoot_strict, List.forall₂_and_left]
  constructor
  · rintro ⟨items, ⟨dense, compiled⟩, same⟩
    exact ⟨dense, items, compiled, same⟩
  · rintro ⟨dense, items, compiled, same⟩
    exact ⟨items, ⟨dense, compiled⟩, same⟩

/-- Strictness asks for dense operations, and what it compiles is the same as without it. -/
theorem compile_strict {compiled : Compiled ρ} :
    compile registry { config with strictArgumentIndices := true } resolvers = .ok compiled ↔
      DenseOperations registry resolvers ∧
        compile registry { config with strictArgumentIndices := false } resolvers =
          .ok compiled := by
  rw [compile_eq_ok, compile_eq_ok]
  constructor
  · intro success
    obtain ⟨denseQueries, queries⟩ := rooted_strict.mp success.queries
    obtain ⟨denseMutations, mutations⟩ := rooted_strict.mp success.mutations
    refine ⟨?_, success.valid, success.declared, success.outputs, success.inputs, queries,
      mutations, success.rooted⟩
    intro entry among field declared operation
    have member : (entry, field) ∈ declaredFields (namedEntries registry resolvers) :=
      mem_declaredFields.mpr ⟨among, declared⟩
    cases kind : field.kind with
    | plain => exact absurd kind operation
    | query => exact denseQueries _ (mem_operationsOf.mpr ⟨member, kind⟩)
    | mutation => exact denseMutations _ (mem_operationsOf.mpr ⟨member, kind⟩)
  · intro ⟨dense, success⟩
    have denseOf : ∀ kind, kind ≠ .plain →
        ∀ operation ∈ operationsOf kind (declaredFields (namedEntries registry resolvers)),
          none ∉ operation.1.slots operation.2.name := by
      intro kind isOperation operation member
      obtain ⟨listed, rfl⟩ := mem_operationsOf.mp member
      obtain ⟨among, declared⟩ := mem_declaredFields.mp listed
      exact dense _ among _ declared isOperation
    exact ⟨success.valid, success.declared, success.outputs, success.inputs,
      rooted_strict.mpr ⟨denseOf _ nofun, success.queries⟩,
      rooted_strict.mpr ⟨denseOf _ nofun, success.mutations⟩, success.rooted⟩

/-- Nothing stands against types whose entries can all be used. -/
theorem not_typeCulprit_of_usable {usage : Usage α} {names : List String} {error : BuildError}
    (usable : ∀ name, Reached registry names name →
      ∃ entry, registry.get? name = some entry ∧ Usable usage.isInput entry) :
    ¬ TypeCulprit usage registry names error := by
  intro culprit
  cases culprit with
  | undeclared reached undeclared =>
      obtain ⟨entry, found, usable⟩ := usable _ reached
      exact usable.declared (undeclared entry found)
  | misused reached found _ misused =>
      obtain ⟨entry, same, usable⟩ := usable _ reached
      cases found.symm.trans same
      exact misused usable.role
  | unhandled reached found declared unhandled =>
      obtain ⟨entry, same, usable⟩ := usable _ reached
      cases found.symm.trans same
      exact unhandled (usable.cataloged _ declared)
  | repeated reached found split earlier =>
      obtain ⟨entry, same, usable⟩ := usable _ reached
      cases found.symm.trans same
      have distinct := usable.distinct
      rw [← split, List.map_append, List.map_cons, List.nodup_append] at distinct
      exact distinct.2.2 _ earlier _ List.mem_cons_self rfl

/-- Where declarations are well formed without strictness, only a gap stands against them with it. -/
theorem Culprit.exists_gap {error : BuildError}
    (wellFormed : WellFormed registry { config with strictArgumentIndices := false } resolvers)
    (culprit : Culprit registry { config with strictArgumentIndices := true } resolvers error) :
    ∃ entry ∈ namedEntries registry resolvers, ∃ field ∈ entry.fields, ∃ index,
      field.kind ≠ .plain ∧ FirstGap (entry.slots field.name) index ∧
        error = .compile (.argumentGap field.owner field.name index) := by
  cases culprit with
  | configuration invalid => cases invalid.symm.trans wellFormed.valid
  | undeclared named undeclared => exact absurd (wellFormed.declared _ named) undeclared
  | output culprit => exact absurd culprit (not_typeCulprit_of_usable wellFormed.outputs)
  | input culprit => exact absurd culprit (not_typeCulprit_of_usable wellFormed.inputs)
  | @operation entry field _ among declared operation culprit =>
      have operable := wellFormed.operations entry among field declared operation
      cases culprit with
      | unbound unbound =>
          have bound := operable.bound
          rw [unbound] at bound
          cases bound
      | result unhandled => exact absurd operable.cataloged unhandled
      | argument member unhandled => exact absurd (operable.arguments _ member) unhandled
      | gap _ empty filled =>
          exact ⟨entry, among, field, declared, _, operation, ⟨empty, filled⟩, rfl⟩
  | rootless noPlaceholder noQuery =>
      rcases wellFormed.rooted with placeholder | ⟨entry, among, field, declared, kind⟩
      · cases noPlaceholder.symm.trans placeholder
      · exact absurd kind (noQuery entry among field declared)

/-- What strictness means for a compilation: operations without gaps, reported by the first gap of one
of them. It never looks at the argument lists of other methods. -/
structure Strictness (registry : Registry ρ) (config : Config) (resolvers : List String) :
    Prop where
  ok_iff : ∀ compiled,
    compile registry { config with strictArgumentIndices := true } resolvers = .ok compiled ↔
      DenseOperations registry resolvers ∧
        compile registry { config with strictArgumentIndices := false } resolvers = .ok compiled
  refused : ∀ compiled,
    compile registry { config with strictArgumentIndices := false } resolvers = .ok compiled →
    ¬ DenseOperations registry resolvers →
    ∃ entry ∈ namedEntries registry resolvers, ∃ field ∈ entry.fields, ∃ index,
      field.kind ≠ .plain ∧ FirstGap (entry.slots field.name) index ∧
        compile registry { config with strictArgumentIndices := true } resolvers =
          .error (.compile (.argumentGap field.owner field.name index))
  /-- Every position that a resolver gets a value at has a declared argument. -/
  positions : ∀ compiled,
    compile registry { config with strictArgumentIndices := true } resolvers = .ok compiled →
    ∀ kind name field, (name, field) ∈ compiled.roots.ofKind kind →
      ∀ resolver method names, field.source = .call resolver method names → none ∉ names

theorem strictness_compile (registry : Registry ρ) (config : Config) (resolvers : List String) :
    Strictness registry config resolvers := by
  constructor
  case ok_iff =>
    intro compiled
    exact compile_strict
  case refused =>
    intro compiled lenient sparse
    have wellFormed := (compile_eq_ok.mp lenient).wellFormed
    cases strict : compile registry { config with strictArgumentIndices := true } resolvers with
    | ok compiled => exact absurd (compile_strict.mp strict).1 sparse
    | error error =>
        obtain ⟨entry, among, field, declared, index, operation, gap, rfl⟩ :=
          (failsBy_compile _ _ _ strict).exists_gap wellFormed
        exact ⟨entry, among, field, declared, index, operation, gap, rfl⟩
  case positions =>
    intro compiled run kind name field member resolver method names called gap
    obtain ⟨operation, _, compiledRoot⟩ :=
      (compile_eq_ok.mp run).exists_lastOperation member
    obtain ⟨bound, _⟩ := compileRoot_eq_ok.mp compiledRoot
    obtain ⟨_, _, compiledOperation⟩ := bindOperation_eq_ok.mp bound
    obtain ⟨dense, _, _, _, _, rfl⟩ := compileOperation_eq_ok.mp compiledOperation
    cases called
    obtain ⟨slot, among, unnamed⟩ := List.mem_map.mp gap
    cases Option.map_eq_none_iff.mp unnamed
    exact dense rfl among

/-- A query, a method that is a plain field and one that is no field, both with a gap. -/
def helpers : List (Registration Unit) :=
  [.field .query (methodField "R" "q" "String"),
    .field .plain (methodField "R" "helper" "String"),
    .argument ⟨"R", "helper", 1, some "x", some "String"⟩,
    .argument ⟨"R", "other", 2, some "y", some "Int"⟩,
    .resolver "R" ()]

theorem sparse_helpers : ∃ compiled entry,
    compile (Registry.empty.replay .nothing helpers) { strictArgumentIndices := true } ["R"] =
        .ok compiled ∧
      (Registry.empty.replay .nothing helpers).get? "R" = some entry ∧
      Keyed.names entry.arguments = ["helper", "other"] ∧
      ∀ slots ∈ entry.arguments, none ∈ slots.2 := by
  have accepted : (compile (Registry.empty.replay .nothing helpers)
      { strictArgumentIndices := true } ["R"]).isOk = true := by
    decide +kernel
  have kept : ((Registry.empty.replay .nothing helpers).get? "R").map (fun entry =>
      (Keyed.names entry.arguments, entry.arguments.all fun slots => slots.2.contains none)) =
        some (["helper", "other"], true) := by
    decide +kernel
  obtain ⟨compiled, run⟩ := exists_of_isOk accepted
  obtain ⟨entry, found, same⟩ := Option.map_eq_some_iff.mp kept
  obtain ⟨names, sparse⟩ := Prod.mk.inj same
  refine ⟨compiled, entry, run, found, names, ?_⟩
  intro slots member
  exact List.contains_iff_mem.mp (List.all_eq_true.mp sparse slots member)

end CodeFirst.Compilation
