import CodeFirst.Proofs.Compilation.Success

/-! What a compilation reads of a registry: the entries of the named resolvers, and of every name that
they lead to the fields and the role. Registries that agree there compile alike, errors included. -/
namespace CodeFirst
open Outcome

/-- A field as a type has it, of which it does not matter whether it is an operation. -/
def Field.asMember (field : Field) : Field :=
  { field with kind := .plain }

/-- An entry as a type: its fields, of whatever kind, and whether it is an input. -/
def Entry.asType {ρ : Type} (entry : Entry ρ) : List Field × Bool :=
  (entry.fields.map Field.asMember, entry.isInput)

namespace Compilation

variable {ρ α δ : Type} {usage : Usage α} {registry other : Registry ρ}

/-- The items of a type do not depend on the kinds of its fields. -/
def Usage.IgnoresKind (usage : Usage α) : Prop :=
  ∀ (field : Field) (type : TypeRef), usage.field field.asMember type = usage.field field type

theorem ignoresKind_output : (Usage.output (ρ := ρ)).IgnoresKind := by
  intro field type
  rfl

theorem ignoresKind_input : Usage.input.IgnoresKind := by
  intro field type
  rfl

section Fields

variable {compile replaced : String → δ → Except BuildError δ} {declared others : List Field}

theorem attachField_asMember (ignores : usage.IgnoresKind) (fields : Keyed α) (field : Field) :
    attachField usage fields field.asMember = attachField usage fields field := by
  have items : usage.field field.asMember = usage.field field := by
    funext type
    exact ignores field type
  unfold attachField
  rw [items]
  rfl

theorem memberStep_asMember (ignores : usage.IgnoresKind) (done : Keyed α × δ) (field : Field) :
    memberStep usage compile done field.asMember = memberStep usage compile done field := by
  unfold memberStep
  rw [attachField_asMember ignores]
  rfl

/-- Fields that differ at most in their kinds compile alike, if the types do that they refer to. -/
theorem foldlM_memberStep_congr (ignores : usage.IgnoresKind)
    (same : declared.map Field.asMember = others.map Field.asMember)
    (types : ∀ type ∈ customTypes declared, ∀ done, compile type done = replaced type done)
    (start : Keyed α × δ) :
    declared.foldlM (memberStep usage compile) start =
      others.foldlM (memberStep usage replaced) start := by
  have members : ∀ fields : List Field,
      fields.foldlM (memberStep usage replaced) start =
        (fields.map Field.asMember).foldlM (memberStep usage replaced) start := by
    intro fields
    rw [List.foldlM_map]
    apply foldlM_congr
    intro field _ done
    exact (memberStep_asMember ignores done field).symm
  rw [members others, ← same, ← members declared]
  apply foldlM_congr
  intro field member done
  unfold memberStep
  cases custom : field.isCustom with
  | false => rfl
  | true =>
      have referred : field.type ∈ customTypes declared :=
        List.mem_map.mpr ⟨field, List.mem_filter.mpr ⟨member, custom⟩, rfl⟩
      rw [types field.type referred]

end Fields

/-- What a name stands for as a type, if it has an entry. -/
def typeOf (registry : Registry ρ) (name : String) : Option (List Field × Bool) :=
  (registry.get? name).map Entry.asType

section Types

theorem compileType_congr (ignores : usage.IgnoresKind) {path : List String} {name : String}
    {done : Keyed (Keyed α)}
    (agree : ∀ next, Reached registry [name] next → typeOf registry next = typeOf other next) :
    compileType usage registry path name done = compileType usage other path name done := by
  induction path using path_induction registry generalizing name done with
  | each path ih =>
      by_cases has : Memo.Has ⟨done, path⟩ name
      · rw [compileType_of_has has, compileType_of_has has]
      have same := agree name (.root List.mem_cons_self)
      unfold typeOf at same
      cases found : registry.get? name with
      | none =>
          rw [found, Option.map_none, eq_comm, Option.map_eq_none_iff] at same
          rw [compileType_of_absent has found, compileType_of_absent has same]
      | some entry =>
          rw [found, Option.map_some, eq_comm, Option.map_eq_some_iff] at same
          obtain ⟨entry', found', same⟩ := same
          obtain ⟨fields, role⟩ := Prod.mk.inj same
          have empty : entry.fields = [] ↔ entry'.fields = [] := by
            rw [← List.map_eq_nil_iff (f := Field.asMember), ← fields, List.map_eq_nil_iff]
          have fresh : name ∉ path := fun pending => has (Or.inr pending)
          have inner : entry.fields.foldlM
              (memberStep usage (compileType usage registry (name :: path))) ([], done) =
                entry'.fields.foldlM
                  (memberStep usage (compileType usage other (name :: path))) ([], done) := by
            apply foldlM_memberStep_congr ignores fields.symm
            intro type referred inside
            apply ih name entry found fresh
            intro next reached
            apply agree
            apply reached.trans
            intro first member
            cases List.mem_singleton.mp member
            exact .field (.root List.mem_cons_self) found referred
          rw [compileType_of_get? has found, compileType_of_get? has found', inner]
          simp only [empty, role]

theorem compileTypes_congr (ignores : usage.IgnoresKind) {path names : List String}
    {done : Keyed (Keyed α)}
    (agree : ∀ next, Reached registry names next → typeOf registry next = typeOf other next) :
    compileTypes usage registry path names done = compileTypes usage other path names done := by
  apply foldlM_congr
  intro name member done
  apply compileType_congr ignores
  intro next reached
  apply agree
  apply reached.mono
  intro first single
  cases List.mem_singleton.mp single
  exact member

end Types

/-- Registries that have the same entries for the named resolvers, and the same types wherever these
lead in the first of them. -/
structure Agrees (registry other : Registry ρ) (resolvers : List String) : Prop where
  named : ∀ name ∈ resolvers, registry.get? name = other.get? name
  outputs : ∀ name, Reached registry (outputRoots registry resolvers) name →
    typeOf registry name = typeOf other name
  inputs : ∀ name, Reached registry (inputRoots registry resolvers) name →
    typeOf registry name = typeOf other name

section Agrees

variable {resolvers : List String}

theorem Agrees.of_get? (named : ∀ name ∈ resolvers, registry.get? name = other.get? name)
    (referred : ∀ name, Referred registry resolvers name → registry.get? name = other.get? name) :
    Agrees registry other resolvers where
  named := named
  outputs name output := congrArg (Option.map Entry.asType) (referred name (Or.inl output))
  inputs name input := congrArg (Option.map Entry.asType) (referred name (Or.inr input))

theorem resolverEntries_congr (named : ∀ name ∈ resolvers, registry.get? name = other.get? name) :
    resolverEntries registry resolvers = resolverEntries other resolvers := by
  apply mapM_congr
  intro name member
  rw [named name member]

theorem compileReferenced_congr (agree : Agrees registry other resolvers) {entry : Entry ρ}
    (among : entry ∈ namedEntries registry resolvers) (types : Types ρ) :
    compileReferenced registry types entry = compileReferenced other types entry := by
  unfold compileReferenced
  have outputs : compileTypes .output registry [] (customFieldTypes entry) types.outputs =
      compileTypes .output other [] (customFieldTypes entry) types.outputs := by
    apply compileTypes_congr ignoresKind_output
    intro next reached
    apply agree.outputs
    apply reached.mono
    intro first member
    exact List.mem_flatMap.mpr ⟨entry, among, member⟩
  have inputs : compileTypes .input registry [] (customArgumentTypes entry) types.inputs =
      compileTypes .input other [] (customArgumentTypes entry) types.inputs := by
    apply compileTypes_congr ignoresKind_input
    intro next reached
    apply agree.inputs
    apply reached.mono
    intro first member
    exact List.mem_flatMap.mpr ⟨entry, among, member⟩
  rw [outputs, inputs]

/-- Whatever a compilation ends with, it ends so with every registry that agrees. -/
theorem compile_congr (agree : Agrees registry other resolvers) (config : Config) :
    compile registry config resolvers = compile other config resolvers := by
  have types : ∀ entries, resolverEntries other resolvers = .ok entries →
      entries.foldlM (compileReferenced registry) {} =
        entries.foldlM (compileReferenced other) {} := by
    intro entries run
    rw [← resolverEntries_congr agree.named] at run
    obtain ⟨-, rfl⟩ := resolverEntries_eq_ok.mp run
    apply foldlM_congr
    intro entry among types
    exact compileReferenced_congr agree among types
  unfold compile
  -- The resolvers that are left out may differ, but nothing is made of them.
  rw [resolverEntries_congr agree.named]
  cases run : resolverEntries other resolvers with
  | error error => rfl
  | ok entries =>
      -- What the entries refer to is compiled alike, and nothing behind it reads a registry.
      simp only [types entries run, bind, Except.bind]

theorem build_congr (agree : Agrees registry other resolvers) (config : Config) :
    Schema.build registry config resolvers = Schema.build other config resolvers := by
  unfold Schema.build
  rw [compile_congr agree config]

end Agrees

end Compilation

end CodeFirst
