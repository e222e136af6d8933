import CodeFirst.Proofs.Compilation.Success
import CodeFirst.Registration

/-! The types of a build are closed: the outputs and inputs are exactly what the named entries lead
to, and whatever a compiled field or argument refers to is there. -/
namespace CodeFirst.Compilation
open Outcome

variable {ρ α : Type} {usage : Usage α} {registry : Registry ρ}

theorem mem_customFieldTypes {entry : Entry ρ} {field : Field} (member : field ∈ entry.fields)
    (custom : field.isCustom = true) : field.type ∈ customFieldTypes entry :=
  List.mem_map.mpr ⟨field, List.mem_filter.mpr ⟨member, custom⟩, rfl⟩

theorem mem_customArgumentTypes {entry : Entry ρ} {method : String} {argument : Argument}
    (member : some argument ∈ entry.slots method) (custom : argument.isCustom = true) :
    argument.type ∈ customArgumentTypes entry := by
  unfold Entry.slots at member
  cases found : entry.arguments.lookup method with
  | none =>
      rw [found] at member
      cases member
  | some slots =>
      rw [found] at member
      have listed : slots ∈ Keyed.values entry.arguments :=
        List.mem_map.mpr ⟨(method, slots), Keyed.mem_of_lookup found, rfl⟩
      refine List.mem_map.mpr ⟨argument, List.mem_filter.mpr ⟨?_, custom⟩, rfl⟩
      exact List.mem_flatMap.mpr ⟨slots, listed, mem_declaredIn.mpr member⟩

/-- A name that a type may refer to: that of a built-in scalar or one of the names that are known. -/
def Refers (known : List String) (name : String) : Prop :=
  name ∈ scalarNames ∨ name ∈ known

theorem refers_of_baseName {known : List String} {type base : String} {isCustom : Bool}
    (named : baseName type isCustom = .ok base) (composite : isCustom = true → type ∈ known) :
    Refers known base := by
  rcases baseName_cases named with ⟨custom, rfl⟩ | scalar
  · exact Or.inr (composite custom)
  · exact Or.inl scalar

/-- The items of a compiled type come from the fields of its entry, and refer to known names. -/
theorem Compiles.refers {names : List String} {after : Memo α} {type : String × Keyed α}
    {item : String × α} (run : Compiles usage registry {} names after)
    (member : type ∈ after.compiled) (among : item ∈ type.2) :
    ∃ field ref, (field.name, usage.field field ref) = item ∧
      Refers (Keyed.names after.compiled) ref.base := by
  obtain ⟨entry, found, fits⟩ := run.fits_of_mem member
  obtain ⟨_, attached⟩ := attachFields_nil_eq_ok.mp fits.attached
  obtain ⟨field, declared, compiled⟩ := exists_input_of_mapM attached among
  obtain ⟨ref, named, same⟩ := compileField_eq_ok.mp compiled
  refine ⟨field, ref, same, refers_of_baseName (typeRef_eq_ok named) fun custom => ?_⟩
  have reached := run.mem_names_iff.mp (Keyed.mem_names.mpr ⟨_, member⟩)
  exact run.mem_names_iff.mpr (.field reached found (mem_customFieldTypes declared custom))

/-- What a run compiles in full is declared, and has the role of its usage. -/
theorem Compiles.role {names : List String} {name : String} {after : Memo α}
    (run : Compiles usage registry {} names after) (reached : Reached registry names name) :
    ∃ entry, registry.get? name = some entry ∧ entry.fields ≠ [] ∧
      entry.isInput = usage.isInput := by
  obtain ⟨fields, member⟩ := Keyed.mem_names.mp (run.mem_names_iff.mpr reached)
  obtain ⟨entry, found, fits⟩ := run.fits_of_mem member
  exact ⟨entry, found, fits.declared, fits.role⟩

/-- A root field refers to composite types of the fields and arguments of its entry. -/
theorem compileRoot_refers {strict : Bool} {operation : Entry ρ × Field}
    {item : String × OutputField ρ} (declared : operation.2 ∈ operation.1.fields)
    (compiled : compileRoot strict operation = .ok item) :
    Refers (customFieldTypes operation.1) item.2.type.base ∧
      ∀ argument ∈ item.2.arguments, Refers (customArgumentTypes operation.1) argument.2.base := by
  obtain ⟨bound, -⟩ := compileRoot_eq_ok.mp compiled
  obtain ⟨resolver, -, bound⟩ := bindOperation_eq_ok.mp bound
  obtain ⟨-, type, items, named, arguments, same⟩ := compileOperation_eq_ok.mp bound
  rw [← same]
  constructor
  · exact refers_of_baseName (typeRef_eq_ok named) (mem_customFieldTypes declared)
  · intro argument member
    rcases Keyed.mem_putAll member with member | impossible
    · obtain ⟨given, slotted, compiled⟩ := exists_input_of_mapM arguments member
      obtain ⟨base, named, rfl⟩ := compileArgument_eq_ok.mp compiled
      exact refers_of_baseName named (mem_customArgumentTypes (mem_declaredIn.mp slotted))
    · cases impossible

theorem mem_registered {config : Config} {compiled : Compiled ρ} {type : String × SchemaType ρ}
    (member : type ∈ registered config compiled) :
    type = (config.queryRoot, .object [(placeholderName, placeholder)]) ∨
      type = (config.queryRoot, .object compiled.roots.queries) ∨
      type = (config.mutationRoot, .object compiled.roots.mutations) ∨
      (∃ output ∈ compiled.types.outputs, type = (output.1, .object output.2)) ∨
      ∃ input ∈ compiled.types.inputs, type = (input.1, .input input.2) := by
  simp only [registered, List.cons_append, List.mem_cons, List.mem_append, List.mem_map] at member
  rcases member with rfl | (mutation | ⟨output, among, rfl⟩) | ⟨input, among, rfl⟩
  · split
    · exact Or.inl rfl
    · exact Or.inr (Or.inl rfl)
  · split at mutation
    · cases mutation
    · exact Or.inr (Or.inr (Or.inl (List.mem_singleton.mp mutation)))
  · exact Or.inr (Or.inr (Or.inr (Or.inl ⟨output, among, rfl⟩)))
  · exact Or.inr (Or.inr (Or.inr (Or.inr ⟨input, among, rfl⟩)))

/-- The outputs and inputs are the least sets that the named entries require, each name once, with
entries of the right role; no run leaves a type pending; and every type that is registered refers
to nothing but built-in scalars, outputs from its fields and inputs from its arguments. -/
structure ExactClosure (registry : Registry ρ) (config : Config) (resolvers : List String)
    (compiled : Compiled ρ) : Prop where
  outputs_nodup : (Keyed.names compiled.types.outputs).Nodup
  mem_outputs : ∀ name, name ∈ Keyed.names compiled.types.outputs ↔
    Reached registry (outputRoots registry resolvers) name
  inputs_nodup : (Keyed.names compiled.types.inputs).Nodup
  mem_inputs : ∀ name, name ∈ Keyed.names compiled.types.inputs ↔
    Reached registry (inputRoots registry resolvers) name
  output_role : ∀ name, Reached registry (outputRoots registry resolvers) name →
    ∃ entry, registry.get? name = some entry ∧ entry.fields ≠ [] ∧ entry.isInput = false
  input_role : ∀ name, Reached registry (inputRoots registry resolvers) name →
    ∃ entry, registry.get? name = some entry ∧ entry.fields ≠ [] ∧ entry.isInput = true
  disjoint : ∀ name, Reached registry (outputRoots registry resolvers) name →
    ¬ Reached registry (inputRoots registry resolvers) name
  outputs_settled : Compiles .output registry {} (outputRoots registry resolvers)
    { compiled := compiled.types.outputs, pending := [] }
  inputs_settled : Compiles .input registry {} (inputRoots registry resolvers)
    { compiled := compiled.types.inputs, pending := [] }
  object_refers : ∀ name fields, (name, .object fields) ∈ registered config compiled →
    ∀ field ∈ fields, Refers (Keyed.names compiled.types.outputs) field.2.type.base ∧
      ∀ argument ∈ field.2.arguments, Refers (Keyed.names compiled.types.inputs) argument.2.base
  input_refers : ∀ name fields, (name, .input fields) ∈ registered config compiled →
    ∀ field ∈ fields, Refers (Keyed.names compiled.types.inputs) field.2.type.base

theorem Refers.mono {known more : List String} {name : String} (refers : Refers known name)
    (kept : ∀ other ∈ known, other ∈ more) : Refers more name :=
  refers.imp_right (kept name)

section Built

variable {config : Config} {resolvers : List String} {compiled : Compiled ρ}

theorem Success.nodup_outputs (success : Success registry config resolvers compiled) :
    (Keyed.names compiled.types.outputs).Nodup :=
  success.outputs.nodup List.nodup_nil

theorem Success.nodup_inputs (success : Success registry config resolvers compiled) :
    (Keyed.names compiled.types.inputs).Nodup :=
  success.inputs.nodup List.nodup_nil

theorem Success.mem_outputs (success : Success registry config resolvers compiled) {name : String} :
    name ∈ Keyed.names compiled.types.outputs ↔
      Reached registry (outputRoots registry resolvers) name :=
  success.outputs.mem_names_iff

theorem Success.mem_inputs (success : Success registry config resolvers compiled) {name : String} :
    name ∈ Keyed.names compiled.types.inputs ↔
      Reached registry (inputRoots registry resolvers) name :=
  success.inputs.mem_names_iff

/-- No type is compiled both as an output and as an input, since its entry has one role. -/
theorem Success.disjoint (success : Success registry config resolvers compiled) {name : String}
    (output : name ∈ Keyed.names compiled.types.outputs) :
    name ∉ Keyed.names compiled.types.inputs := by
  intro input
  obtain ⟨entry, found, _, role⟩ := success.outputs.role (success.mem_outputs.mp output)
  obtain ⟨other, same, _, otherRole⟩ := success.inputs.role (success.mem_inputs.mp input)
  cases found.symm.trans same
  cases role.symm.trans otherRole

theorem Success.root_refers (success : Success registry config resolvers compiled)
    {kind : FieldKind} {root : Keyed (OutputField ρ)} {item : String × OutputField ρ}
    (rooted : Rooted config.strictArgumentIndices kind
      (declaredFields (namedEntries registry resolvers)) root) (member : item ∈ root) :
    Refers (Keyed.names compiled.types.outputs) item.2.type.base ∧
      ∀ argument ∈ item.2.arguments,
        Refers (Keyed.names compiled.types.inputs) argument.2.base := by
  obtain ⟨operation, declared, _, compiledRoot⟩ := rooted.exists_operation member
  obtain ⟨among, declared⟩ := mem_declaredFields.mp declared
  obtain ⟨type, arguments⟩ := compileRoot_refers declared compiledRoot
  constructor
  · refine type.mono fun other custom => success.mem_outputs.mpr (.root ?_)
    exact List.mem_flatMap.mpr ⟨_, among, custom⟩
  · intro argument given
    refine (arguments argument given).mono fun other custom => success.mem_inputs.mpr (.root ?_)
    exact List.mem_flatMap.mpr ⟨_, among, custom⟩

theorem Success.object_refers (success : Success registry config resolvers compiled)
    {name : String} {fields : Keyed (OutputField ρ)}
    (member : (name, .object fields) ∈ registered config compiled) {field : String × OutputField ρ}
    (among : field ∈ fields) :
    Refers (Keyed.names compiled.types.outputs) field.2.type.base ∧
      ∀ argument ∈ field.2.arguments,
        Refers (Keyed.names compiled.types.inputs) argument.2.base := by
  rcases mem_registered member with same | same | same | ⟨output, found, same⟩ | ⟨input, _, same⟩
  · cases same
    cases List.mem_singleton.mp among
    exact ⟨Or.inl (show "String" ∈ scalarNames by decide), by simp [placeholder]⟩
  · cases same
    exact success.root_refers success.queries among
  · cases same
    exact success.root_refers success.mutations among
  · cases same
    obtain ⟨_, ref, rfl, refers⟩ := success.outputs.refers found among
    exact ⟨refers, by simp [Usage.output]⟩
  · cases same

theorem Success.input_refers (success : Success registry config resolvers compiled)
    {name : String} {fields : Keyed InputField}
    (member : (name, .input fields) ∈ registered config compiled) {field : String × InputField}
    (among : field ∈ fields) :
    Refers (Keyed.names compiled.types.inputs) field.2.type.base := by
  rcases mem_registered member with same | same | same | ⟨output, _, same⟩ | ⟨input, found, same⟩
  · cases same
  · cases same
  · cases same
  · cases same
  · cases same
    obtain ⟨_, ref, rfl, refers⟩ := success.inputs.refers found among
    exact refers

theorem exactClosure_of_compile (run : compile registry config resolvers = .ok compiled) :
    ExactClosure registry config resolvers compiled := by
  have success := compile_eq_ok.mp run
  exact {
    outputs_nodup := success.nodup_outputs
    mem_outputs := fun _ => success.mem_outputs
    inputs_nodup := success.nodup_inputs
    mem_inputs := fun _ => success.mem_inputs
    output_role := fun _ => success.outputs.role
    input_role := fun _ => success.inputs.role
    disjoint := fun _ output input =>
      success.disjoint (success.mem_outputs.mpr output) (success.mem_inputs.mpr input)
    outputs_settled := success.outputs
    inputs_settled := success.inputs
    object_refers := fun _ _ member _ => success.object_refers member
    input_refers := fun _ _ member _ => success.input_refers member }

end Built

/-- A field of a named type, declared on a method. -/
def methodField (owner member type : String) : FieldDeclaration where
  owner := owner
  member := member
  memberKind := .method
  returns := some (.named type)

/-- Books and authors refer to each other, and a filter to itself. -/
def library : List (Registration Unit) :=
  [.role "Book" false,
    .field .plain (methodField "Book" "author" "Author"),
    .field .plain (methodField "Book" "pages" "Int"),
    .field .plain (methodField "Author" "books" "Book"),
    .role "Filter" true,
    .field .plain { methodField "Filter" "also" "Filter" with options := some { nullable := true } },
    .field .query (methodField "Library" "book" "Book"),
    .argument ⟨"Library", "book", 1, some "filter", some "Filter"⟩,
    .resolver "Library" ()]

theorem exactClosure_library :
    ∃ compiled, compile (Registry.empty.replay .nothing library) {} ["Library", "Library"] =
        .ok compiled ∧
      ExactClosure (Registry.empty.replay .nothing library) {} ["Library", "Library"] compiled := by
  have accepted :
      (compile (Registry.empty.replay .nothing library) {} ["Library", "Library"]).isOk = true := by
    decide +kernel
  obtain ⟨compiled, run⟩ := exists_of_isOk accepted
  exact ⟨compiled, run, exactClosure_of_compile run⟩

end CodeFirst.Compilation
