import CodeFirst.Proofs.Execution.Alignment

/-! What becomes of the parameters of an operation. The schema has one argument for each name, of the
type of the last parameter that has it, and every parameter of the name gets the value of that. -/
namespace CodeFirst.Execution
open Outcome Compilation

variable {ρ : Type}

/-- The declared argument that the schema has under a name. -/
def lastNamed? (slots : List (Option Argument)) (name : String) : Option Argument :=
  (declaredIn slots).reverse.find? (·.name = name)

/-- Each position with a declared argument has an argument of the schema to itself, and that has the
type that is declared at the position. -/
structure OwnArguments (slots : List (Option Argument)) (names : List (Option String))
    (arguments : Keyed TypeRef) : Prop where
  apart : ∀ (index other : Nat) (name : String), names[index]? = some (some name) →
    names[other]? = some (some name) → index = other
  typed : ∀ (index : Nat) (argument : Argument), slots[index]? = some (some argument) →
    ∃ name base, names[index]? = some (some name) ∧
      baseName argument.type argument.isCustom = .ok base ∧
      arguments.lookup name = some (.named base)

/-- Names of positions are distinct if no two positions have one. -/
theorem nodup_filterMap_iff {names : List (Option String)} :
    (names.filterMap id).Nodup ↔
      ∀ (index other : Nat) (name : String), names[index]? = some (some name) →
        names[other]? = some (some name) → index = other := by
  rw [List.Nodup, List.pairwise_filterMap, List.pairwise_iff_getElem]
  constructor
  · intro distinct index other name first second
    obtain ⟨below, found⟩ := List.getElem?_eq_some_iff.mp first
    obtain ⟨otherBelow, same⟩ := List.getElem?_eq_some_iff.mp second
    rcases Nat.lt_trichotomy index other with before | rfl | behind
    · exact absurd rfl (distinct index other below otherBelow before name found name same)
    · rfl
    · exact absurd rfl (distinct other index otherBelow below behind name same name found)
  · intro apart index other below otherBelow before name found more same
    rintro rfl
    have one := apart index other name (List.getElem?_eq_some_iff.mpr ⟨below, found⟩)
      (List.getElem?_eq_some_iff.mpr ⟨otherBelow, same⟩)
    omega

theorem filterMap_names (slots : List (Option Argument)) :
    (slots.map (Option.map Argument.name)).filterMap id =
      (declaredIn slots).map (·.name) := by
  rw [declaredIn, List.filterMap_map, List.map_filterMap]
  rfl

theorem name_of_compileArgument {argument : Argument} {item : String × TypeRef}
    (compiled : compileArgument argument = .ok item) : argument.name = item.1 := by
  obtain ⟨_, -, rfl⟩ := compileArgument_eq_ok.mp compiled
  rfl

section Slots

variable {slots : List (Option Argument)} {items : List (String × TypeRef)} {argument : Argument}
  {index : Nat}

/-- The arguments of the schema have the names of the declared ones, each once. -/
theorem names_of_compileArguments (run : (declaredIn slots).mapM compileArgument = .ok items) :
    Keyed.names (Keyed.ofList items) = ((declaredIn slots).map (·.name)).eraseDups := by
  have names : Keyed.names items = (declaredIn slots).map (·.name) :=
    map_eq_of_mapM run fun _ _ compiled => (name_of_compileArgument compiled).symm
  rw [Keyed.names_ofList, names]

/-- An argument of the schema has the type of the last declared one of its name. -/
theorem exists_lastNamed (run : (declaredIn slots).mapM compileArgument = .ok items)
    (declared : some argument ∈ slots) :
    ∃ last base, lastNamed? slots argument.name = some last ∧
      baseName last.type last.isCustom = .ok base ∧
      (Keyed.ofList items).lookup argument.name = some (.named base) := by
  have present : argument.name ∈ Keyed.names (Keyed.ofList items) := by
    rw [names_of_compileArguments run, List.mem_eraseDups]
    exact List.mem_map.mpr ⟨argument, mem_declaredIn.mpr declared, rfl⟩
  obtain ⟨type, found⟩ := Option.isSome_iff_exists.mp (Keyed.isSome_lookup.mpr present)
  obtain ⟨last, isLast, compiled⟩ :=
    exists_last_of_lookup (fun _ _ => name_of_compileArgument) run found
  obtain ⟨base, based, same⟩ := compileArgument_eq_ok.mp compiled
  rw [← (Prod.mk.inj same).2] at found
  exact ⟨last, base, isLast, based, found⟩

/-- Where names are distinct, the last declared argument of a name is the only one. -/
theorem lastNamed?_of_nodup (distinct : ((declaredIn slots).map (·.name)).Nodup)
    (declared : some argument ∈ slots) : lastNamed? slots argument.name = some argument := by
  have among := mem_declaredIn.mpr declared
  unfold lastNamed?
  cases found : (declaredIn slots).reverse.find? (·.name = argument.name) with
  | none =>
      have absent := List.find?_eq_none.mp found argument (List.mem_reverse.mpr among)
      simp at absent
  | some last =>
      have member := List.mem_reverse.mp (List.mem_of_find?_eq_some found)
      have same : last.name = argument.name := by simpa using List.find?_some found
      rw [List.inj_on_of_nodup_map distinct member among same]

/-- Parameters have arguments of their own exactly if no two of them have one name. -/
theorem ownArguments_iff (run : (declaredIn slots).mapM compileArgument = .ok items) :
    OwnArguments slots (slots.map (Option.map Argument.name)) (Keyed.ofList items) ↔
      ((declaredIn slots).map (·.name)).Nodup := by
  rw [← filterMap_names]
  constructor
  · intro own
    exact nodup_filterMap_iff.mpr own.apart
  · intro distinct
    refine ⟨nodup_filterMap_iff.mp distinct, ?_⟩
    rw [filterMap_names] at distinct
    intro index argument declared
    have member := List.mem_of_getElem? declared
    obtain ⟨last, base, isLast, based, found⟩ := exists_lastNamed run member
    cases (lastNamed?_of_nodup distinct member).symm.trans isLast
    refine ⟨argument.name, base, ?_, based, found⟩
    rw [List.getElem?_map, declared]
    rfl

theorem value_align (submitted : Keyed Value) (declared : slots[index]? = some (some argument)) :
    (align (slots.map (Option.map Argument.name)) submitted).value index =
      ((submitted.lookup argument.name).map Value.toJson).getD .null := by
  unfold align Arguments.value
  rw [List.map_map, List.getElem?_map, declared]
  simp only [Option.map_some, Function.comp_apply, Option.bind_some, Option.getD_some]
  cases submitted.lookup argument.name with
  | none => rfl
  | some value => rfl

end Slots

/-- What an operation makes of the declared arguments in its slots. -/
structure Parameters (slots : List (Option Argument)) (resolver : ρ) (method : String)
    (field : OutputField ρ) : Prop where
  source : field.source = .call resolver method (slots.map (Option.map Argument.name))
  names : Keyed.names field.arguments = ((declaredIn slots).map (·.name)).eraseDups
  typed : ∀ argument, some argument ∈ slots →
    ∃ last base, lastNamed? slots argument.name = some last ∧
      baseName last.type last.isCustom = .ok base ∧
      field.arguments.lookup argument.name = some (.named base)
  call : Calls field resolver method (align (slots.map (Option.map Argument.name)))
  received : ∀ (submitted : Keyed Value) (index : Nat) (argument : Argument),
    slots[index]? = some (some argument) →
      (align (slots.map (Option.map Argument.name)) submitted).value index =
        ((submitted.lookup argument.name).map Value.toJson).getD .null
  own_iff : OwnArguments slots (slots.map (Option.map Argument.name)) field.arguments ↔
    ((declaredIn slots).map (·.name)).Nodup

theorem parameters_of_compileOperation {strict : Bool} {entry : Entry ρ} {resolver : ρ}
    {operation : Field} {field : OutputField ρ}
    (compiled : compileOperation strict entry resolver operation = .ok field) :
    Parameters (entry.slots operation.name) resolver operation.name field := by
  obtain ⟨-, type, items, -, run, rfl⟩ := compileOperation_eq_ok.mp compiled
  constructor
  case source => rfl
  case names => exact names_of_compileArguments run
  case typed => exact fun argument => exists_lastNamed run
  case call => exact calls_of_source rfl
  case received => exact fun submitted index argument => value_align submitted
  case own_iff => exact ownArguments_iff run

/-- The parameters of each root field are those in the slots of its operation. -/
theorem parameters_of_compile {registry : Registry ρ} {config : Config} {resolvers : List String}
    {compiled : Compiled ρ} {kind : FieldKind} {name : String} {field : OutputField ρ}
    (run : compile registry config resolvers = .ok compiled)
    (member : (name, field) ∈ compiled.roots.ofKind kind) :
    ∃ entry operation resolver,
      lastOperation? kind (declaredFields (namedEntries registry resolvers)) name =
          some (entry, operation) ∧
      entry.resolver = some resolver ∧ Parameters (entry.slots name) resolver name field := by
  obtain ⟨⟨entry, operation⟩, last, compiledRoot⟩ :=
    (compile_eq_ok.mp run).exists_lastOperation member
  obtain ⟨-, -, named⟩ := mem_of_lastOperation? last
  obtain ⟨resolver, bound, compiledOperation⟩ :=
    bindOperation_eq_ok.mp (compileRoot_eq_ok.mp compiledRoot).1
  have parameters := parameters_of_compileOperation compiledOperation
  rw [named] at parameters
  exact ⟨entry, operation, resolver, last, bound, parameters⟩

/-- A query with two parameters of one name. -/
def namesakes : List (Registration Unit) :=
  [.field .query (methodField "R" "q" "String"),
    .argument ⟨"R", "q", 0, some "a", some "String"⟩,
    .argument ⟨"R", "q", 1, some "a", some "Int"⟩,
    .resolver "R" ()]

theorem parameters_namesakes : ∃ compiled field,
    compile (Registry.empty.replay .nothing namesakes) {} ["R"] = .ok compiled ∧
      ("q", field) ∈ compiled.roots.ofKind .query ∧
      ∃ slots resolver, Parameters slots resolver "q" field := by
  have accepted : (compile (Registry.empty.replay .nothing namesakes) {} ["R"]).map
      (fun compiled => ((compiled.roots.ofKind .query).lookup "q").isSome) = .ok true := by
    decide +kernel
  obtain ⟨compiled, run, present⟩ := map_eq_ok.mp accepted
  obtain ⟨field, found⟩ := Option.isSome_iff_exists.mp present
  have member := Keyed.mem_of_lookup found
  obtain ⟨entry, _, resolver, _, _, parameters⟩ := parameters_of_compile run member
  exact ⟨compiled, field, run, member, _, resolver, parameters⟩

/-- The method that a field calls, with the names of its positions. -/
def called? (field : OutputField ρ) : Option (String × List (Option String)) :=
  match field.source with
  | .call _ method names => some (method, names)
  | .member _ => none
  | .nothing => none

theorem exists_source_of_called? {field : OutputField ρ} {method : String}
    {names : List (Option String)} (called : called? field = some (method, names)) :
    ∃ resolver, field.source = .call resolver method names := by
  unfold called? at called
  split at called
  · rename_i resolver _ _ source
    cases called
    exact ⟨resolver, source⟩
  · cases called
  · cases called

/-- A build serves one argument of the type of the later parameter, and gives its value to both. -/
theorem merged_namesakes : ∃ schema compiled entry field,
    Schema.build (Registry.empty.replay .nothing namesakes) {} ["R"] = .ok schema ∧
      compile (Registry.empty.replay .nothing namesakes) {} ["R"] = .ok compiled ∧
      (Registry.empty.replay .nothing namesakes).get? "R" = some entry ∧
      ("q", field) ∈ compiled.roots.ofKind .query ∧
      field.source = .call () "q" [some "a", some "a"] ∧
      field.arguments = [("a", .named "Int")] ∧
      (entry.slots "q").map (Option.map (·.type)) = [some "String", some "Int"] ∧
      align [some "a", some "a"] [("a", .boolean true)] = ⟨[.boolean true, .boolean true]⟩ ∧
      ¬ OwnArguments (entry.slots "q") [some "a", some "a"] field.arguments := by
  have accepted : (Schema.build (Registry.empty.replay .nothing namesakes) {} ["R"]).isOk = true := by
    decide +kernel
  have merged : (compile (Registry.empty.replay .nothing namesakes) {} ["R"]).map (fun compiled =>
      ((compiled.roots.ofKind .query).lookup "q").map (·.arguments)) =
        .ok (some [("a", .named "Int")]) := by
    decide +kernel
  have called : (compile (Registry.empty.replay .nothing namesakes) {} ["R"]).map (fun compiled =>
      ((compiled.roots.ofKind .query).lookup "q").bind called?) =
        .ok (some ("q", [some "a", some "a"])) := by
    decide +kernel
  have kept : ((Registry.empty.replay .nothing namesakes).get? "R").map (fun entry =>
      (entry.slots "q").map (Option.map (·.type))) = some [some "String", some "Int"] := by
    decide +kernel
  obtain ⟨schema, built⟩ := exists_of_isOk accepted
  obtain ⟨compiled, run, same⟩ := map_eq_ok.mp merged
  obtain ⟨field, found, arguments⟩ := Option.map_eq_some_iff.mp same
  rw [run, Except.map, found] at called
  obtain ⟨_, source⟩ := exists_source_of_called? (Except.ok.inj called)
  obtain ⟨entry, stands, types⟩ := Option.map_eq_some_iff.mp kept
  refine ⟨schema, compiled, entry, field, built, run, stands, Keyed.mem_of_lookup found, source,
    arguments, types, rfl, ?_⟩
  intro own
  cases own.apart 0 1 "a" rfl rfl

end CodeFirst.Execution
