import CodeFirst.Proofs.Compilation.Fields

/-! Root fields: each operation compiles on its own, and of two with one kind and name the later
takes the place of the earlier. -/
namespace CodeFirst.Compilation
open Outcome

variable {ρ : Type}

/-- The argument of the schema that a declared argument becomes. -/
def compileArgument (argument : Argument) : Except BuildError (String × TypeRef) := do
  let base ← baseName argument.type argument.isCustom
  return (argument.name, .named base)

theorem compileArgument_eq_ok {argument : Argument} {item : String × TypeRef} :
    compileArgument argument = .ok item ↔
      ∃ base, baseName argument.type argument.isCustom = .ok base ∧
        (argument.name, .named base) = item := by
  simp only [compileArgument, bind_eq_ok, pure_eq_ok]

def declaredIn (slots : List (Option Argument)) : List Argument :=
  slots.filterMap id

theorem mem_declaredIn {slots : List (Option Argument)} {argument : Argument} :
    argument ∈ declaredIn slots ↔ some argument ∈ slots := by
  simp only [declaredIn, List.mem_filterMap, id, exists_eq_right]

theorem compileSlot_some {strict : Bool} {field : Field} {argument : Argument} {index : Nat}
    {done result : List (Option String) × Keyed TypeRef} :
    compileSlot strict field done (some argument, index) = .ok result ↔
      ∃ item, compileArgument argument = .ok item ∧
        (done.1 ++ [some argument.name], Keyed.put item.1 item.2 done.2) = result := by
  simp only [compileSlot, compileArgument, bind_eq_ok, pure_eq_ok]
  constructor
  · rintro ⟨base, named, same⟩
    exact ⟨_, ⟨base, named, rfl⟩, same⟩
  · rintro ⟨_, ⟨base, named, rfl⟩, same⟩
    exact ⟨base, named, same⟩

theorem compileSlot_none {strict : Bool} {field : Field} {index : Nat}
    {done result : List (Option String) × Keyed TypeRef} :
    compileSlot strict field done (none, index) = .ok result ↔
      strict = false ∧ (done.1 ++ [none], done.2) = result := by
  cases strict with
  | true =>
      constructor
      · intro run
        cases run
      · rintro ⟨lax, _⟩
        cases lax
  | false => simp only [compileSlot, Bool.false_eq_true, if_false, pure_eq_ok, true_and]

theorem foldlM_compileSlot_eq_ok {strict : Bool} {field : Field} {slots : List (Option Argument)}
    {start : Nat} {done result : List (Option String) × Keyed TypeRef} :
    (slots.zipIdx start).foldlM (compileSlot strict field) done = .ok result ↔
      (strict = true → none ∉ slots) ∧
        ∃ items, (declaredIn slots).mapM compileArgument = .ok items ∧
          (done.1 ++ slots.map (Option.map Argument.name), Keyed.putAll items done.2) = result := by
  induction slots generalizing start done with
  | nil =>
      rw [List.zipIdx_nil, foldlM_nil_eq_ok]
      simp [declaredIn, pure_eq_ok]
  | cons slot rest ih =>
      rw [List.zipIdx_cons, foldlM_cons_eq_ok]
      cases slot with
      | none =>
          simp only [compileSlot_none, ih]
          constructor
          · rintro ⟨_, ⟨rfl, rfl⟩, _, items, compiled, rfl⟩
            exact ⟨by simp, items, compiled, by simp⟩
          · rintro ⟨dense, items, compiled, rfl⟩
            have lax : strict = false := by
              cases strict with
              | true => exact absurd List.mem_cons_self (dense rfl)
              | false => rfl
            exact ⟨_, ⟨lax, rfl⟩, by simp [lax], items, compiled, by simp⟩
      | some argument =>
          have declared : declaredIn (some argument :: rest) = argument :: declaredIn rest := rfl
          simp only [compileSlot_some, ih, declared, mapM_eq_ok]
          constructor
          · rintro ⟨_, ⟨item, compiled, rfl⟩, dense, items, others, rfl⟩
            refine ⟨?_, item :: items, .cons compiled others, by simp⟩
            intro strict gap
            rcases List.mem_cons.mp gap with same | later
            · cases same
            · exact dense strict later
          · rintro ⟨dense, _, all, rfl⟩
            cases all with
            | @cons _ item _ items compiled others =>
                refine ⟨_, ⟨item, compiled, rfl⟩, ?_, items, others, by simp⟩
                exact fun strict gap => dense strict (List.mem_cons_of_mem _ gap)

/-- Slots compile if there is no gap or gaps are allowed and all declared arguments compile. The
positions keep the declared names. -/
theorem compileSlots_eq_ok {strict : Bool} {field : Field} {slots : List (Option Argument)}
    {result : List (Option String) × Keyed TypeRef} :
    compileSlots strict field slots = .ok result ↔
      (strict = true → none ∉ slots) ∧
        ∃ items, (declaredIn slots).mapM compileArgument = .ok items ∧
          (slots.map (Option.map Argument.name), Keyed.ofList items) = result :=
  foldlM_compileSlot_eq_ok

/-- What an operation compiles to takes everything from its own declaration. -/
theorem compileOperation_eq_ok {strict : Bool} {entry : Entry ρ} {resolver : ρ} {field : Field}
    {result : OutputField ρ} :
    compileOperation strict entry resolver field = .ok result ↔
      (strict = true → none ∉ entry.slots field.name) ∧
        ∃ type items, typeRef field = .ok type ∧
          (declaredIn (entry.slots field.name)).mapM compileArgument = .ok items ∧
          { type
            description := field.options.comment
            arguments := Keyed.ofList items
            source := .call resolver field.name
              ((entry.slots field.name).map (Option.map Argument.name)) } = result := by
  simp only [compileOperation, bind_eq_ok, pure_eq_ok, compileSlots_eq_ok]
  constructor
  · rintro ⟨type, named, _, ⟨dense, items, compiled, rfl⟩, same⟩
    exact ⟨dense, type, items, named, compiled, same⟩
  · rintro ⟨dense, type, items, named, compiled, same⟩
    exact ⟨type, named, _, ⟨dense, items, compiled, rfl⟩, same⟩

theorem bindOperation_eq_ok {strict : Bool} {entry : Entry ρ} {field : Field}
    {result : OutputField ρ} :
    bindOperation strict entry field = .ok result ↔
      ∃ resolver, entry.resolver = some resolver ∧
        compileOperation strict entry resolver field = .ok result := by
  unfold bindOperation
  cases entry.resolver with
  | none => simp
  | some resolver => simp

theorem mem_declaredFields {entries : List (Entry ρ)} {operation : Entry ρ × Field} :
    operation ∈ declaredFields entries ↔
      operation.1 ∈ entries ∧ operation.2 ∈ operation.1.fields := by
  obtain ⟨entry, field⟩ := operation
  simp only [declaredFields, List.mem_flatMap, List.mem_map, Prod.mk.injEq]
  constructor
  · rintro ⟨_, among, _, declared, rfl, rfl⟩
    exact ⟨among, declared⟩
  · rintro ⟨among, declared⟩
    exact ⟨entry, among, field, declared, rfl, rfl⟩

/-- The operations of a kind among declared fields, in order. -/
def operationsOf (kind : FieldKind) (declared : List (Entry ρ × Field)) : List (Entry ρ × Field) :=
  declared.filter fun operation => operation.2.kind = kind

theorem mem_operationsOf {kind : FieldKind} {declared : List (Entry ρ × Field)}
    {operation : Entry ρ × Field} :
    operation ∈ operationsOf kind declared ↔ operation ∈ declared ∧ operation.2.kind = kind := by
  simp only [operationsOf, List.mem_filter, decide_eq_true_eq]

def compileRoot (strict : Bool) (operation : Entry ρ × Field) :
    Except BuildError (String × OutputField ρ) := do
  let compiled ← bindOperation strict operation.1 operation.2
  return (operation.2.name, compiled)

theorem compileRoot_eq_ok {strict : Bool} {operation : Entry ρ × Field}
    {item : String × OutputField ρ} :
    compileRoot strict operation = .ok item ↔
      bindOperation strict operation.1 operation.2 = .ok item.2 ∧ operation.2.name = item.1 := by
  simp only [compileRoot, bind_eq_ok, pure_eq_ok]
  constructor
  · rintro ⟨_, bound, rfl⟩
    exact ⟨bound, rfl⟩
  · rintro ⟨bound, named⟩
    exact ⟨_, bound, Prod.ext named rfl⟩

theorem operationsOf_cons_self {kind : FieldKind} {operation : Entry ρ × Field}
    {rest : List (Entry ρ × Field)} (same : operation.2.kind = kind) :
    operationsOf kind (operation :: rest) = operation :: operationsOf kind rest :=
  List.filter_cons_of_pos (by simp [same])

theorem operationsOf_cons_of_ne {kind : FieldKind} {operation : Entry ρ × Field}
    {rest : List (Entry ρ × Field)} (differs : operation.2.kind ≠ kind) :
    operationsOf kind (operation :: rest) = operationsOf kind rest :=
  List.filter_cons_of_neg (by simp [differs])

theorem addOperation_plain {strict : Bool} {operation : Entry ρ × Field} {roots : Roots ρ}
    (kind : operation.2.kind = .plain) :
    addOperation strict roots operation.1 operation.2 = .ok roots := by
  rw [addOperation, kind]
  rfl

theorem addOperation_query {strict : Bool} {operation : Entry ρ × Field} {roots result : Roots ρ}
    (kind : operation.2.kind = .query) :
    addOperation strict roots operation.1 operation.2 = .ok result ↔
      ∃ item, compileRoot strict operation = .ok item ∧
        { roots with queries := Keyed.put item.1 item.2 roots.queries } = result := by
  simp only [addOperation, kind, compileRoot, bind_eq_ok, pure_eq_ok]
  constructor
  · rintro ⟨compiled, bound, same⟩
    exact ⟨_, ⟨compiled, bound, rfl⟩, same⟩
  · rintro ⟨_, ⟨compiled, bound, rfl⟩, same⟩
    exact ⟨compiled, bound, same⟩

theorem addOperation_mutation {strict : Bool} {operation : Entry ρ × Field}
    {roots result : Roots ρ} (kind : operation.2.kind = .mutation) :
    addOperation strict roots operation.1 operation.2 = .ok result ↔
      ∃ item, compileRoot strict operation = .ok item ∧
        { roots with mutations := Keyed.put item.1 item.2 roots.mutations } = result := by
  simp only [addOperation, kind, compileRoot, bind_eq_ok, pure_eq_ok]
  constructor
  · rintro ⟨compiled, bound, same⟩
    exact ⟨_, ⟨compiled, bound, rfl⟩, same⟩
  · rintro ⟨_, ⟨compiled, bound, rfl⟩, same⟩
    exact ⟨compiled, bound, same⟩

/-- Adding operations compiles those of each kind, and puts them in order into their root. -/
theorem addOperations_eq_ok {strict : Bool} {declared : List (Entry ρ × Field)}
    {roots result : Roots ρ} :
    declared.foldlM (fun roots operation => addOperation strict roots operation.1 operation.2)
        roots = .ok result ↔
      ∃ queries mutations,
        (operationsOf .query declared).mapM (compileRoot strict) = .ok queries ∧
        (operationsOf .mutation declared).mapM (compileRoot strict) = .ok mutations ∧
        ⟨Keyed.putAll queries roots.queries, Keyed.putAll mutations roots.mutations⟩ = result := by
  simp only [mapM_eq_ok]
  induction declared generalizing roots with
  | nil =>
      rw [foldlM_nil_eq_ok]
      constructor
      · rintro rfl
        exact ⟨[], [], .nil, .nil, rfl⟩
      · rintro ⟨_, _, queries, mutations, rfl⟩
        cases queries
        cases mutations
        rfl
  | cons operation rest ih =>
      rw [foldlM_cons_eq_ok]
      cases kind : operation.2.kind with
      | plain =>
          rw [addOperation_plain kind, operationsOf_cons_of_ne (by simp [kind]),
            operationsOf_cons_of_ne (by simp [kind]), ← ih]
          constructor
          · rintro ⟨_, same, run⟩
            cases same
            exact run
          · intro run
            exact ⟨roots, rfl, run⟩
      | query =>
          simp only [addOperation_query kind, ih]
          rw [operationsOf_cons_self kind, operationsOf_cons_of_ne (by simp [kind])]
          constructor
          · rintro ⟨_, ⟨item, compiled, rfl⟩, queries, mutations, allQueries, allMutations, same⟩
            exact ⟨item :: queries, mutations, .cons compiled allQueries, allMutations, same⟩
          · rintro ⟨_, mutations, all, allMutations, same⟩
            cases all with
            | cons compiled allQueries =>
                exact ⟨_, ⟨_, compiled, rfl⟩, _, mutations, allQueries, allMutations, same⟩
      | mutation =>
          simp only [addOperation_mutation kind, ih]
          rw [operationsOf_cons_self kind, operationsOf_cons_of_ne (by simp [kind])]
          constructor
          · rintro ⟨_, ⟨item, compiled, rfl⟩, queries, mutations, allQueries, allMutations, same⟩
            exact ⟨queries, item :: mutations, allQueries, .cons compiled allMutations, same⟩
          · rintro ⟨queries, _, allQueries, all, same⟩
            cases all with
            | cons compiled allMutations =>
                exact ⟨_, ⟨_, compiled, rfl⟩, queries, _, allQueries, allMutations, same⟩

/-- A root that holds the operations of a kind. -/
def Rooted (strict : Bool) (kind : FieldKind) (declared : List (Entry ρ × Field))
    (root : Keyed (OutputField ρ)) : Prop :=
  ∃ items, (operationsOf kind declared).mapM (compileRoot strict) = .ok items ∧
    Keyed.ofList items = root

/-- A root has the names of the operations of its kind, in the order in which they first come. -/
theorem Rooted.names_eq {strict : Bool} {kind : FieldKind} {declared : List (Entry ρ × Field)}
    {root : Keyed (OutputField ρ)} (rooted : Rooted strict kind declared root) :
    Keyed.names root = ((operationsOf kind declared).map (·.2.name)).eraseDups := by
  obtain ⟨items, run, rfl⟩ := rooted
  have named : Keyed.names items = (operationsOf kind declared).map (·.2.name) :=
    map_eq_of_mapM run fun operation item compiled => (compileRoot_eq_ok.mp compiled).2.symm
  rw [Keyed.names_ofList, named]

theorem Rooted.mem_names {strict : Bool} {kind : FieldKind} {declared : List (Entry ρ × Field)}
    {root : Keyed (OutputField ρ)} {name : String} (rooted : Rooted strict kind declared root) :
    name ∈ Keyed.names root ↔
      ∃ operation ∈ declared, operation.2.kind = kind ∧ operation.2.name = name := by
  rw [rooted.names_eq, List.mem_eraseDups]
  simp only [List.mem_map, mem_operationsOf, and_assoc]

/-- A root is empty exactly if there is no operation of its kind. -/
theorem Rooted.eq_nil_iff {strict : Bool} {kind : FieldKind} {declared : List (Entry ρ × Field)}
    {root : Keyed (OutputField ρ)} (rooted : Rooted strict kind declared root) :
    root = [] ↔ ∀ operation ∈ declared, operation.2.kind ≠ kind := by
  constructor
  · rintro rfl operation member same
    cases rooted.mem_names.mpr ⟨operation, member, same, rfl⟩
  · intro absent
    have unnamed : Keyed.names root = [] := by
      rw [List.eq_nil_iff_forall_not_mem]
      intro name member
      obtain ⟨operation, among, same, _⟩ := rooted.mem_names.mp member
      exact absent operation among same
    exact List.map_eq_nil_iff.mp unnamed

theorem Rooted.exists_operation {strict : Bool} {kind : FieldKind}
    {declared : List (Entry ρ × Field)} {root : Keyed (OutputField ρ)}
    {item : String × OutputField ρ} (rooted : Rooted strict kind declared root)
    (member : item ∈ root) :
    ∃ operation ∈ declared, operation.2.kind = kind ∧ compileRoot strict operation = .ok item := by
  obtain ⟨items, run, rfl⟩ := rooted
  rcases Keyed.mem_putAll member with member | impossible
  · obtain ⟨operation, among, compiled⟩ := exists_input_of_mapM run member
    obtain ⟨among, same⟩ := mem_operationsOf.mp among
    exact ⟨operation, among, same, compiled⟩
  · cases impossible

theorem Rooted.nodup {strict : Bool} {kind : FieldKind} {declared : List (Entry ρ × Field)}
    {root : Keyed (OutputField ρ)} (rooted : Rooted strict kind declared root) :
    (Keyed.names root).Nodup := by
  obtain ⟨items, _, rfl⟩ := rooted
  exact Keyed.nodup_names_putAll items List.nodup_nil

/-- The last operation of a kind that has a name. -/
def lastOperation? (kind : FieldKind) (declared : List (Entry ρ × Field)) (name : String) :
    Option (Entry ρ × Field) :=
  (operationsOf kind declared).reverse.find? (·.2.name = name)

theorem mem_of_lastOperation? {kind : FieldKind} {declared : List (Entry ρ × Field)}
    {name : String} {operation : Entry ρ × Field}
    (found : lastOperation? kind declared name = some operation) :
    operation ∈ declared ∧ operation.2.kind = kind ∧ operation.2.name = name := by
  have member := List.mem_reverse.mp (List.mem_of_find?_eq_some found)
  obtain ⟨among, same⟩ := mem_operationsOf.mp member
  exact ⟨among, same, by simpa using List.find?_some found⟩

section Last

variable {α β : Type} {change : α → Except BuildError (String × β)} {nameOf : α → String}
  {name : String} {item : β}

theorem exists_find?_of_lookup {inputs : List α} {items : Keyed β}
    (named : ∀ input item, change input = .ok item → nameOf input = item.1)
    (all : List.Forall₂ (fun input item => change input = .ok item) inputs items)
    (found : items.lookup name = some item) :
    ∃ input, inputs.find? (nameOf · = name) = some input ∧ change input = .ok (name, item) := by
  induction all with
  | nil => cases found
  | @cons input first _ _ changed _ ih =>
      have same := named input first changed
      rw [Keyed.lookup_cons_eq] at found
      split at found
      · rename_i first
        cases found
        subst first
        exact ⟨input, List.find?_cons_of_pos (by simpa using same), changed⟩
      · rename_i differs
        obtain ⟨last, among, changedLast⟩ := ih found
        rw [← same] at differs
        refine ⟨last, ?_, changedLast⟩
        rw [List.find?_cons_of_neg (by simpa using Ne.symm differs)]
        exact among

/-- Of what inputs become under one name, that of the last input stays. -/
theorem exists_last_of_lookup {inputs : List α} {items : List (String × β)}
    (named : ∀ input item, change input = .ok item → nameOf input = item.1)
    (run : inputs.mapM change = .ok items) (found : (Keyed.ofList items).lookup name = some item) :
    ∃ input, inputs.reverse.find? (nameOf · = name) = some input ∧
      change input = .ok (name, item) := by
  rw [Keyed.ofList, Keyed.lookup_putAll, List.lookup_nil, Option.or_none] at found
  exact exists_find?_of_lookup named (List.forall₂_reverse_iff.mpr (mapM_eq_ok.mp run)) found

end Last

/-- A root field is that of the last operation of its kind with its name. -/
theorem Rooted.exists_lastOperation {strict : Bool} {kind : FieldKind}
    {declared : List (Entry ρ × Field)} {root : Keyed (OutputField ρ)} {name : String}
    {field : OutputField ρ} (rooted : Rooted strict kind declared root)
    (member : (name, field) ∈ root) :
    ∃ operation, lastOperation? kind declared name = some operation ∧
      compileRoot strict operation = .ok (name, field) := by
  have found := Keyed.lookup_of_mem rooted.nodup member
  obtain ⟨items, run, rfl⟩ := rooted
  exact exists_last_of_lookup (fun _ _ compiled => (compileRoot_eq_ok.mp compiled).2) run found

end CodeFirst.Compilation
