import CodeFirst.Proofs.Compilation.Success

/-! Why declarations do not compile. Whatever error a compilation ends with, there is something in the
registry or in the configuration that it is about. -/
namespace CodeFirst.Compilation
open Outcome

variable {ρ α : Type} {registry : Registry ρ}

/-- What can stand against the compilation of the types that names lead to. -/
inductive TypeCulprit (usage : Usage α) (registry : Registry ρ) (names : List String) :
    BuildError → Prop
  | undeclared {name} : Reached registry names name →
      (∀ entry, registry.get? name = some entry → entry.fields = []) →
      TypeCulprit usage registry names (.compile (.typeWithoutField name))
  | misused {name entry} : Reached registry names name → registry.get? name = some entry →
      entry.fields ≠ [] → entry.isInput ≠ usage.isInput →
      TypeCulprit usage registry names (.compile (usage.misuse name))
  | unhandled {name entry field} : Reached registry names name →
      registry.get? name = some entry → field ∈ entry.fields →
      ¬ Cataloged field.type field.isCustom →
      TypeCulprit usage registry names (.compile (.unhandledScalar field.type))
  | repeated {name entry before field after} : Reached registry names name →
      registry.get? name = some entry → before ++ field :: after = entry.fields →
      field.name ∈ before.map (·.name) →
      TypeCulprit usage registry names (.repeatedField field.name)

/-- What can stand against the compilation of an operation of an entry. -/
inductive OperationCulprit (strict : Bool) (entry : Entry ρ) (field : Field) : BuildError → Prop
  | unbound : entry.resolver = none →
      OperationCulprit strict entry field
        (.compile (.noResolver entry.name field.kind.word field.name))
  | result : ¬ Cataloged field.type field.isCustom →
      OperationCulprit strict entry field (.compile (.unhandledScalar field.type))
  | argument {argument} : some argument ∈ entry.slots field.name →
      ¬ Cataloged argument.type argument.isCustom →
      OperationCulprit strict entry field (.compile (.unhandledScalar argument.type))
  | gap {index} : strict = true → (entry.slots field.name)[index]? = some none →
      (∀ earlier < index, (entry.slots field.name)[earlier]? ≠ some none) →
      OperationCulprit strict entry field
        (.compile (.argumentGap field.owner field.name index))

/-- What can stand against the compilation of named resolvers. -/
inductive Culprit (registry : Registry ρ) (config : Config) (resolvers : List String) :
    BuildError → Prop
  | configuration {error} : config.validate = .error error →
      Culprit registry config resolvers (.configuration error.message)
  | undeclared {name} : name ∈ resolvers → ¬ Declared registry name →
      Culprit registry config resolvers (.compile (.typeWithoutField name))
  | output {error} :
      TypeCulprit (ρ := ρ) Usage.output registry (outputRoots registry resolvers) error →
      Culprit registry config resolvers error
  | input {error} : TypeCulprit Usage.input registry (inputRoots registry resolvers) error →
      Culprit registry config resolvers error
  | operation {entry field error} : entry ∈ namedEntries registry resolvers →
      field ∈ entry.fields → field.kind ≠ .plain →
      OperationCulprit config.strictArgumentIndices entry field error →
      Culprit registry config resolvers error
  | rootless : config.placeholderQuery = false →
      (∀ entry ∈ namedEntries registry resolvers, ∀ field ∈ entry.fields, field.kind ≠ .query) →
      Culprit registry config resolvers (.compile .noQueryFields)

section Fields

variable {cause : BuildError → Prop} {usage : Usage α}

theorem failsBy_baseName {type : String} {isCustom : Bool}
    (unhandled : ¬ Cataloged type isCustom → cause (.compile (.unhandledScalar type))) :
    FailsBy cause (baseName type isCustom) := by
  by_cases cataloged : Cataloged type isCustom
  · obtain ⟨base, named⟩ := exists_baseName.mpr cataloged
    rw [named]
    exact failsBy_ok base
  · unfold baseName
    split
    · exact failsBy_ok type
    · split
      · exact failsBy_ok _
      · exact failsBy_error (unhandled cataloged)

theorem failsBy_typeRef {field : Field}
    (unhandled : ¬ Cataloged field.type field.isCustom →
      cause (.compile (.unhandledScalar field.type))) :
    FailsBy cause (typeRef field) := by
  apply (failsBy_baseName unhandled).bind
  exact fun base _ => failsBy_ok _

theorem failsBy_attachField {fields : Keyed α} {field : Field}
    (unhandled : ¬ Cataloged field.type field.isCustom →
      cause (.compile (.unhandledScalar field.type)))
    (repeated : field.name ∈ Keyed.names fields → cause (.repeatedField field.name)) :
    FailsBy cause (attachField usage fields field) := by
  apply (failsBy_typeRef unhandled).bind
  intro type _
  unfold attach
  split
  · rename_i found
    exact failsBy_error (repeated (Keyed.isSome_lookup.mp found))
  · exact failsBy_ok _

/-- Attached fields have the names of their declarations. -/
theorem names_of_attachFields {declared : List Field} {fields : Keyed α}
    (run : declared.foldlM (attachField usage) [] = .ok fields) :
    Keyed.names fields = declared.map (·.name) := by
  obtain ⟨-, compiled⟩ := attachFields_nil_eq_ok.mp run
  apply map_eq_of_mapM compiled
  intro field item done
  obtain ⟨type, -, rfl⟩ := compileField_eq_ok.mp done
  rfl

/-- The fields of a type fail by the types that they refer to, by one that the catalog does not have,
or by a name that an earlier one has. -/
theorem failsBy_compileFields {δ : Type} {compile : String → δ → Except BuildError δ}
    {declared : List Field} {start : δ}
    (types : ∀ type ∈ customTypes declared, ∀ done, FailsBy cause (compile type done))
    (unhandled : ∀ field ∈ declared, ¬ Cataloged field.type field.isCustom →
      cause (.compile (.unhandledScalar field.type)))
    (repeated : ∀ before field after, before ++ field :: after = declared →
      field.name ∈ before.map (·.name) → cause (.repeatedField field.name)) :
    FailsBy cause (declared.foldlM (memberStep usage compile) ([], start)) := by
  apply failsBy_foldlM
  intro before field after ⟨fields, done⟩ split run
  have member : field ∈ declared := by simp [← split]
  have attached := (compileFields_eq_ok.mp run).1
  have attaches : ∀ middle : δ, FailsBy cause (do
      let more ← attachField usage fields field
      return (more, middle)) := by
    intro middle
    refine FailsBy.bind ?_ fun more _ => failsBy_ok (more, middle)
    apply failsBy_attachField (unhandled field member)
    rw [names_of_attachFields attached]
    exact repeated before field after split
  unfold memberStep
  cases custom : field.isCustom with
  | false =>
      simp only [Bool.false_eq_true, if_false]
      exact attaches done
  | true =>
      have referred : field.type ∈ customTypes declared :=
        List.mem_map.mpr ⟨field, List.mem_filter.mpr ⟨member, custom⟩, rfl⟩
      simp only [if_true]
      exact (types field.type referred done).bind fun middle _ => attaches middle

end Fields

section Types

variable {usage : Usage α} {roots : List String}

theorem failsBy_compileType {path : List String} {name : String} {done : Keyed (Keyed α)}
    (reached : Reached registry roots name) :
    FailsBy (TypeCulprit usage registry roots) (compileType usage registry path name done) := by
  induction path using path_induction registry generalizing name done with
  | each path ih =>
      by_cases has : Memo.Has ⟨done, path⟩ name
      · rw [compileType_of_has has]
        exact failsBy_ok done
      cases found : registry.get? name with
      | none =>
          rw [compileType_of_absent has found]
          apply failsBy_error
          apply TypeCulprit.undeclared reached
          intro entry same
          cases found.symm.trans same
      | some entry =>
          rw [compileType_of_get? has found]
          split
          · rename_i empty
            apply failsBy_error
            apply TypeCulprit.undeclared reached
            intro other same
            cases found.symm.trans same
            exact empty
          rename_i declared
          split
          · rename_i misused
            exact failsBy_error (.misused reached found declared misused)
          have fresh : name ∉ path := fun pending => has (Or.inr pending)
          apply FailsBy.bind
          · apply failsBy_compileFields
            · intro type referred done
              exact ih name entry found fresh (reached.field found referred)
            · exact fun field => .unhandled reached found
            · exact fun before field after => .repeated reached found
          · exact fun _ _ => failsBy_ok _

theorem failsBy_compileTypes {path names : List String} {done : Keyed (Keyed α)}
    (among : ∀ name ∈ names, name ∈ roots) :
    FailsBy (TypeCulprit usage registry roots) (compileTypes usage registry path names done) := by
  apply failsBy_foldlM
  intro before name after done split _
  apply failsBy_compileType
  exact .root (among name (by simp [← split]))

end Types

section Operations

variable {cause : BuildError → Prop} {strict : Bool} {entry : Entry ρ} {field : Field}

/-- Slots fail by the first gap, if gaps are not allowed, or by an argument. -/
theorem failsBy_compileSlots {slots : List (Option Argument)} {start : Nat}
    {done : List (Option String) × Keyed TypeRef}
    (gap : ∀ index, strict = true → slots[index]? = some none →
      (∀ earlier < index, slots[earlier]? ≠ some none) →
      cause (.compile (.argumentGap field.owner field.name (start + index))))
    (unhandled : ∀ argument, some argument ∈ slots →
      ¬ Cataloged argument.type argument.isCustom →
      cause (.compile (.unhandledScalar argument.type))) :
    FailsBy cause ((slots.zipIdx start).foldlM (compileSlot strict field) done) := by
  induction slots generalizing start done with
  | nil => exact failsBy_ok done
  | cons slot rest ih =>
      rw [List.zipIdx_cons, List.foldlM_cons]
      apply FailsBy.bind
      · cases slot with
        | none =>
            simp only [compileSlot]
            split
            · rename_i strict
              exact failsBy_error (gap 0 strict rfl fun _ below => absurd below (Nat.not_lt_zero _))
            · exact failsBy_ok _
        | some argument =>
            simp only [compileSlot]
            apply FailsBy.bind
            · exact failsBy_baseName (unhandled argument List.mem_cons_self)
            · exact fun base _ => failsBy_ok _
      · intro middle run
        apply ih
        · intro index strict empty filled
          have shifted : start + 1 + index = start + (index + 1) := by omega
          rw [shifted]
          apply gap (index + 1) strict empty
          intro earlier below
          cases earlier with
          | zero =>
              -- A gap in front would have ended the run.
              intro first
              cases first
              cases strict
              cases run
          | succ earlier => exact filled earlier (by omega)
        · exact fun argument member => unhandled argument (List.mem_cons_of_mem _ member)

theorem failsBy_bindOperation :
    FailsBy (OperationCulprit strict entry field) (bindOperation strict entry field) := by
  unfold bindOperation
  split
  · rename_i unbound
    exact failsBy_error (.unbound unbound)
  · refine (failsBy_typeRef fun unhandled => .result unhandled).bind fun type _ => ?_
    refine FailsBy.bind ?_ fun _ _ => failsBy_ok _
    apply failsBy_compileSlots
    · intro index
      rw [Nat.zero_add]
      exact .gap
    · exact fun argument => .argument

theorem failsBy_addOperation {roots : Roots ρ}
    (caused : field.kind ≠ .plain → ∀ error, OperationCulprit strict entry field error →
      cause error) :
    FailsBy cause (addOperation strict roots entry field) := by
  unfold addOperation
  cases kind : field.kind with
  | plain => exact failsBy_ok roots
  | query =>
      apply FailsBy.bind
      · exact failsBy_bindOperation.mono (caused (by simp [kind]))
      · exact fun _ _ => failsBy_ok _
  | mutation =>
      apply FailsBy.bind
      · exact failsBy_bindOperation.mono (caused (by simp [kind]))
      · exact fun _ _ => failsBy_ok _

end Operations

theorem failsBy_resolverEntries {cause : BuildError → Prop} {resolvers : List String}
    (undeclared : ∀ name ∈ resolvers, ¬ Declared registry name →
      cause (.compile (.typeWithoutField name))) :
    FailsBy cause (resolverEntries registry resolvers) := by
  apply failsBy_mapM
  intro name member
  split
  · rename_i absent
    apply failsBy_error
    apply undeclared name member
    intro ⟨entry, found, _⟩
    cases absent.symm.trans found
  · rename_i entry found
    split
    · rename_i empty
      apply failsBy_error
      apply undeclared name member
      intro ⟨other, same, declared⟩
      cases found.symm.trans same
      exact declared empty
    · exact failsBy_ok entry

/-- What entries refer to fails by one of the types that they lead to. -/
theorem failsBy_compileReferenced {cause : BuildError → Prop} {resolvers : List String}
    (output : ∀ error,
      TypeCulprit (Usage.output (ρ := ρ)) registry (outputRoots registry resolvers) error →
        cause error)
    (input : ∀ error, TypeCulprit Usage.input registry (inputRoots registry resolvers) error →
      cause error) :
    FailsBy cause ((namedEntries registry resolvers).foldlM (compileReferenced registry) {}) := by
  apply failsBy_foldlM
  intro before entry after types split _
  have among : entry ∈ namedEntries registry resolvers := by simp [← split]
  apply FailsBy.bind
  · refine (failsBy_compileTypes fun name member => ?_).mono output
    exact List.mem_flatMap.mpr ⟨entry, among, member⟩
  intro outputs _
  apply FailsBy.bind
  · refine (failsBy_compileTypes fun name member => ?_).mono input
    exact List.mem_flatMap.mpr ⟨entry, among, member⟩
  · exact fun inputs _ => failsBy_ok _

/-- Whether an error is about the roots, and not about the types that entries refer to. -/
def concernsRoots : CompileError → Bool
  | .noResolver .. => true
  | .argumentGap .. => true
  | .noQueryFields => true
  | _ => false

theorem TypeCulprit.not_concernsRoots {usage : Usage α} {names : List String} {error : CompileError}
    (misuse : ∀ name, concernsRoots (usage.misuse name) = false)
    (culprit : TypeCulprit usage registry names (.compile error)) : concernsRoots error = false := by
  generalize same : BuildError.compile error = failed at culprit
  cases culprit with
  | undeclared =>
      cases same
      rfl
  | misused =>
      cases same
      exact misuse _
  | unhandled =>
      cases same
      rfl
  | repeated => cases same

/-- The types that entries refer to need no operations. -/
theorem not_concernsRoots_of_compileReferenced {resolvers : List String} {error : CompileError}
    (failed : (namedEntries registry resolvers).foldlM (compileReferenced registry) {} =
      .error (.compile error)) : concernsRoots error = false := by
  have fails : FailsBy (fun failed => ∀ error, failed = .compile error → concernsRoots error = false)
      ((namedEntries registry resolvers).foldlM (compileReferenced registry) {}) := by
    apply failsBy_compileReferenced
    · rintro _ culprit error rfl
      exact culprit.not_concernsRoots fun _ => rfl
    · rintro _ culprit error rfl
      exact culprit.not_concernsRoots fun _ => rfl
  exact fails _ failed error rfl

/-- A compilation that fails has a culprit. -/
theorem failsBy_compile (config : Config) (resolvers : List String) :
    FailsBy (Culprit registry config resolvers) (compile registry config resolvers) := by
  unfold compile
  cases valid : config.validate with
  | error error => exact failsBy_error (.configuration valid)
  | ok =>
      apply FailsBy.bind
      · exact failsBy_resolverEntries fun name => .undeclared
      intro entries run
      obtain ⟨-, rfl⟩ := resolverEntries_eq_ok.mp run
      apply FailsBy.bind
      · exact failsBy_compileReferenced (fun _ => .output) (fun _ => .input)
      intro types _
      apply FailsBy.bind
      · apply failsBy_foldlM
        intro before operation after roots split _
        have member : operation ∈ declaredFields (namedEntries registry resolvers) := by
          simp [← split]
        obtain ⟨among, declared⟩ := mem_declaredFields.mp member
        exact failsBy_addOperation fun kind error => .operation among declared kind
      intro roots run
      split
      · rename_i rootless
        obtain ⟨queries, _, compiled, _, rfl⟩ := addOperations_eq_ok.mp run
        have rooted : Rooted config.strictArgumentIndices .query
            (declaredFields (namedEntries registry resolvers)) [] := ⟨queries, compiled, rootless.1⟩
        apply failsBy_error
        apply Culprit.rootless
        · simpa using rootless.2
        · intro entry among field declared
          exact rooted.eq_nil_iff.mp rfl (entry, field) (mem_declaredFields.mpr ⟨among, declared⟩)
      · exact failsBy_ok _

end CodeFirst.Compilation
