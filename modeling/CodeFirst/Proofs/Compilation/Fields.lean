import CodeFirst.Proofs.Keyed
import CodeFirst.Proofs.Outcome
import CodeFirst.Schema.Compilation

/-! The fields of one type. They compile exactly if no two have one name and the catalog knows the
types that are not composite. -/
namespace CodeFirst.Compilation
open Outcome

variable {ρ α : Type}

/-- A type that is not composite stands in the catalog of scalars. -/
def Cataloged (type : String) (isCustom : Bool) : Prop :=
  isCustom = false → (Scalar.ofName? type).isSome

/-- The built-in scalars that the catalog maps to. -/
def scalarNames : List String :=
  ["String", "Int", "Float", "Boolean"]

theorem builtin_mem_scalarNames (scalar : Scalar) : scalar.builtin ∈ scalarNames := by
  cases scalar <;> decide

theorem exists_baseName {type : String} {isCustom : Bool} :
    (∃ base, baseName type isCustom = .ok base) ↔ Cataloged type isCustom := by
  cases isCustom with
  | true => simp [baseName, Cataloged]
  | false =>
      simp only [baseName, Cataloged, Bool.false_eq_true, if_false, forall_const]
      cases Scalar.ofName? type <;> simp

/-- The name is the declared one for a composite type and else a built-in scalar. -/
theorem baseName_cases {type base : String} {isCustom : Bool}
    (h : baseName type isCustom = .ok base) :
    isCustom = true ∧ base = type ∨ base ∈ scalarNames := by
  cases isCustom with
  | true =>
      cases h
      exact Or.inl ⟨rfl, rfl⟩
  | false =>
      simp only [baseName, Bool.false_eq_true, if_false] at h
      split at h
      · cases h
        exact Or.inr (builtin_mem_scalarNames _)
      · cases h

theorem typeRef_eq_ok {field : Field} {type : TypeRef} (h : typeRef field = .ok type) :
    baseName field.type field.isCustom = .ok type.base := by
  obtain ⟨base, named, wrapped⟩ := bind_eq_ok.mp h
  rw [named, ← pure_eq_ok.mp wrapped]
  split <;> split <;> rfl

theorem exists_typeRef {field : Field} :
    (∃ type, typeRef field = .ok type) ↔ Cataloged field.type field.isCustom := by
  rw [← exists_baseName]
  constructor
  · rintro ⟨type, h⟩
    exact ⟨type.base, typeRef_eq_ok h⟩
  · rintro ⟨base, named⟩
    exact ⟨_, bind_eq_ok.mpr ⟨base, named, rfl⟩⟩

/-- The item of a type that a declared field becomes. -/
def compileField (usage : Usage α) (field : Field) : Except BuildError (String × α) := do
  let type ← typeRef field
  return (field.name, usage.field field type)

theorem compileField_eq_ok {usage : Usage α} {field : Field} {item : String × α} :
    compileField usage field = .ok item ↔
      ∃ type, typeRef field = .ok type ∧ (field.name, usage.field field type) = item := by
  simp only [compileField, bind_eq_ok, pure_eq_ok]

theorem attachField_eq_ok {usage : Usage α} {fields result : Keyed α} {field : Field} :
    attachField usage fields field = .ok result ↔
      ∃ item, compileField usage field = .ok item ∧ field.name ∉ Keyed.names fields ∧
        fields ++ [item] = result := by
  simp only [attachField, compileField, bind_eq_ok, pure_eq_ok, attach]
  constructor
  · rintro ⟨type, named, added⟩
    split at added
    · cases added
    · rename_i fresh
      cases added
      rw [Keyed.isSome_lookup] at fresh
      exact ⟨_, ⟨type, named, rfl⟩, fresh, rfl⟩
  · rintro ⟨_, ⟨type, named, rfl⟩, fresh, rfl⟩
    rw [← Keyed.isSome_lookup] at fresh
    exact ⟨type, named, if_neg fresh⟩

/-- Fields are attached in order, if their names are new and distinct. -/
theorem attachFields_eq_ok {usage : Usage α} {declared : List Field} {fields result : Keyed α} :
    declared.foldlM (attachField usage) fields = .ok result ↔
      (declared.map (·.name)).Nodup ∧ (∀ field ∈ declared, field.name ∉ Keyed.names fields) ∧
        ∃ items, declared.mapM (compileField usage) = .ok items ∧ fields ++ items = result := by
  induction declared generalizing fields with
  | nil =>
      rw [foldlM_nil_eq_ok]
      constructor
      · rintro rfl
        exact ⟨List.nodup_nil, by simp, [], rfl, List.append_nil fields⟩
      · rintro ⟨_, _, items, run, rfl⟩
        cases mapM_eq_ok.mp run
        exact (List.append_nil fields).symm
  | cons field rest ih =>
      simp only [foldlM_cons_eq_ok, attachField_eq_ok, ih, mapM_eq_ok, List.map_cons,
        List.nodup_cons, List.forall_mem_cons]
      constructor
      · rintro ⟨_, ⟨item, compiled, fresh, rfl⟩, distinct, others, items, all, rfl⟩
        have named : item.1 = field.name := by
          obtain ⟨type, _, rfl⟩ := compileField_eq_ok.mp compiled
          rfl
        simp only [Keyed.names_append, List.mem_append, not_or] at others
        refine ⟨⟨?_, distinct⟩, ⟨fresh, fun other member => (others other member).1⟩,
          item :: items, .cons compiled all, by simp⟩
        intro repeated
        obtain ⟨other, member, same⟩ := List.mem_map.mp repeated
        exact (others other member).2 (by simp [named, same])
      · rintro ⟨⟨unique, distinct⟩, ⟨fresh, others⟩, _, all, rfl⟩
        cases all with
        | @cons _ item _ items compiled all =>
            have named : item.1 = field.name := by
              obtain ⟨type, _, rfl⟩ := compileField_eq_ok.mp compiled
              rfl
            refine ⟨_, ⟨item, compiled, fresh, rfl⟩, distinct, ?_, items, all, by simp⟩
            intro other member repeated
            rw [Keyed.names_append, List.mem_append] at repeated
            rcases repeated with before | same
            · exact others other member before
            · have same : other.name = field.name := by simpa [named] using same
              exact unique (List.mem_map.mpr ⟨other, member, same⟩)

/-- All fields of a type are attached if their names are distinct. -/
theorem attachFields_nil_eq_ok {usage : Usage α} {declared : List Field} {fields : Keyed α} :
    declared.foldlM (attachField usage) [] = .ok fields ↔
      (declared.map (·.name)).Nodup ∧ declared.mapM (compileField usage) = .ok fields := by
  rw [attachFields_eq_ok]
  constructor
  · rintro ⟨distinct, _, items, run, rfl⟩
    exact ⟨distinct, run⟩
  · rintro ⟨distinct, run⟩
    exact ⟨distinct, by simp, fields, run, rfl⟩

end CodeFirst.Compilation
