import CodeFirst.Declaration.Processing
import CodeFirst.Proofs.Outcome

/-! What processing gives. A declaration that obeys the rules becomes a record in normal form, whose
type stands under its canonical name and is composite exactly if the catalog does not have it. -/
namespace CodeFirst
open Outcome

namespace Scalar

/-- The canonical names of all scalars. -/
def catalog : List String :=
  all.map name

theorem name_mem_catalog (scalar : Scalar) : scalar.name ∈ catalog := by
  cases scalar <;> decide

theorem ofName?_name (scalar : Scalar) : ofName? scalar.name = some scalar := by
  cases scalar <;> rfl

theorem ofName?_of_mem_catalog {name : String} (member : name ∈ catalog) :
    ∃ scalar, ofName? name = some scalar := by
  obtain ⟨scalar, -, rfl⟩ := List.mem_map.mp member
  exact ⟨scalar, ofName?_name scalar⟩

end Scalar

theorem classify_of_scalar {name : String} {scalar : Scalar}
    (known : Scalar.ofName? name = some scalar) : classify name = (scalar.name, false) := by
  unfold classify Scalar.canonicalName?
  rw [known]
  rfl

theorem classify_of_composite {name : String} (unknown : Scalar.ofName? name = none) :
    classify name = (name, true) := by
  unfold classify Scalar.canonicalName?
  rw [unknown]
  rfl

/-- A type is not composite exactly if it is kept under a name of the catalog. -/
theorem classify_cataloged (name : String) :
    (classify name).2 = false ↔ (classify name).1 ∈ Scalar.catalog := by
  cases known : Scalar.ofName? name with
  | some scalar =>
      rw [classify_of_scalar known]
      exact iff_of_true rfl scalar.name_mem_catalog
  | none =>
      rw [classify_of_composite known]
      refine iff_of_false Bool.noConfusion fun member => ?_
      obtain ⟨scalar, found⟩ := Scalar.ofName?_of_mem_catalog member
      cases known.symm.trans found

/-- Only the scalar of no value is kept under its name. -/
theorem ofName?_of_classify_void {name : String} (void : (classify name).1 = Scalar.void.name) :
    Scalar.ofName? name = some .void := by
  cases known : Scalar.ofName? name with
  | some scalar =>
      rw [classify_of_scalar known] at void
      change scalar.name = Scalar.void.name at void
      rw [← Scalar.ofName?_name scalar, void]
      rfl
  | none =>
      rw [classify_of_composite known] at void
      subst void
      cases known

/-- A field as processing keeps it. -/
structure Field.Normal (field : Field) : Prop where
  cataloged : field.isCustom = false ↔ field.type ∈ Scalar.catalog
  resolved : field.hasResolver = true ↔ field.kind = .query ∨ field.kind = .mutation
  method : field.hasResolver = true → field.isMethod = true
  nullable : field.type = Scalar.void.name → field.options.nullable = some true

/-- An argument as processing keeps it. -/
structure Argument.Normal (argument : Argument) : Prop where
  cataloged : argument.isCustom = false ↔ argument.type ∈ Scalar.catalog

namespace FieldDeclaration

variable {introspect : Introspector} {declaration : FieldDeclaration} {kind : FieldKind}
  {field : Field}

/-- A declaration is accepted exactly if an operation is a method, a type is given or known, and what
is known of it by name agrees. -/
theorem process_eq_ok :
    declaration.process introspect kind = .ok field ↔
      (kind = .plain ∨ declaration.memberKind = .method) ∧
        ∃ declared, declaration.type? (declaration.known introspect) = .ok declared ∧
          (∀ name, declaration.known introspect = some (.named name) →
            agrees name declared.element = true) ∧
          declaration.field kind declared = field := by
  unfold process
  by_cases misplaced : kind ≠ .plain ∧ declaration.memberKind ≠ .method
  · rw [if_pos misplaced]
    constructor
    · intro run
      cases run
    · rintro ⟨plain | method, -⟩
      · exact absurd plain misplaced.1
      · exact absurd method misplaced.2
  · rw [if_neg misplaced]
    have placed : kind = .plain ∨ declaration.memberKind = .method := by
      rwa [not_and_or, not_not, not_not] at misplaced
    simp only [bind_eq_ok, placed, true_and]
    refine exists_congr fun declared => and_congr_right fun _ => ?_
    split
    · rename_i name known
      simp only [known, Option.some.injEq, Introspected.named.injEq, forall_eq']
      split
      · rename_i agreed
        simp only [pure_eq_ok, agreed, true_and]
      · rename_i differs
        constructor
        · intro run
          cases run
        · rintro ⟨agreed, -⟩
          exact absurd agreed differs
    · rename_i unnamed
      rw [pure_eq_ok]
      constructor
      · intro same
        exact ⟨fun name known => absurd known (unnamed name), same⟩
      · exact And.right

theorem normal_of_process (run : declaration.process introspect kind = .ok field) :
    field.Normal := by
  obtain ⟨placed, declared, -, -, rfl⟩ := process_eq_ok.mp run
  constructor
  case cataloged => exact classify_cataloged declared.element
  case resolved =>
    change decide (kind ≠ .plain) = true ↔ kind = .query ∨ kind = .mutation
    cases kind <;> decide
  case method =>
    intro operation
    have operation : kind ≠ .plain := of_decide_eq_true operation
    exact decide_eq_true (placed.resolve_left operation)
  case nullable =>
    intro void
    have element := ofName?_of_classify_void void
    change (declaration.options? declared.element).nullable = some true
    unfold options?
    rw [if_pos element]

theorem owner_of_process (run : declaration.process introspect kind = .ok field) :
    field.owner = declaration.owner := by
  obtain ⟨-, declared, -, -, rfl⟩ := process_eq_ok.mp run
  rfl

end FieldDeclaration

namespace ArgumentDeclaration

variable {introspect : Introspector} {declaration : ArgumentDeclaration} {argument : Argument}

/-- A declaration is accepted exactly if it has a name and a type is given or known. -/
theorem process_eq_ok :
    declaration.process introspect = .ok argument ↔
      declaration.name.getD "" ≠ "" ∧
        ∃ type, declaration.type? introspect (declaration.name.getD "") = .ok type ∧
          ⟨declaration.owner, declaration.method, declaration.name.getD "", (classify type).1,
            (classify type).2, declaration.index⟩ = argument := by
  unfold process
  by_cases unnamed : declaration.name.getD "" = ""
  · simp only [if_pos unnamed]
    constructor
    · intro run
      cases run
    · rintro ⟨named, -⟩
      exact absurd unnamed named
  · simp only [unnamed, ↓reduceIte, bind_eq_ok, pure_eq_ok, ne_eq, not_false_eq_true, true_and]

theorem normal_of_process (run : declaration.process introspect = .ok argument) :
    argument.Normal := by
  obtain ⟨-, type, -, rfl⟩ := process_eq_ok.mp run
  exact ⟨classify_cataloged type⟩

/-- An argument is kept in the place for which it is declared. -/
theorem place_of_process (run : declaration.process introspect = .ok argument) :
    argument.owner = declaration.owner ∧ argument.method = declaration.method ∧
      argument.index = declaration.index := by
  obtain ⟨-, type, -, rfl⟩ := process_eq_ok.mp run
  exact ⟨rfl, rfl, rfl⟩

end ArgumentDeclaration

end CodeFirst
