import CodeFirst.Proofs.Compilation.Fields
import CodeFirst.Proofs.Declaration.Rules

/-! Type mismatches. Processing compares the names under which types are kept, but scalars with
different names may compile to one type of the schema. -/
namespace CodeFirst

namespace Scalar

variable {name : String} {scalar other : Scalar}

/-- A scalar is found under its own name, and the truth value under one more. -/
theorem ofName?_eq_some :
    ofName? name = some scalar ↔ name = scalar.name ∨ name = "Bool" ∧ scalar = .boolean := by
  constructor
  · intro found
    unfold ofName? at found
    split at found <;> cases found <;> simp [Scalar.name]
  · rintro (rfl | ⟨rfl, rfl⟩)
    · exact ofName?_name scalar
    · rfl

theorem isSome_ofName?_builtin (scalar : Scalar) : (ofName? scalar.builtin).isSome := by
  cases scalar <;> rfl

/-- Different scalars that compile to the same one come in three pairs. -/
theorem builtin_eq_of_ne (differ : scalar ≠ other) (same : scalar.builtin = other.builtin) :
    (scalar, other) ∈ [(string, id), (id, string), (number, float), (float, number),
      (boolean, void), (void, boolean)] := by
  cases scalar <;> cases other <;>
    first | exact absurd rfl differ | exact absurd same (by decide) | decide

end Scalar

/-- The name that a type of this name has in a schema. -/
def compiledName (name : String) : String :=
  match Scalar.ofName? name with
  | some scalar => scalar.builtin
  | none => name

theorem baseName_classify (name : String) :
    Compilation.baseName (classify name).1 (classify name).2 = .ok (compiledName name) := by
  unfold Compilation.baseName compiledName
  cases known : Scalar.ofName? name with
  | some scalar => simp [classify_of_scalar known, Scalar.ofName?_name]
  | none => simp [classify_of_composite known]

/-- Types that are kept under different names compile to one only if both are scalars. -/
theorem exists_scalars {name element : String}
    (differ : (classify name).1 ≠ (classify element).1)
    (same : compiledName name = compiledName element) :
    ∃ scalar other, Scalar.ofName? name = some scalar ∧ Scalar.ofName? element = some other ∧
      scalar ≠ other ∧ scalar.builtin = other.builtin := by
  unfold compiledName at same
  cases known : Scalar.ofName? name with
  | some scalar =>
      cases declared : Scalar.ofName? element with
      | some other =>
          rw [known, declared] at same
          rw [classify_of_scalar known, classify_of_scalar declared] at differ
          exact ⟨scalar, other, rfl, rfl, fun equal => differ (congrArg Scalar.name equal), same⟩
      | none =>
          rw [known, declared] at same
          have found := scalar.isSome_ofName?_builtin
          rw [show scalar.builtin = element from same, declared] at found
          cases found
  | none =>
      cases declared : Scalar.ofName? element with
      | some other =>
          rw [known, declared] at same
          have found := other.isSome_ofName?_builtin
          rw [← show name = other.builtin from same, known] at found
          cases found
      | none =>
          rw [known, declared] at same
          rw [classify_of_composite known, classify_of_composite declared] at differ
          exact absurd same differ

/-- The known and declared names that are held against each other though both compile to one type. -/
def falseMismatches : List (String × String) :=
  [("String", "ID"), ("ID", "String"), ("Float", "Number"), ("Bool", "Void"), ("Void", "Boolean"),
    ("Void", "Bool")]

theorem mem_falseMismatches {name element : String} :
    (name, element) ∈ falseMismatches ↔
      name ≠ "Boolean" ∧ name ≠ "Number" ∧ (classify name).1 ≠ (classify element).1 ∧
        compiledName name = compiledName element := by
  constructor
  · intro member
    simp only [falseMismatches, List.mem_cons, Prod.mk.injEq, List.not_mem_nil, or_false] at member
    rcases member with ⟨rfl, rfl⟩ | ⟨rfl, rfl⟩ | ⟨rfl, rfl⟩ | ⟨rfl, rfl⟩ | ⟨rfl, rfl⟩ | ⟨rfl, rfl⟩ <;>
      decide
  · rintro ⟨notBoolean, notNumber, differ, same⟩
    obtain ⟨scalar, other, known, declared, distinct, compiled⟩ := exists_scalars differ same
    have pair := Scalar.builtin_eq_of_ne distinct compiled
    rw [Scalar.ofName?_eq_some] at known declared
    simp only [List.mem_cons, Prod.mk.injEq, List.not_mem_nil, or_false] at pair
    rcases pair with ⟨rfl, rfl⟩ | ⟨rfl, rfl⟩ | ⟨rfl, rfl⟩ | ⟨rfl, rfl⟩ | ⟨rfl, rfl⟩ | ⟨rfl, rfl⟩ <;>
      simp only [Scalar.name, reduceCtorEq, and_false, or_false, and_true] at known declared
    · subst known declared
      decide
    · subst known declared
      decide
    · exact absurd known notNumber
    · subst known declared
      decide
    · subst declared
      rw [known.resolve_left notBoolean]
      decide
    · subst known
      rcases declared with rfl | rfl <;> decide

namespace FieldDeclaration

variable {introspect : Introspector} {declaration : FieldDeclaration} {kind : FieldKind}

/-- The declaration of a member in its place, which gives it one type where another is known. -/
structure Confronts (introspect : Introspector) (declaration : FieldDeclaration) (kind : FieldKind)
    (name element : String) : Prop where
  placed : kind = .plain ∨ declaration.memberKind = .method
  known : declaration.known introspect = some (.named name)
  given : ∃ declared, declaration.returns = some declared ∧ declared.element = element

/-- A mismatch is reported where the given type is kept under another name than the known one. -/
theorem process_eq_typeMismatch {caller member name element : String} :
    declaration.process introspect kind = .error (.typeMismatch caller member name element) ↔
      Confronts introspect declaration kind name element ∧ name ≠ "Boolean" ∧ name ≠ "Number" ∧
        (classify name).1 ≠ (classify element).1 ∧
        caller = declaration.caller ∧ member = declaration.memberKind.word := by
  constructor
  · intro failed
    rcases process_error_cases failed with ⟨_, _, other⟩ | ⟨placed, failed⟩
    · cases other
    rcases failed with failed | ⟨declared, _, typed, found, differ, same⟩
    · obtain ⟨_, ⟨_, other⟩ | ⟨_, ⟨_, other⟩ | ⟨_, other⟩⟩⟩ := type?_error_cases failed <;>
        cases other
    cases same
    have type := (type?_eq_ok.mp typed).2
    rw [agrees_iff, not_or, not_or] at differ
    obtain ⟨notBoolean, notNumber, differ⟩ := differ
    refine ⟨⟨placed, found, ?_⟩, notBoolean, notNumber, differ, rfl, rfl⟩
    cases given : declaration.returns with
    | some other =>
        cases (declared?_of_given given).symm.trans type
        exact ⟨_, rfl, rfl⟩
    | none =>
        -- A type that is only known agrees with itself.
        cases (declared?_of_missing given found).symm.trans type
        exact absurd rfl differ
  · rintro ⟨⟨placed, found, declared, given, rfl⟩, notBoolean, notNumber, differ, rfl, rfl⟩
    refine process_eq_error.mpr
      ⟨_, .typesAgree found notBoolean notNumber (declared?_of_given given) differ, ?_⟩
    intro earlier before other
    exact not_breaks_of_lt placed (Or.inl (Option.isSome_of_eq_some given)) before

/-- What type mismatches mean. All but those of a few pairs are between types that compile to
different ones. -/
structure Mismatch (introspect : Introspector) (declaration : FieldDeclaration) (kind : FieldKind) :
    Prop where
  refused_iff : ∀ caller member name element,
    declaration.process introspect kind = .error (.typeMismatch caller member name element) ↔
      Confronts introspect declaration kind name element ∧ name ≠ "Boolean" ∧ name ≠ "Number" ∧
        (classify name).1 ≠ (classify element).1 ∧
        caller = declaration.caller ∧ member = declaration.memberKind.word
  false_iff : ∀ caller member name element,
    declaration.process introspect kind = .error (.typeMismatch caller member name element) ∧
        compiledName name = compiledName element ↔
      Confronts introspect declaration kind name element ∧ (name, element) ∈ falseMismatches ∧
        caller = declaration.caller ∧ member = declaration.memberKind.word
  /-- Whatever is accepted compiles to a type of the name that mismatches are judged by. -/
  compiled : ∀ field, declaration.process introspect kind = .ok field →
    ∃ declared type, declaration.declared? (declaration.known introspect) = some declared ∧
      Compilation.typeRef field = .ok type ∧ type.base = compiledName declared.element

theorem mismatch_process (introspect : Introspector) (declaration : FieldDeclaration)
    (kind : FieldKind) : Mismatch introspect declaration kind := by
  constructor
  case refused_iff =>
    intro caller member name element
    exact process_eq_typeMismatch
  case false_iff =>
    intro caller member name element
    rw [process_eq_typeMismatch, mem_falseMismatches]
    constructor
    · rintro ⟨⟨confronts, notBoolean, notNumber, differ, place⟩, same⟩
      exact ⟨confronts, ⟨notBoolean, notNumber, differ, same⟩, place⟩
    · rintro ⟨confronts, ⟨notBoolean, notNumber, differ, same⟩, place⟩
      exact ⟨⟨confronts, notBoolean, notNumber, differ, place⟩, same⟩
  case compiled =>
    intro field run
    obtain ⟨-, declared, typed, -, rfl⟩ := process_eq_ok.mp run
    have base : Compilation.baseName (declaration.field kind declared).type
        (declaration.field kind declared).isCustom = .ok (compiledName declared.element) :=
      baseName_classify declared.element
    obtain ⟨type, named⟩ :=
      Compilation.exists_typeRef.mpr (Compilation.exists_baseName.mp ⟨_, base⟩)
    have same := (Compilation.typeRef_eq_ok named).symm.trans base
    exact ⟨declared, type, (type?_eq_ok.mp typed).2, named, Except.ok.inj same⟩

/-- A member that holds a string and is declared as an identifier. -/
def identifier : FieldDeclaration where
  owner := "User"
  member := "id"
  memberKind := .property
  returns := some (.named "ID")
  introspected := some (.named "String")

/-- Identifiers compile to strings, but no string may be declared as one. -/
theorem refused_identifier :
    identifier.process .nothing .plain =
        .error (.typeMismatch "User > id" "Property" "String" "ID") ∧
      compiledName "String" = compiledName "ID" :=
  ⟨rfl, rfl⟩

end FieldDeclaration

end CodeFirst
