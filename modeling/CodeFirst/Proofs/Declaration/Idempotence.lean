import CodeFirst.Proofs.Declaration.Rules

/-! Fields declared again. The record of a field says all that its declaration has to, so that it is
accepted again as it is and becomes the same record. -/
namespace CodeFirst

/-- A name under which a type is kept is kept as it is. -/
theorem classify_fst (name : String) : classify (classify name).1 = classify name := by
  cases known : Scalar.ofName? name with
  | some scalar =>
      rw [classify_of_scalar known]
      exact classify_of_scalar scalar.ofName?_name
  | none =>
      rw [classify_of_composite known]
      exact classify_of_composite known

theorem ofName?_classify (name : String) :
    Scalar.ofName? (classify name).1 = Scalar.ofName? name := by
  cases known : Scalar.ofName? name with
  | some scalar =>
      rw [classify_of_scalar known]
      exact scalar.ofName?_name
  | none =>
      rw [classify_of_composite known]
      exact known

theorem agrees_classify (name element : String) :
    agrees name (classify element).1 = agrees name element := by
  rw [Bool.eq_iff_iff, agrees_iff, agrees_iff, classify_fst]

namespace Field

def declaredType (field : Field) : DeclaredType :=
  if field.isArray then .list field.type else .named field.type

/-- The declaration of a field that its own record makes, over what is known of the member. -/
def declaration (field : Field) (introspected : Option Introspected) : FieldDeclaration where
  owner := field.owner
  member := field.name
  memberKind := if field.isMethod then .method else .property
  returns := some field.declaredType
  options := some field.options
  introspected := introspected

theorem element_declaredType (field : Field) : field.declaredType.element = field.type := by
  unfold declaredType
  split <;> rfl

theorem isList_declaredType (field : Field) : field.declaredType.isList = field.isArray := by
  unfold declaredType
  split
  · rename_i listed
    rw [listed]
    rfl
  · rename_i plain
    rw [Bool.eq_false_iff.mpr plain]
    rfl

end Field

namespace FieldDeclaration

variable {introspect other : Introspector} {declaration again : FieldDeclaration}
  {kind : FieldKind} {declared same : DeclaredType} {introspected : Option Introspected}
  {field : Field}

/-- What of a declaration and of its type the field that is kept depends on. -/
theorem field_congr (owner : again.owner = declaration.owner)
    (member : again.member = declaration.member)
    (memberKind : again.memberKind = declaration.memberKind)
    (type : classify same.element = classify declared.element)
    (isArray : same.isList = declared.isList)
    (options : again.options? same.element = declaration.options? declared.element) :
    again.field kind same = declaration.field kind declared := by
  unfold FieldDeclaration.field
  rw [owner, member, memberKind, type, isArray, options]

theorem memberKind_declaration :
    ((declaration.field kind declared).declaration introspected).memberKind =
      declaration.memberKind := by
  unfold Field.declaration FieldDeclaration.field
  cases declaration.memberKind <;> rfl

/-- A field of no type is nullable already. -/
theorem options?_declaration :
    ((declaration.field kind declared).declaration introspected).options?
        (classify declared.element).1 = declaration.options? declared.element := by
  unfold options? Field.declaration FieldDeclaration.field
  rw [ofName?_classify]
  dsimp only [Option.getD_some, options?]
  split <;> rfl

/-- The record of a field makes the same record again. -/
theorem field_declaration :
    ((declaration.field kind declared).declaration introspected).field kind
        (declaration.field kind declared).declaredType = declaration.field kind declared := by
  have element : (declaration.field kind declared).declaredType.element =
      (classify declared.element).1 := Field.element_declaredType _
  apply field_congr
  case owner => rfl
  case member => rfl
  case memberKind => exact memberKind_declaration
  case type => rw [element, classify_fst]
  case isArray => exact Field.isList_declaredType _
  case options => rw [element, options?_declaration]

/-- A field declared again is accepted as it is, unless another type is known by now. -/
theorem process_declaration {result : Field}
    (run : declaration.process introspect kind = .ok field) :
    (field.declaration introspected).process other field.kind = .ok result ↔
      (∀ name, (field.declaration introspected).known other = some (.named name) →
        agrees name field.type = true) ∧ field = result := by
  obtain ⟨placed, declared, -, -, rfl⟩ := process_eq_ok.mp run
  have placedAgain : kind = .plain ∨
      ((declaration.field kind declared).declaration introspected).memberKind = .method := by
    rwa [memberKind_declaration]
  have typed : ((declaration.field kind declared).declaration introspected).type?
      (((declaration.field kind declared).declaration introspected).known other) =
        .ok (declaration.field kind declared).declaredType := rfl
  rw [process_eq_ok, typed, ← Field.element_declaredType]
  constructor
  · rintro ⟨-, type, given, agreed, rfl⟩
    cases given
    exact ⟨agreed, field_declaration.symm⟩
  · rintro ⟨agreed, rfl⟩
    exact ⟨placedAgain, _, rfl, agreed, field_declaration⟩

/-- What a field comes to when it is declared again from its record. -/
structure Settled (introspect : Introspector) (declaration : FieldDeclaration) (field : Field) :
    Prop where
  again : (field.declaration declaration.introspected).process introspect field.kind = .ok field
  /-- Nothing has to be known of the member any more. -/
  alone : (field.declaration none).process .nothing field.kind = .ok field
  /-- Whatever is known by now, it becomes no other field. -/
  unchanged : ∀ other introspected result,
    (field.declaration introspected).process other field.kind = .ok result → result = field

theorem settled_of_process (run : declaration.process introspect kind = .ok field) :
    Settled introspect declaration field := by
  constructor
  case again =>
    rw [process_declaration run]
    refine ⟨?_, rfl⟩
    intro name known
    obtain ⟨-, declared, -, agreed, rfl⟩ := process_eq_ok.mp run
    rw [← agreed name known]
    exact agrees_classify name declared.element
  case alone =>
    rw [process_declaration run]
    exact ⟨nofun, rfl⟩
  case unchanged =>
    intro other introspected result accepted
    exact ((process_declaration run).mp accepted).2.symm

/-- A list of truth values under the short name for both, which an introspector knows as well. -/
def marks : FieldDeclaration where
  owner := "Shelf"
  member := "marks"
  memberKind := .property
  returns := some (.list "Bool")

/-- A member that is only known to give nothing back, and is not to be null. -/
def cleared : FieldDeclaration where
  owner := "Shelf"
  member := "cleared"
  memberKind := .property
  options := some { nullable := some false, comment := some "Whether all is gone." }
  introspected := some (.named "Void")

theorem settled_marks : ∃ first second,
    (marks.process (.ofTable [(.member "Shelf" "marks", .named "Bool")]) .plain = .ok first ∧
      Settled (.ofTable [(.member "Shelf" "marks", .named "Bool")]) marks first ∧
      first.displayType = "Boolean[]") ∧
    cleared.process .nothing .plain = .ok second ∧ Settled .nothing cleared second ∧
      second.options.nullable = some true := by
  have listed : marks.process (.ofTable [(.member "Shelf" "marks", .named "Bool")]) .plain =
      .ok (marks.field .plain (.list "Bool")) := rfl
  have known : cleared.process .nothing .plain =
      .ok (cleared.field .plain (.named "Void")) := rfl
  exact ⟨_, _, ⟨listed, settled_of_process listed, rfl⟩, known, settled_of_process known, rfl⟩

end FieldDeclaration

end CodeFirst
