import CodeFirst.Proofs.Declaration.Mismatch

/-! The check of a given type against what is known of a member. It compares names of elements: neither
the list marker of the given type nor a known list is looked at. A known name counts by its scalar,
but of the two names of the truth value only one is exempt. -/
namespace CodeFirst.FieldDeclaration

variable {introspect other : Introspector} {declaration : FieldDeclaration} {kind : FieldKind}
  {known again : Option Introspected} {name synonym : String} {declared : DeclaredType}
  {scalar : Scalar} {field : Field}

/-- An operation must be a method. -/
def Placed (declaration : FieldDeclaration) (kind : FieldKind) : Prop :=
  kind = .plain ∨ declaration.memberKind = .method

/-- The field that is kept with a type, if nothing is known against it. -/
def checked (known : Option Introspected) (declaration : FieldDeclaration) (kind : FieldKind)
    (declared : DeclaredType) : Except DeclarationError Field :=
  match known with
  | some (.named name) =>
    if agrees name declared.element then .ok (declaration.field kind declared)
    else .error
      (.typeMismatch declaration.caller declaration.memberKind.word name declared.element)
  | _ => .ok (declaration.field kind declared)

theorem process_of_placed (placed : declaration.Placed kind) :
    declaration.process introspect kind =
      (declaration.type? (declaration.known introspect)).bind
        (declaration.checked (declaration.known introspect) kind) := by
  have inPlace : ¬ (kind ≠ .plain ∧ declaration.memberKind ≠ .method) := by
    rwa [not_and_or, not_not, not_not]
  unfold process
  rw [if_neg inPlace]
  rfl

theorem process_of_not_placed (declaration : FieldDeclaration)
    (misplaced : ¬ declaration.Placed kind) :
    declaration.process introspect kind =
      .error (.operationOnProperty declaration.caller declaration.memberKind.word kind.word) := by
  unfold process
  rw [if_pos (not_or.mp misplaced)]
  rfl

theorem checked_of_agrees (agreed : agrees name declared.element = true) :
    declaration.checked (some (.named name)) kind declared =
      .ok (declaration.field kind declared) :=
  if_pos agreed

theorem checked_of_not_agrees (differ : ¬ agrees name declared.element = true) :
    declaration.checked (some (.named name)) kind declared = .error
      (.typeMismatch declaration.caller declaration.memberKind.word name declared.element) :=
  if_neg differ

theorem checked_eq_ok (run : declaration.checked known kind declared = .ok field) :
    declaration.field kind declared = field := by
  unfold checked at run
  split at run
  · split at run <;> cases run
    rfl
  · cases run
    rfl

/-- The marker of a list goes with the field. -/
theorem checked_list (known : Option Introspected) (element : String) :
    declaration.checked known kind (.list element) =
      (declaration.checked known kind (.named element)).map fun field =>
        { field with isArray := true } := by
  rcases known with _ | name | _ | _
  · rfl
  · by_cases agreed : agrees name element = true
    · have marked := @checked_of_agrees declaration kind name (.list element) agreed
      have plain := @checked_of_agrees declaration kind name (.named element) agreed
      rw [marked, plain]
      rfl
    · have marked := @checked_of_not_agrees declaration kind name (.list element) agreed
      have plain := @checked_of_not_agrees declaration kind name (.named element) agreed
      rw [marked, plain]
      rfl
  · rfl
  · rfl

/-- The declaration with a type given to it. -/
def returning (declaration : FieldDeclaration) (declared : DeclaredType) : FieldDeclaration :=
  { declaration with returns := some declared }

theorem process_returning (placed : declaration.Placed kind) :
    (declaration.returning declared).process introspect kind =
      declaration.checked (declaration.known introspect) kind declared :=
  @process_of_placed introspect (declaration.returning declared) kind placed

theorem placed_of_returning
    (run : (declaration.returning declared).process introspect kind = .ok field) :
    declaration.Placed kind :=
  (process_eq_ok.mp run).1

/-- What the list marker of a given type is for: it is kept with the field, and not looked at. -/
structure Unmarked (introspect : Introspector) (declaration : FieldDeclaration) (kind : FieldKind) :
    Prop where
  carried : ∀ element, (declaration.returning (.list element)).process introspect kind =
    ((declaration.returning (.named element)).process introspect kind).map fun field =>
      { field with isArray := true }
  marked : ∀ declared field, (declaration.returning declared).process introspect kind = .ok field →
    field.isArray = declared.isList
  list : declaration.known introspect = some .list → ∀ declared,
    (∃ field, (declaration.returning declared).process introspect kind = .ok field) ↔
      declaration.Placed kind
  named : ∀ name, declaration.known introspect = some (.named name) → name ≠ "Boolean" →
    name ≠ "Number" → ∀ declared,
      ((∃ field, (declaration.returning declared).process introspect kind = .ok field) ↔
        declaration.Placed kind ∧ (classify name).1 = (classify declared.element).1) ∧
      (declaration.Placed kind → (classify name).1 ≠ (classify declared.element).1 →
        (declaration.returning declared).process introspect kind = .error
          (.typeMismatch declaration.caller declaration.memberKind.word name declared.element))

theorem unmarked_process (introspect : Introspector) (declaration : FieldDeclaration)
    (kind : FieldKind) : Unmarked introspect declaration kind := by
  constructor
  case carried =>
    intro element
    by_cases placed : declaration.Placed kind
    · rw [process_returning placed, process_returning placed]
      exact checked_list _ element
    · rw [process_of_not_placed (declaration.returning _) placed,
        process_of_not_placed (declaration.returning _) placed]
      rfl
  case marked =>
    intro declared field run
    rw [process_returning (placed_of_returning run)] at run
    rw [← checked_eq_ok run]
    rfl
  case list =>
    intro known declared
    constructor
    · rintro ⟨field, run⟩
      exact placed_of_returning run
    · intro placed
      rw [process_returning placed, known]
      exact ⟨_, rfl⟩
  case named =>
    intro name known notBoolean notNumber declared
    have refused : declaration.Placed kind → (classify name).1 ≠ (classify declared.element).1 →
        (declaration.returning declared).process introspect kind = .error
          (.typeMismatch declaration.caller declaration.memberKind.word name declared.element) := by
      intro placed differ
      rw [process_returning placed, known]
      refine checked_of_not_agrees (mt agrees_iff.mp ?_)
      rw [not_or, not_or]
      exact ⟨notBoolean, notNumber, differ⟩
    refine ⟨⟨?_, ?_⟩, refused⟩
    · rintro ⟨field, run⟩
      have placed := placed_of_returning run
      refine ⟨placed, Classical.byContradiction fun differ => ?_⟩
      cases (refused placed differ).symm.trans run
    · rintro ⟨placed, same⟩
      rw [process_returning placed, known]
      exact ⟨_, checked_of_agrees (agrees_iff.mpr (Or.inr (Or.inr same)))⟩

/-- A member that holds a list. -/
def labels : FieldDeclaration where
  owner := "Shelf"
  member := "labels"
  memberKind := .property
  returns := some (.named "String")
  introspected := some .list

/-- A member that holds one string. -/
def label : FieldDeclaration where
  owner := "Shelf"
  member := "label"
  memberKind := .property
  returns := some (.list "String")
  introspected := some (.named "String")

/-- What is known to be a list may be declared as none, and the other way around. -/
theorem unlisted_labels :
    (labels.known .nothing = some .list ∧
      ∃ field, labels.process .nothing .plain = .ok field ∧ field.isArray = false) ∧
    label.known .nothing = some (.named "String") ∧
      ∃ field, label.process .nothing .plain = .ok field ∧ field.isArray = true :=
  ⟨⟨rfl, _, rfl, rfl⟩, rfl, _, rfl, rfl⟩

/-- The declaration with what it says itself of the type that is known. -/
def knowing (declaration : FieldDeclaration) (introspected : Option Introspected) :
    FieldDeclaration :=
  { declaration with introspected := introspected }

/-- The field that is kept, or the code of the refusal. -/
def outcome (introspect : Introspector) (declaration : FieldDeclaration) (kind : FieldKind) :
    Except String Field :=
  (declaration.process introspect kind).mapError DeclarationError.code

/-- A member in its place is given a type that is no truth value. -/
def Opposed (declaration : FieldDeclaration) (kind : FieldKind) : Prop :=
  declaration.Placed kind ∧ ∃ declared, declaration.returns = some declared ∧
    (classify declared.element).1 ≠ Scalar.boolean.name

/-- One of the names is exempt, and the other means the same. -/
def SwapsTruth (name synonym : String) : Prop :=
  name = "Bool" ∧ synonym = "Boolean" ∨ name = "Boolean" ∧ synonym = "Bool"

/-- Two names of one scalar are one name, or those of the truth value. -/
theorem eq_or_swapsTruth (found : Scalar.ofName? name = some scalar)
    (same : Scalar.ofName? synonym = some scalar) : name = synonym ∨ SwapsTruth name synonym := by
  rcases Scalar.ofName?_eq_some.mp found with rfl | ⟨rfl, rfl⟩
  · rcases Scalar.ofName?_eq_some.mp same with rfl | ⟨rfl, rfl⟩
    · exact Or.inl rfl
    · exact Or.inr (Or.inr ⟨rfl, rfl⟩)
  · rcases Scalar.ofName?_eq_some.mp same with rfl | ⟨rfl, -⟩
    · exact Or.inr (Or.inl ⟨rfl, rfl⟩)
    · exact Or.inl rfl

theorem agrees_bool {element : String} :
    agrees "Bool" element = true ↔ (classify element).1 = Scalar.boolean.name := by
  rw [agrees_iff]
  constructor
  · rintro (other | other | same)
    · exact absurd other (by decide)
    · exact absurd other (by decide)
    · exact same.symm
  · exact fun same => Or.inr (Or.inr same.symm)

theorem agrees_boolean (element : String) : agrees "Boolean" element = true :=
  agrees_iff.mpr (Or.inl rfl)

/-- Names of one scalar agree with the same types, but for the two of the truth value. -/
theorem agrees_eq_iff {element : String} (found : Scalar.ofName? name = some scalar)
    (same : Scalar.ofName? synonym = some scalar) :
    agrees name element = agrees synonym element ↔
      ¬ (SwapsTruth name synonym ∧ (classify element).1 ≠ Scalar.boolean.name) := by
  rcases eq_or_swapsTruth found same with rfl | swaps
  · refine iff_of_true rfl fun ⟨swaps, _⟩ => ?_
    rcases swaps with ⟨rfl, other⟩ | ⟨rfl, other⟩
    · exact absurd other (by decide)
    · exact absurd other (by decide)
  · rw [not_and_not_right, imp_iff_right swaps, ← agrees_bool]
    rcases swaps with ⟨rfl, rfl⟩ | ⟨rfl, rfl⟩
    · rw [agrees_boolean]
    · rw [agrees_boolean, eq_comm]

/-- Two verdicts on one field are the same if both or neither accept it. -/
theorem verdict_inj {agreed again : Bool} {code : String} :
    (if agreed = true then Except.ok field else .error code) =
        (if again = true then Except.ok field else .error code) ↔ agreed = again := by
  cases agreed <;> cases again <;> simp

/-- For a given type, processing under two names differs if one agrees with it and the other does
not. -/
theorem outcome_returns (placed : declaration.Placed kind)
    (given : declaration.returns = some declared)
    (found : declaration.known introspect = some (.named name)) :
    declaration.outcome introspect kind =
      if agrees name declared.element = true then .ok (declaration.field kind declared)
      else .error "TYPE_MISMATCH" := by
  have typed : declaration.type? (declaration.known introspect) = .ok declared := by
    unfold type?
    rw [given]
  rw [outcome, process_of_placed placed, typed, found]
  change (declaration.checked (some (.named name)) kind declared).mapError _ = _
  split
  · rename_i agreed
    rw [checked_of_agrees agreed]
    rfl
  · rename_i differ
    rw [checked_of_not_agrees differ]
    rfl

/-- A type that is only known agrees with itself. -/
theorem outcome_missing (placed : declaration.Placed kind) (missing : declaration.returns = none)
    (found : declaration.known introspect = some (.named name)) :
    declaration.outcome introspect kind =
      if declaration.memberKind = .method then .error "METHOD_NO_RETURN_TYPE"
      else .ok (declaration.field kind (.named name)) := by
  rw [outcome, process_of_placed placed, found, type?, missing]
  dsimp only
  split
  · rfl
  · exact congrArg _ (@checked_of_agrees declaration kind name (.named name)
      (agrees_iff.mpr (Or.inr (Or.inr rfl))))

/-- The field that is kept does not depend on which name of a scalar its type has. -/
theorem field_of_synonyms (found : Scalar.ofName? name = some scalar)
    (same : Scalar.ofName? synonym = some scalar) :
    declaration.field kind (.named name) = declaration.field kind (.named synonym) := by
  simp only [field, options?, DeclaredType.element, DeclaredType.isList, classify_of_scalar found,
    classify_of_scalar same, found, same]

/-- What of a known name counts. -/
structure Synonymous (introspect other : Introspector) (declaration : FieldDeclaration)
    (again : Option Introspected) (kind : FieldKind) : Prop where
  outcome_iff : ∀ name synonym scalar, declaration.known introspect = some (.named name) →
    (declaration.knowing again).known other = some (.named synonym) →
    Scalar.ofName? name = some scalar → Scalar.ofName? synonym = some scalar →
      (declaration.outcome introspect kind = (declaration.knowing again).outcome other kind ↔
        ¬ (SwapsTruth name synonym ∧ declaration.Opposed kind))
  exempt : declaration.known introspect = some (.named "Boolean") → declaration.Placed kind →
    ∀ declared, ∃ field, (declaration.returning declared).process introspect kind = .ok field
  compared : declaration.known introspect = some (.named "Bool") → declaration.Placed kind →
    ∀ declared, (declaration.returning declared).process introspect kind =
      if (classify declared.element).1 = Scalar.boolean.name then
        .ok (declaration.field kind declared)
      else .error
        (.typeMismatch declaration.caller declaration.memberKind.word "Bool" declared.element)

theorem synonymous_process (introspect other : Introspector) (declaration : FieldDeclaration)
    (again : Option Introspected) (kind : FieldKind) :
    Synonymous introspect other declaration again kind := by
  constructor
  case outcome_iff =>
    intro name synonym scalar first second found same
    by_cases placed : declaration.Placed kind
    · cases given : declaration.returns with
      | some declared =>
          have opposed : declaration.Opposed kind ↔
              (classify declared.element).1 ≠ Scalar.boolean.name := by
            simp only [Opposed, placed, given, Option.some.injEq, exists_eq_left', true_and]
          rw [outcome_returns placed given first,
            @outcome_returns other (declaration.knowing again) kind _ _ placed given second,
            opposed, ← agrees_eq_iff found same]
          exact verdict_inj
      | none =>
          rw [outcome_missing placed given first,
            @outcome_missing other (declaration.knowing again) kind _ placed given second]
          refine iff_of_true ?_ fun ⟨_, _, declared, type, _⟩ => ?_
          · exact if_congr Iff.rfl rfl (congrArg _ (field_of_synonyms found same))
          · cases given.symm.trans type
    · rw [outcome, outcome, process_of_not_placed declaration placed,
        process_of_not_placed (declaration.knowing again) placed]
      exact iff_of_true rfl fun ⟨_, opposed⟩ => placed opposed.1
  case exempt =>
    intro known placed declared
    rw [process_returning placed, known]
    exact ⟨_, checked_of_agrees (agrees_boolean _)⟩
  case compared =>
    intro known placed declared
    rw [process_returning placed, known]
    exact if_congr agrees_bool rfl rfl

/-- A member that holds a truth value, declared as an integer. -/
def active : FieldDeclaration where
  owner := "User"
  member := "active"
  memberKind := .property
  returns := some (.named "Int")
  introspected := some (.named "Bool")

/-- The exemption of truth values knows only one of their names. -/
theorem refused_bool :
    Scalar.ofName? "Bool" = some .boolean ∧ Scalar.ofName? "Boolean" = some .boolean ∧
      active.outcome .nothing .plain = .error "TYPE_MISMATCH" ∧
      ∃ field, (active.knowing (some (.named "Boolean"))).outcome .nothing .plain = .ok field :=
  ⟨rfl, rfl, rfl, _, rfl⟩

end CodeFirst.FieldDeclaration
