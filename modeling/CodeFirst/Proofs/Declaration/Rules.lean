import CodeFirst.Proofs.Declaration.Normal

/-! The rules for the declaration of a field. A declaration that obeys all of them is accepted and
kept in normal form, and any other is refused for the first rule that it breaks. -/
namespace CodeFirst
open Outcome

theorem canonicalName?_eq_some {name : String} {scalar : Scalar} :
    Scalar.canonicalName? name = some scalar.name ↔ (classify name).1 = scalar.name := by
  cases known : Scalar.ofName? name with
  | some other =>
      rw [classify_of_scalar known, Scalar.canonicalName?, known]
      exact Option.some_inj
  | none =>
      rw [classify_of_composite known, Scalar.canonicalName?, known]
      constructor
      · intro same
        cases same
      · rintro rfl
        cases (Scalar.ofName?_name scalar).symm.trans known

theorem classify_eq_composite {name element : String} (unknown : Scalar.ofName? element = none) :
    name = element ↔ (classify name).1 = element := by
  cases known : Scalar.ofName? name with
  | some scalar =>
      rw [classify_of_scalar known]
      constructor
      · rintro rfl
        cases known.symm.trans unknown
      · rintro rfl
        cases (Scalar.ofName?_name scalar).symm.trans unknown
  | none => rw [classify_of_composite known]

/-- The two comparisons, of scalars and of composite types, are one: that of the names under which
types are kept. -/
theorem agrees_iff {name element : String} :
    agrees name element = true ↔
      name = "Boolean" ∨ name = "Number" ∨ (classify name).1 = (classify element).1 := by
  have compared : (if (classify element).2 = true then some name else Scalar.canonicalName? name) =
      some (classify element).1 ↔ (classify name).1 = (classify element).1 := by
    cases known : Scalar.ofName? element with
    | some scalar =>
        rw [classify_of_scalar known]
        exact canonicalName?_eq_some
    | none =>
        rw [classify_of_composite known]
        exact Option.some_inj.trans (classify_eq_composite known)
  simp only [agrees, isExempt, Bool.or_eq_true, decide_eq_true_eq, compared, or_assoc]

theorem fst_classify (name : String) :
    (classify name).1 = (Scalar.canonicalName? name).getD name := by
  cases known : Scalar.ofName? name with
  | some scalar =>
      rw [classify_of_scalar known, Scalar.canonicalName?, known]
      rfl
  | none =>
      rw [classify_of_composite known, Scalar.canonicalName?, known]
      rfl

theorem snd_classify (name : String) : (classify name).2 = true ↔ Scalar.ofName? name = none := by
  cases known : Scalar.ofName? name with
  | some scalar => simp [classify_of_scalar known]
  | none => simp [classify_of_composite known]

namespace FieldDeclaration

variable {introspect : Introspector} {known : Option Introspected}
  {declaration : FieldDeclaration} {kind : FieldKind}

/-- The type of a field: the given one, or else the name that is known. -/
def declared? (known : Option Introspected) (declaration : FieldDeclaration) : Option DeclaredType :=
  match declaration.returns, known with
  | some declared, _ => some declared
  | none, some (.named name) => some (.named name)
  | none, _ => none

theorem declared?_of_given {declared : DeclaredType} (given : declaration.returns = some declared) :
    declaration.declared? known = some declared := by
  unfold declared?
  rw [given]

theorem declared?_of_missing {name : String} (missing : declaration.returns = none)
    (found : known = some (.named name)) : declaration.declared? known = some (.named name) := by
  unfold declared?
  rw [missing, found]

/-- A type is given, or introspection knows a name for a property. -/
def HasType (known : Option Introspected) (declaration : FieldDeclaration) : Prop :=
  declaration.returns.isSome ∨
    declaration.memberKind = .property ∧ ∃ name, known = some (.named name)

theorem HasType.of_missing (typed : declaration.HasType known)
    (missing : declaration.returns = none) :
    declaration.memberKind = .property ∧ ∃ name, known = some (.named name) := by
  apply typed.resolve_left
  rw [missing]
  exact Bool.false_ne_true

theorem HasType.exists_declared (typed : declaration.HasType known) :
    ∃ declared, declaration.declared? known = some declared := by
  cases given : declaration.returns with
  | some declared => exact ⟨declared, declared?_of_given given⟩
  | none =>
      obtain ⟨-, name, found⟩ := typed.of_missing given
      exact ⟨.named name, declared?_of_missing given found⟩

/-- The rules, in the order in which they come. -/
inductive Rule where
  | operationIsMethod
  | methodHasType
  | arrayHasType
  | typeIsKnown
  | typesAgree

def Rule.rank : Rule → Nat
  | .operationIsMethod => 0
  | .methodHasType => 1
  | .arrayHasType => 2
  | .typeIsKnown => 3
  | .typesAgree => 4

/-- How a rule is broken, and the error for it. -/
inductive Breaks (known : Option Introspected) (declaration : FieldDeclaration) (kind : FieldKind) :
    Rule → DeclarationError → Prop
  | operationIsMethod : kind ≠ .plain → declaration.memberKind ≠ .method →
      Breaks known declaration kind .operationIsMethod
        (.operationOnProperty declaration.caller declaration.memberKind.word kind.word)
  | methodHasType : declaration.memberKind = .method → declaration.returns = none →
      Breaks known declaration kind .methodHasType (.methodWithoutType declaration.caller)
  | arrayHasType : declaration.returns = none → known = some .list →
      Breaks known declaration kind .arrayHasType (.arrayWithoutType declaration.caller)
  | typeIsKnown : declaration.returns = none → known = some .untyped ∨ known = none →
      Breaks known declaration kind .typeIsKnown (.unknownType declaration.caller)
  | typesAgree {name declared} : known = some (.named name) → name ≠ "Boolean" →
      name ≠ "Number" → declaration.declared? known = some declared →
      (classify name).1 ≠ (classify declared.element).1 →
      Breaks known declaration kind .typesAgree
        (.typeMismatch declaration.caller declaration.memberKind.word name declared.element)

/-- What the specification asks of a declaration. -/
structure Obeys (known : Option Introspected) (declaration : FieldDeclaration) (kind : FieldKind) :
    Prop where
  placed : kind = .plain ∨ declaration.memberKind = .method
  typed : declaration.HasType known
  agreed : ∀ name declared, known = some (.named name) → name ≠ "Boolean" → name ≠ "Number" →
    declaration.declared? known = some declared →
      (classify name).1 = (classify declared.element).1

/-- The field that is kept for a declaration with this type. -/
structure Keeps (declaration : FieldDeclaration) (kind : FieldKind) (declared : DeclaredType)
    (field : Field) : Prop where
  owner : field.owner = declaration.owner
  name : field.name = declaration.member
  type : field.type = (Scalar.canonicalName? declared.element).getD declared.element
  custom : field.isCustom = true ↔ Scalar.ofName? declared.element = none
  isArray : field.isArray = true ↔ ∃ element, declaration.returns = some (.list element)
  isMethod : field.isMethod = true ↔ declaration.memberKind = .method
  sameKind : field.kind = kind
  resolved : field.hasResolver = true ↔ kind ≠ .plain
  void : Scalar.ofName? declared.element = some .void →
    field.options = { declaration.options.getD {} with nullable := some true }
  options : Scalar.ofName? declared.element ≠ some .void →
    field.options = declaration.options.getD {}

theorem Breaks.unique {rule : Rule} {error other : DeclarationError}
    (broken : Breaks known declaration kind rule error)
    (again : Breaks known declaration kind rule other) : error = other := by
  cases broken with
  | operationIsMethod =>
      cases again
      rfl
  | methodHasType =>
      cases again
      rfl
  | arrayHasType =>
      cases again
      rfl
  | typeIsKnown =>
      cases again
      rfl
  | typesAgree found _ _ typed =>
      cases again with
      | typesAgree same _ _ sameType =>
          cases found.symm.trans same
          cases typed.symm.trans sameType
          rfl

theorem Rule.eq_of_rank {rule other : Rule} (same : rule.rank = other.rank) : rule = other := by
  cases rule <;> cases other <;> first | rfl | cases same

/-- A declaration in its place that has a type can break the last rule only. -/
theorem Breaks.eq_typesAgree {rule : Rule} {error : DeclarationError}
    (broken : Breaks known declaration kind rule error)
    (placed : kind = .plain ∨ declaration.memberKind = .method)
    (typed : declaration.HasType known) : rule = .typesAgree := by
  cases broken with
  | operationIsMethod operation property =>
      exact absurd (placed.resolve_left operation) property
  | methodHasType method missing => cases method.symm.trans (typed.of_missing missing).1
  | arrayHasType missing list =>
      obtain ⟨-, name, named⟩ := typed.of_missing missing
      cases list.symm.trans named
  | typeIsKnown missing unknown =>
      obtain ⟨-, name, named⟩ := typed.of_missing missing
      rw [named] at unknown
      rcases unknown with other | other <;> cases other
  | typesAgree => rfl

theorem not_breaks_of_lt {earlier : Rule} {error : DeclarationError}
    (placed : kind = .plain ∨ declaration.memberKind = .method) (typed : declaration.HasType known)
    (before : earlier.rank < Rule.typesAgree.rank) :
    ¬ Breaks known declaration kind earlier error := by
  intro broken
  cases broken.eq_typesAgree placed typed
  exact absurd before (Nat.lt_irrefl _)

theorem Obeys.not_breaks {rule : Rule} {error : DeclarationError}
    (obeys : Obeys known declaration kind) : ¬ Breaks known declaration kind rule error := by
  intro broken
  cases broken.eq_typesAgree obeys.placed obeys.typed
  cases broken with
  | typesAgree found notBoolean notNumber typed differ =>
      exact differ (obeys.agreed _ _ found notBoolean notNumber typed)

theorem type?_eq_ok {declared : DeclaredType} :
    declaration.type? known = .ok declared ↔
      declaration.HasType known ∧ declaration.declared? known = some declared := by
  unfold type? declared? HasType
  cases declaration.returns with
  | some given => simp
  | none =>
      cases declaration.memberKind with
      | method => simp
      | property =>
          cases known with
          | none => simp
          | some introspected => cases introspected <;> simp

/-- A type is missing for the first of three rules. -/
theorem type?_error_cases {error : DeclarationError} (run : declaration.type? known = .error error) :
    declaration.returns = none ∧
      (declaration.memberKind = .method ∧ error = .methodWithoutType declaration.caller ∨
        declaration.memberKind = .property ∧
          (known = some .list ∧ error = .arrayWithoutType declaration.caller ∨
            (known = some .untyped ∨ known = none) ∧
              error = .unknownType declaration.caller)) := by
  unfold type? at run
  cases given : declaration.returns with
  | some declared =>
      rw [given] at run
      cases run
  | none =>
      refine ⟨rfl, ?_⟩
      rw [given] at run
      cases member : declaration.memberKind with
      | method =>
          rw [member] at run
          cases run
          exact Or.inl ⟨rfl, rfl⟩
      | property =>
          rw [member] at run
          refine Or.inr ⟨rfl, ?_⟩
          cases known with
          | none =>
              cases run
              exact Or.inr ⟨Or.inr rfl, rfl⟩
          | some introspected =>
              cases introspected with
              | named name => cases run
              | list =>
                  cases run
                  exact Or.inl ⟨rfl, rfl⟩
              | untyped =>
                  cases run
                  exact Or.inr ⟨Or.inl rfl, rfl⟩

/-- The steps at which processing may stop. -/
theorem process_error_cases {error : DeclarationError}
    (failed : declaration.process introspect kind = .error error) :
    (kind ≠ .plain ∧ declaration.memberKind ≠ .method ∧
        error = .operationOnProperty declaration.caller declaration.memberKind.word kind.word) ∨
      (kind = .plain ∨ declaration.memberKind = .method) ∧
        (declaration.type? (declaration.known introspect) = .error error ∨
          ∃ declared name, declaration.type? (declaration.known introspect) = .ok declared ∧
            declaration.known introspect = some (.named name) ∧
            ¬ agrees name declared.element = true ∧
            error = .typeMismatch declaration.caller declaration.memberKind.word name
              declared.element) := by
  unfold process at failed
  by_cases misplaced : kind ≠ .plain ∧ declaration.memberKind ≠ .method
  · rw [if_pos misplaced] at failed
    cases failed
    exact Or.inl ⟨misplaced.1, misplaced.2, rfl⟩
  · rw [if_neg misplaced] at failed
    have placed : kind = .plain ∨ declaration.memberKind = .method := by
      rwa [not_and_or, not_not, not_not] at misplaced
    refine Or.inr ⟨placed, ?_⟩
    rcases bind_eq_error.mp failed with failed | ⟨declared, typed, failed⟩
    · exact Or.inl failed
    · refine Or.inr ⟨declared, ?_⟩
      split at failed
      · rename_i name found
        split at failed
        · cases failed
        · rename_i differ
          cases failed
          exact ⟨name, typed, found, differ, rfl⟩
      · cases failed

/-- A refusal is for a rule that is broken, and none before it is. -/
theorem exists_firstBroken {error : DeclarationError}
    (failed : declaration.process introspect kind = .error error) :
    ∃ rule, Breaks (declaration.known introspect) declaration kind rule error ∧
      ∀ earlier, earlier.rank < rule.rank → ∀ other,
        ¬ Breaks (declaration.known introspect) declaration kind earlier other := by
  rcases process_error_cases failed with ⟨operation, property, rfl⟩ | ⟨placed, failed⟩
  · refine ⟨_, .operationIsMethod operation property, ?_⟩
    intro earlier before
    cases before
  rcases failed with failed | ⟨declared, name, typed, found, differ, rfl⟩
  · -- A missing type breaks two rules at once only on a method, whose rule comes before.
    obtain ⟨missing, ⟨method, rfl⟩ | ⟨property, ⟨list, rfl⟩ | ⟨unknown, rfl⟩⟩⟩ :=
      type?_error_cases failed
    · refine ⟨_, .methodHasType method missing, ?_⟩
      intro earlier before other broken
      cases broken with
      | operationIsMethod operation property => exact property (placed.resolve_left operation)
      | _ => simp [Rule.rank] at before
    · refine ⟨_, .arrayHasType missing list, ?_⟩
      intro earlier before other broken
      cases broken with
      | operationIsMethod operation property => exact property (placed.resolve_left operation)
      | methodHasType method => cases property.symm.trans method
      | _ => simp [Rule.rank] at before
    · refine ⟨_, .typeIsKnown missing unknown, ?_⟩
      intro earlier before other broken
      cases broken with
      | operationIsMethod operation property => exact property (placed.resolve_left operation)
      | methodHasType method => cases property.symm.trans method
      | arrayHasType _ list =>
          rw [list] at unknown
          rcases unknown with other | other <;> cases other
      | _ => simp [Rule.rank] at before
  · obtain ⟨given, same⟩ := type?_eq_ok.mp typed
    rw [agrees_iff, not_or, not_or] at differ
    refine ⟨_, .typesAgree found differ.1 differ.2.1 same differ.2.2, ?_⟩
    intro earlier before other
    exact not_breaks_of_lt placed given before

theorem exists_process_eq_ok :
    (∃ field, declaration.process introspect kind = .ok field) ↔
      Obeys (declaration.known introspect) declaration kind := by
  simp only [process_eq_ok, type?_eq_ok, agrees_iff]
  constructor
  · rintro ⟨_, placed, declared, ⟨given, typed⟩, agreed, -⟩
    refine ⟨placed, given, ?_⟩
    intro name other found notBoolean notNumber same
    cases typed.symm.trans same
    rcases agreed name found with boolean | number | same
    · exact absurd boolean notBoolean
    · exact absurd number notNumber
    · exact same
  · intro obeys
    obtain ⟨declared, typed⟩ := obeys.typed.exists_declared
    refine ⟨_, obeys.placed, declared, ⟨obeys.typed, typed⟩, ?_, rfl⟩
    intro name found
    by_cases boolean : name = "Boolean"
    · exact Or.inl boolean
    by_cases number : name = "Number"
    · exact Or.inr (Or.inl number)
    · exact Or.inr (Or.inr (obeys.agreed name declared found boolean number typed))

/-- A refusal is for the first broken rule, and the first broken rule is what a refusal is for. -/
theorem process_eq_error {error : DeclarationError} :
    declaration.process introspect kind = .error error ↔
      ∃ rule, Breaks (declaration.known introspect) declaration kind rule error ∧
        ∀ earlier, earlier.rank < rule.rank → ∀ other,
          ¬ Breaks (declaration.known introspect) declaration kind earlier other := by
  constructor
  · exact exists_firstBroken
  · rintro ⟨rule, broken, first⟩
    cases run : declaration.process introspect kind with
    | ok field => exact absurd broken (exists_process_eq_ok.mp ⟨field, run⟩).not_breaks
    | error other =>
        obtain ⟨another, otherBroken, otherFirst⟩ := exists_firstBroken run
        rcases Nat.lt_trichotomy rule.rank another.rank with before | same | behind
        · exact absurd broken (otherFirst rule before error)
        · cases Rule.eq_of_rank same
          rw [otherBroken.unique broken]
        · exact absurd otherBroken (first another behind other)

theorem isList_of_declared? {declared : DeclaredType}
    (typed : declaration.declared? known = some declared) :
    declared.isList = true ↔ ∃ element, declaration.returns = some (.list element) := by
  unfold declared? at typed
  cases given : declaration.returns with
  | some other =>
      rw [given] at typed
      cases typed
      cases declared <;> simp [DeclaredType.isList]
  | none =>
      rw [given] at typed
      split at typed
      · rename_i impossible
        cases impossible
      · cases typed
        simp [DeclaredType.isList]
      · cases typed

theorem keeps_field {declared : DeclaredType}
    (typed : declaration.declared? known = some declared) :
    Keeps declaration kind declared (declaration.field kind declared) := by
  constructor
  case owner => rfl
  case name => rfl
  case sameKind => rfl
  case type => exact fst_classify declared.element
  case custom => exact snd_classify declared.element
  case isArray => exact isList_of_declared? typed
  case isMethod => exact decide_eq_true_iff
  case resolved => exact decide_eq_true_iff
  case void => exact fun void => if_pos void
  case options => exact fun other => if_neg other

/-- The processing of the declaration of a field. -/
structure Processing (introspect : Introspector) (declaration : FieldDeclaration)
    (kind : FieldKind) : Prop where
  overridden : ∀ introspected, declaration.introspected = some introspected →
    declaration.known introspect = some introspected
  introspected : declaration.introspected = none →
    declaration.known introspect = introspect (.member declaration.owner declaration.member)
  ok_iff : (∃ field, declaration.process introspect kind = .ok field) ↔
    Obeys (declaration.known introspect) declaration kind
  error_iff : ∀ error, declaration.process introspect kind = .error error ↔
    ∃ rule, Breaks (declaration.known introspect) declaration kind rule error ∧
      ∀ earlier, earlier.rank < rule.rank → ∀ other,
        ¬ Breaks (declaration.known introspect) declaration kind earlier other
  keeps : ∀ field, declaration.process introspect kind = .ok field →
    ∃ declared, declaration.declared? (declaration.known introspect) = some declared ∧
      Keeps declaration kind declared field

theorem processing_process (introspect : Introspector) (declaration : FieldDeclaration)
    (kind : FieldKind) : Processing introspect declaration kind := by
  constructor
  case overridden =>
    intro introspected given
    unfold known
    rw [given]
    rfl
  case introspected =>
    intro missing
    unfold known
    rw [missing]
    rfl
  case ok_iff => exact exists_process_eq_ok
  case error_iff => exact fun _ => process_eq_error
  case keeps =>
    intro field run
    obtain ⟨-, declared, typed, -, rfl⟩ := process_eq_ok.mp run
    have same := (type?_eq_ok.mp typed).2
    exact ⟨declared, same, keeps_field same⟩

/-- Of the two rules that this query breaks, the one on operations comes first. -/
example :
    ({ owner := "R", member := "q", memberKind := .property } : FieldDeclaration).process
        .nothing .query = .error (.operationOnProperty "R > q" "Property" "query") := by
  rfl

end FieldDeclaration

end CodeFirst
