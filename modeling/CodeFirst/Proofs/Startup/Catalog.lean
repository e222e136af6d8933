import CodeFirst.Proofs.Compilation.Culprits
import CodeFirst.Proofs.Schema.Build
import CodeFirst.Proofs.Startup.Step

/-! The catalog has every scalar that a build meets: all that a startup keeps is in normal form, and no
declaration in normal form leads a build to a scalar that is not in the catalog. -/
namespace CodeFirst
open Outcome

def Registered.Normal : Registered → Prop
  | .nothing => True
  | .field kept => kept.Normal
  | .argument kept => kept.Normal

theorem Startup.Step.Amends.normal {σ α ρ : Type} {step : Startup.Step σ α ρ} {name : String}
    {amendment : Entry.Amendment ρ} (amends : step.Amends name amendment) :
    amendment.registered.Normal := by
  cases amends with
  | role => trivial
  | field _ processed => exact FieldDeclaration.normal_of_process processed
  | argument _ processed => exact ArgumentDeclaration.normal_of_process processed
  | resolver => trivial
  | lookup => trivial
  | service => trivial

namespace Entry

variable {ρ : Type} {entry : Entry ρ}

structure Normal (entry : Entry ρ) : Prop where
  fields : ∀ field ∈ entry.fields, field.Normal
  arguments : ∀ method slots, (method, slots) ∈ entry.arguments →
    ∀ argument, some argument ∈ slots → argument.Normal

theorem normal_empty (name : String) : (Entry.empty name : Entry ρ).Normal where
  fields := by
    intro field member
    cases member
  arguments := by
    intro method slots member
    cases member

theorem Normal.slots (normal : entry.Normal) {method : String} {argument : Argument}
    (member : some argument ∈ entry.slots method) : argument.Normal := by
  unfold Entry.slots at member
  cases found : entry.arguments.lookup method with
  | none =>
      rw [found] at member
      cases member
  | some slots =>
      rw [found] at member
      exact normal.arguments method slots (Keyed.mem_of_lookup found) argument member

theorem mem_fillSlot {slots : List (Option Argument)} {index : Nat} {argument other : Argument}
    (member : some other ∈ fillSlot slots index argument) :
    other = argument ∨ some other ∈ slots := by
  rcases List.mem_or_eq_of_mem_set member with kept | filled
  · rcases List.mem_append.mp kept with before | padding
    · exact Or.inr before
    · cases (List.mem_replicate.mp padding).2
  · exact Or.inl (Option.some.inj filled)

theorem Normal.addArgument (normal : entry.Normal) {argument : Argument}
    (added : argument.Normal) : (entry.addArgument argument).Normal where
  fields := normal.fields
  arguments := by
    intro method slots member other filled
    rcases Keyed.mem_put member with same | before
    · cases same
      rcases mem_fillSlot filled with rfl | kept
      · exact added
      · exact normal.slots kept
    · exact normal.arguments method slots before other filled

theorem Normal.addField (normal : entry.Normal) {field : Field} (added : field.Normal) :
    (entry.addField field).Normal where
  fields := by
    intro other member
    rcases List.mem_append.mp member with before | last
    · exact normal.fields other before
    · cases List.mem_singleton.mp last
      exact added
  arguments := normal.arguments

theorem Normal.amended (normal : entry.Normal) {amendment : Amendment ρ}
    (added : amendment.registered.Normal) : (entry.amended amendment).Normal := by
  apply amended_cases Normal amendment
  · exact fun _ => normal
  · intro field same
    subst same
    exact normal.addField added
  · intro argument same
    subst same
    exact normal.addArgument added
  · exact fun _ _ _ _ => ⟨normal.fields, normal.arguments⟩
  · exact fun _ _ _ _ => ⟨normal.fields, normal.arguments⟩

end Entry

namespace Compilation

variable {ρ α : Type} {registry : Registry ρ}

theorem cataloged_of_iff {type : String} {isCustom : Bool}
    (cataloged : isCustom = false ↔ type ∈ Scalar.catalog) : Cataloged type isCustom := by
  intro scalar
  obtain ⟨found, known⟩ := Scalar.ofName?_of_mem_catalog (cataloged.mp scalar)
  exact Option.isSome_iff_exists.mpr ⟨found, known⟩

/-- An error that is not a fault of the library. -/
def External : BuildError → Prop
  | .fault cause => cause.isInternal = false
  | .rejected _ => True
  | .configuration _ => True
  | .repeatedField _ => True

theorem TypeCulprit.external {usage : Usage α} {names : List String} {error : BuildError}
    (normal : registry.Everywhere fun _ entry => entry.Normal)
    (misuse : ∀ name, (usage.misuse name).isInternal = false)
    (culprit : TypeCulprit usage registry names error) : External error := by
  cases culprit with
  | undeclared => rfl
  | misused => exact misuse _
  | unhandled _ found member unknown =>
      have kept := normal _ _ (Keyed.mem_of_lookup found)
      exact absurd (cataloged_of_iff (kept.fields _ member).cataloged) unknown
  | repeated => trivial

theorem OperationCulprit.external {strict : Bool} {entry : Entry ρ} {field : Field}
    {error : BuildError} (normal : entry.Normal) (declared : field ∈ entry.fields)
    (culprit : OperationCulprit strict entry field error) : External error := by
  cases culprit with
  | unbound => rfl
  | result unknown =>
      exact absurd (cataloged_of_iff (normal.fields field declared).cataloged) unknown
  | argument member unknown =>
      exact absurd (cataloged_of_iff (normal.slots member).cataloged) unknown
  | gap => rfl

theorem Culprit.external {config : Config} {resolvers : List String} {error : BuildError}
    (normal : registry.Everywhere fun _ entry => entry.Normal)
    (culprit : Culprit registry config resolvers error) : External error := by
  cases culprit with
  | configuration => trivial
  | undeclared => rfl
  | output culprit => exact culprit.external normal fun _ => rfl
  | input culprit => exact culprit.external normal fun _ => rfl
  | operation among declared _ culprit =>
      obtain ⟨name, -, found⟩ := mem_namedEntries.mp among
      exact culprit.external (normal name _ (Keyed.mem_of_lookup found)) declared
  | rootless => rfl

/-- A build of declarations in normal form may fail, but not by a fault of the library. -/
theorem external_build (normal : registry.Everywhere fun _ entry => entry.Normal)
    (config : Config) (resolvers : List String) :
    FailsBy External (Schema.build registry config resolvers) := by
  intro error failed
  rcases Schema.build_eq_error.mp failed with failed | ⟨_, _, _, _, rejected⟩
  · exact (failsBy_compile config resolvers error failed).external normal
  · rw [← rejected]
    trivial

end Compilation

namespace Registry

variable {σ α ρ : Type}

/-- All that is kept is in normal form, and no build ends at a scalar that is not in the catalog. -/
structure Consistent (registry : Registry ρ) : Prop where
  fields : ∀ name entry, (name, entry) ∈ registry.entries → ∀ field ∈ entry.fields, field.Normal
  arguments : ∀ name entry, (name, entry) ∈ registry.entries →
    ∀ method slots, (method, slots) ∈ entry.arguments →
      ∀ argument, some argument ∈ slots → argument.Normal
  handled : ∀ config resolvers type,
    Schema.build registry config resolvers ≠ .error (.compile (.unhandledScalar type))

theorem consistent_takeSteps (steps : List (Startup.Step σ α ρ)) :
    (Registry.empty.takeSteps steps).Consistent := by
  have normal : (Registry.empty.takeSteps steps).Everywhere fun _ entry => entry.Normal := by
    apply everywhere_empty.takeSteps steps Entry.normal_empty
    intro step name amendment entry amends normal
    exact normal.amended amends.normal
  constructor
  case fields => exact fun name entry member => (normal name entry member).fields
  case arguments => exact fun name entry member => (normal name entry member).arguments
  case handled =>
    intro config resolvers type failed
    cases Compilation.external_build normal config resolvers _ failed

end Registry

end CodeFirst
