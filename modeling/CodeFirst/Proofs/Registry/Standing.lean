import CodeFirst.Proofs.Outcome
import CodeFirst.Proofs.Registry.Operations

/-! The standing of names. A name is vacant, a type or a resolver. It takes one role or one resolver,
and keeps it until the registry is reset. -/
namespace CodeFirst

namespace Entry

variable {ρ : Type} {name : String} {entry changed : Entry ρ}

theorem setRole_eq_error {isInput : Bool} {error : DeclarationError} :
    entry.setRole isInput = .error error ↔
      entry.resolver.isSome ∧ error = .typeOnResolver entry.name ∨
        entry.resolver = none ∧ entry.role.isSome ∧ error = .typeTwice entry.name := by
  unfold setRole
  cases entry.resolver with
  | some bound => simp [@eq_comm _ error]
  | none => cases entry.role <;> simp [@eq_comm _ error]

theorem bindResolver_eq_error {resolver : ρ} {error : DeclarationError} :
    entry.bindResolver resolver = .error error ↔
      entry.role.isSome ∧ error = .resolverOnType entry.name ∨
        entry.role = none ∧ entry.resolver.isSome ∧ error = .resolverTwice entry.name := by
  unfold bindResolver
  cases entry.role with
  | some role => simp [@eq_comm _ error]
  | none => cases entry.resolver <;> simp [@eq_comm _ error]

/-- An entry that has the name it stands under, which is that of its role too, and is not a type and
a resolver at once. -/
structure Coherent (name : String) (entry : Entry ρ) : Prop where
  named : entry.name = name
  role_named : ∀ role, entry.role = some role → role.name = name
  exclusive : entry.role = none ∨ entry.resolver = none

theorem Coherent.unbound (coherent : Coherent name entry) (typed : entry.role.isSome) :
    entry.resolver = none := by
  rcases coherent.exclusive with untyped | unbound
  · rw [untyped] at typed
    cases typed
  · exact unbound

theorem Coherent.untyped (coherent : Coherent name entry) (bound : entry.resolver.isSome) :
    entry.role = none := by
  rcases coherent.exclusive with untyped | unbound
  · exact untyped
  · rw [unbound] at bound
    cases bound

theorem coherent_empty (name : String) : Coherent name (Entry.empty name : Entry ρ) where
  named := rfl
  role_named := by
    intro role none
    cases none
  exclusive := Or.inl rfl

theorem Coherent.amended (coherent : Coherent name entry) (amendment : Amendment ρ) :
    Coherent name (entry.amended amendment) := by
  apply amended_cases (Coherent name) amendment
  · exact fun _ => coherent
  · intro field _
    exact ⟨coherent.named, coherent.role_named, coherent.exclusive⟩
  · intro argument _
    exact ⟨coherent.named, coherent.role_named, coherent.exclusive⟩
  · intro isInput _ _ unbound
    refine ⟨coherent.named, ?_, Or.inr unbound⟩
    intro role same
    cases same
    exact coherent.named
  · intro resolver _ untyped _
    exact ⟨coherent.named, coherent.role_named, Or.inl untyped⟩

/-- A role is set once. -/
theorem role_amended {role : TypeRole} (typed : entry.role = some role)
    (amendment : Amendment ρ) : (entry.amended amendment).role = some role := by
  apply amended_cases (fun entry => entry.role = some role) amendment
  · exact fun _ => typed
  · exact fun _ _ => typed
  · exact fun _ _ => typed
  · intro isInput _ untyped _
    cases typed.symm.trans untyped
  · exact fun _ _ _ _ => typed

/-- A resolver is bound once. -/
theorem resolver_amended {resolver : ρ} (bound : entry.resolver = some resolver)
    (amendment : Amendment ρ) : (entry.amended amendment).resolver = some resolver := by
  apply amended_cases (fun entry => entry.resolver = some resolver) amendment
  · exact fun _ => bound
  · exact fun _ _ => bound
  · exact fun _ _ => bound
  · exact fun _ _ _ _ => bound
  · intro other _ _ unbound
    cases bound.symm.trans unbound

end Entry

namespace Registry
open Outcome

variable {ρ : Type} {registry : Registry ρ} {name : String}

/-- The role of a name; one that was never looked up has none. -/
def roleOf (registry : Registry ρ) (name : String) : Option TypeRole :=
  (registry.entryOrEmpty name).role

/-- The resolver of a name; one that was never looked up has none. -/
def resolverOf (registry : Registry ρ) (name : String) : Option ρ :=
  (registry.entryOrEmpty name).resolver

/-- What every amendment of an entry keeps stays with its name as long as there is no reset. -/
theorem performAll_keeps (holds : Entry ρ → Prop) (operations : List (Operation ρ))
    (lasting : ∀ operation ∈ operations, operation ≠ .reset)
    (kept : ∀ entry amendment, holds entry → holds (entry.amended amendment))
    (now : holds (registry.entryOrEmpty name)) :
    holds ((registry.performAll operations).entryOrEmpty name) := by
  induction operations generalizing registry with
  | nil => exact now
  | cons operation rest ih =>
      obtain ⟨first, later⟩ := List.forall_mem_cons.mp lasting
      refine ih later ?_
      cases operation with
      | reset => exact absurd rfl first
      | amend other amendment =>
          rw [entryOrEmpty_perform_amend]
          split
          · rename_i same
            subst same
            exact kept _ _ now
          · exact now

theorem declareType_result (registry : Registry ρ) (name : String) (isInput : Bool) :
    (registry.declareType name isInput).2 =
      ((registry.entryOrEmpty name).setRole isInput).map fun _ => () :=
  perform_amend_result registry name (.role isInput)

theorem bindResolver_result (registry : Registry ρ) (name : String) (resolver : ρ) :
    (registry.bindResolver name resolver).2 =
      ((registry.entryOrEmpty name).bindResolver resolver).map fun _ => () :=
  perform_amend_result registry name (.resolver resolver)

/-- Names stand for themselves. None is a type and a resolver at once; a role and a resolver stay
until a reset; and exactly those names that have neither take one of them, while the others refuse
by what they have. -/
structure Settled (registry : Registry ρ) : Prop where
  coherent : registry.Everywhere Entry.Coherent
  exclusive : ∀ name, registry.roleOf name = none ∨ registry.resolverOf name = none
  role_stays : ∀ operations : List (Operation ρ), (∀ operation ∈ operations, operation ≠ .reset) →
    ∀ name role, registry.roleOf name = some role →
      (registry.performAll operations).roleOf name = some role
  resolver_stays : ∀ operations : List (Operation ρ),
    (∀ operation ∈ operations, operation ≠ .reset) →
    ∀ name resolver, registry.resolverOf name = some resolver →
      (registry.performAll operations).resolverOf name = some resolver
  declareType_ok : ∀ name isInput, (registry.declareType name isInput).2 = .ok () ↔
    registry.roleOf name = none ∧ registry.resolverOf name = none
  declareType_error : ∀ name isInput error,
    (registry.declareType name isInput).2 = .error error ↔
      (registry.resolverOf name).isSome ∧ error = .typeOnResolver name ∨
        (registry.roleOf name).isSome ∧ error = .typeTwice name
  declareType_sets : ∀ name isInput, (registry.declareType name isInput).2 = .ok () →
    (registry.declareType name isInput).1.roleOf name = some ⟨name, isInput⟩
  bindResolver_ok : ∀ name resolver, (registry.bindResolver name resolver).2 = .ok () ↔
    registry.roleOf name = none ∧ registry.resolverOf name = none
  bindResolver_error : ∀ name resolver error,
    (registry.bindResolver name resolver).2 = .error error ↔
      (registry.roleOf name).isSome ∧ error = .resolverOnType name ∨
        (registry.resolverOf name).isSome ∧ error = .resolverTwice name
  bindResolver_sets : ∀ name resolver, (registry.bindResolver name resolver).2 = .ok () →
    (registry.bindResolver name resolver).1.resolverOf name = some resolver

/-- Coherence of the entries is all that it takes. -/
theorem settled_of_coherent (coherent : registry.Everywhere Entry.Coherent) : registry.Settled := by
  have each : ∀ name, (registry.entryOrEmpty name).Coherent name :=
    coherent.entryOrEmpty Entry.coherent_empty
  constructor
  case coherent => exact coherent
  case exclusive => exact fun name => (each name).exclusive
  case role_stays =>
    intro operations lasting name role typed
    exact performAll_keeps (fun entry => entry.role = some role) operations lasting
      (fun _ amendment typed => Entry.role_amended typed amendment) typed
  case resolver_stays =>
    intro operations lasting name resolver bound
    exact performAll_keeps (fun entry => entry.resolver = some resolver) operations lasting
      (fun _ amendment bound => Entry.resolver_amended bound amendment) bound
  case declareType_ok =>
    intro name isInput
    rw [declareType_result, map_eq_ok]
    constructor
    · rintro ⟨changed, set, -⟩
      obtain ⟨untyped, unbound, -⟩ := Entry.setRole_eq_ok.mp set
      exact ⟨untyped, unbound⟩
    · rintro ⟨untyped, unbound⟩
      exact ⟨_, Entry.setRole_eq_ok.mpr ⟨untyped, unbound, rfl⟩, rfl⟩
  case declareType_error =>
    intro name isInput error
    rw [declareType_result, map_eq_error, Entry.setRole_eq_error, (each name).named]
    constructor
    · exact Or.imp_right And.right
    · exact Or.imp_right fun ⟨typed, same⟩ => ⟨(each name).unbound typed, typed, same⟩
  case declareType_sets =>
    intro name isInput accepted
    rw [declareType_result, map_eq_ok] at accepted
    obtain ⟨changed, set, -⟩ := accepted
    have after : (registry.entryOrEmpty name).amended (.role isInput) = changed :=
      Entry.amended_of_ok set
    unfold roleOf
    rw [← perform_role, entryOrEmpty_perform_amend, if_pos rfl, after]
    obtain ⟨-, -, rfl⟩ := Entry.setRole_eq_ok.mp set
    exact congrArg (fun named => some (TypeRole.mk named isInput)) (each name).named
  case bindResolver_ok =>
    intro name resolver
    rw [bindResolver_result, map_eq_ok]
    constructor
    · rintro ⟨changed, bound, -⟩
      obtain ⟨untyped, unbound, -⟩ := Entry.bindResolver_eq_ok.mp bound
      exact ⟨untyped, unbound⟩
    · rintro ⟨untyped, unbound⟩
      exact ⟨_, Entry.bindResolver_eq_ok.mpr ⟨untyped, unbound, rfl⟩, rfl⟩
  case bindResolver_error =>
    intro name resolver error
    rw [bindResolver_result, map_eq_error, Entry.bindResolver_eq_error, (each name).named]
    constructor
    · exact Or.imp_right And.right
    · exact Or.imp_right fun ⟨bound, same⟩ => ⟨(each name).untyped bound, bound, same⟩
  case bindResolver_sets =>
    intro name resolver accepted
    rw [bindResolver_result, map_eq_ok] at accepted
    obtain ⟨changed, bound, -⟩ := accepted
    have after : (registry.entryOrEmpty name).amended (.resolver resolver) = changed :=
      Entry.amended_of_ok bound
    unfold resolverOf
    rw [← perform_resolver, entryOrEmpty_perform_amend, if_pos rfl, after]
    obtain ⟨-, -, rfl⟩ := Entry.bindResolver_eq_ok.mp bound
    rfl

theorem settled_performAll (operations : List (Operation ρ)) :
    (Registry.empty.performAll operations).Settled :=
  settled_of_coherent (everywhere_empty.performAll operations Entry.coherent_empty
    fun _ _ amendment coherent => coherent.amended amendment)

end Registry

end CodeFirst
