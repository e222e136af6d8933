import CodeFirst.Proofs.Injector.Blueprint
import CodeFirst.Proofs.Injector.Resolution
import Mathlib.Data.List.Chain
import Mathlib.Logic.Relation

/-! Construction over the graph of needs. A service is built exactly if all that it leads to has a
factory, lies on no cycle and does not fail by itself; a cycle that is reported is one. The induction
is on the services that are not under construction, and the stack is a path from the first. -/
namespace CodeFirst.Injector
open Relation (ReflTransGen TransGen)

variable {σ α : Type}

/-- What is known of the factories, by service. -/
abbrev Design := String → Option Blueprint

/-- The factories do what is known of them, and nothing is known of other services. -/
def Designed (injector : Injector σ α) (design : Design) : Prop :=
  ∀ service, Option.Rel (fun blueprint factory =>
    Factory.Follows blueprint.failures blueprint.needs factory)
    (design service) (injector.lookup service)

/-- One service asks for another. -/
def Needs (design : Design) (service dependency : String) : Prop :=
  ∃ blueprint, design service = some blueprint ∧ dependency ∈ blueprint.needs

structure Constructible (design : Design) (service : String) : Prop where
  provided : ∀ other, ReflTransGen (Needs design) service other →
    ∃ blueprint, design other = some blueprint
  acyclic : ∀ other, ReflTransGen (Needs design) service other →
    ¬ TransGen (Needs design) other other
  unfailing : ∀ other, ReflTransGen (Needs design) service other →
    ∀ blueprint, design other = some blueprint → blueprint.failures = ∅

/-- A path from a service along its needs that ends where it has been once, and nowhere else twice. -/
structure Cycle (design : Design) (service : String) (path : List String) : Prop where
  starts : path.head? = some service
  steps : path.IsChain (Needs design)
  closes : ∃ earlier last, path = earlier ++ [last] ∧ earlier.Nodup ∧ earlier.count last = 1

/-- Why a construction fails: a cycle, a service without factory, or a factory that fails by itself
although all its needs can be built. -/
inductive Cause (design : Design) (service : String) : InjectionError → Prop
  | cycle {path} : Cycle design service path → Cause design service (.cycle path)
  | missing {name} : ReflTransGen (Needs design) service name → design name = none →
      Cause design service (.missing name)
  | own {failing blueprint error} : ReflTransGen (Needs design) service failing →
      design failing = some blueprint → error ∈ blueprint.failures →
      (∀ dependency ∈ blueprint.needs, Constructible design dependency) →
      Cause design service error

/-- A service that is built while those on the stack are under construction. -/
inductive Builds (design : Design) : List String → String → Prop
  | intro {stack service blueprint} : service ∉ stack → design service = some blueprint →
      blueprint.failures = ∅ →
      (∀ dependency ∈ blueprint.needs, Builds design (stack ++ [service]) dependency) →
      Builds design stack service

/-- A service that is refused with an error while those on the stack are under construction. -/
inductive Refuses (design : Design) : List String → String → InjectionError → Prop
  | cycle {stack service} : service ∈ stack →
      Refuses design stack service (.cycle (stack ++ [service]))
  | missing {stack service} : design service = none →
      Refuses design stack service (.missing service)
  | needed {stack service blueprint dependency error} : service ∉ stack →
      design service = some blueprint → dependency ∈ blueprint.needs →
      Refuses design (stack ++ [service]) dependency error → Refuses design stack service error
  | own {stack service blueprint error} : design service = some blueprint →
      (∀ dependency ∈ blueprint.needs, Builds design (stack ++ [service]) dependency) →
      error ∈ blueprint.failures → Refuses design stack service error

theorem Designed.unknown {injector : Injector σ α} {design : Design} {service : String}
    (designed : injector.Designed design) (absent : injector.lookup service = none) :
    design service = none := by
  have known := designed service
  rw [absent] at known
  cases unknown : design service with
  | none => rfl
  | some blueprint =>
      rw [unknown] at known
      cases known

theorem Designed.follows {injector : Injector σ α} {design : Design} {service : String}
    {factory : Factory σ α} (designed : injector.Designed design)
    (found : injector.lookup service = some factory) :
    ∃ blueprint, design service = some blueprint ∧
      factory.Follows blueprint.failures blueprint.needs := by
  have known := designed service
  rw [found] at known
  cases planned : design service with
  | none =>
      rw [planned] at known
      cases known
  | some blueprint =>
      rw [planned] at known
      cases known with
      | some follows => exact ⟨blueprint, rfl, follows⟩

/-- What a request comes to, whatever the state. -/
theorem resolve_verdict {injector : Injector σ α} {design : Design}
    (designed : injector.Designed design) (stack : List String) (service : String) (state : σ) :
    Verdict (Builds design stack service) (Refuses design stack service)
      (injector.resolve stack service state).1 := by
  induction stack using stack_induction injector generalizing service state with
  | each stack ih =>
      cases injector.resolution stack service with
      | pending pending =>
          rw [resolve_of_mem pending]
          exact .cycle pending
      | unknown fresh unknown =>
          rw [resolve_of_none fresh unknown]
          exact .missing (designed.unknown unknown)
      | provided fresh found =>
          obtain ⟨blueprint, planned, follows⟩ := designed.follows found
          rw [resolve_of_some fresh found]
          refine (follows.run (fun dependency _ state =>
            ih service _ found fresh dependency state) _ state).imp ?_ ?_
          · rintro ⟨built, none⟩
            exact .intro fresh planned none built
          · rintro error (⟨dependency, among, refusal⟩ | ⟨built, own⟩)
            · exact .needed fresh planned among refusal
            · exact .own planned built own

section Graph

variable {design : Design} {stack path : List String} {service other root : String}
  {error : InjectionError}

/-- What a built service leads to is not under construction. -/
theorem Builds.not_mem_stack (builds : Builds design stack service)
    (reached : ReflTransGen (Needs design) service other) : other ∉ stack := by
  induction builds with
  | @intro stack service blueprint fresh planned _ _ ih =>
      rcases reached.cases_head with rfl | ⟨dependency, ⟨same, again, among⟩, later⟩
      · exact fresh
      · cases planned.symm.trans again
        intro pending
        exact ih dependency among later (List.mem_append_left _ pending)

theorem Builds.of_reached (builds : Builds design stack service)
    (reached : ReflTransGen (Needs design) service other) :
    ∃ above, Builds design above other := by
  induction reached with
  | refl => exact ⟨stack, builds⟩
  | tail _ need ih =>
      obtain ⟨above, buildsMiddle⟩ := ih
      cases buildsMiddle with
      | intro _ planned _ built =>
          obtain ⟨_, again, among⟩ := need
          cases planned.symm.trans again
          exact ⟨_, built _ among⟩

/-- A built service needs itself on no way: under its needs it is under construction. -/
theorem Builds.acyclic (builds : Builds design stack service) :
    ¬ TransGen (Needs design) service service := by
  intro cycle
  obtain ⟨dependency, ⟨_, again, among⟩, later⟩ := TransGen.head'_iff.mp cycle
  cases builds with
  | intro _ planned _ built =>
      cases planned.symm.trans again
      exact (built dependency among).not_mem_stack later (by simp)

theorem Builds.constructible (builds : Builds design stack service) :
    Constructible design service := by
  constructor
  case provided =>
    intro other reached
    obtain ⟨above, buildsOther⟩ := builds.of_reached reached
    cases buildsOther with
    | intro _ planned _ _ => exact ⟨_, planned⟩
  case acyclic =>
    intro other reached
    obtain ⟨above, buildsOther⟩ := builds.of_reached reached
    exact buildsOther.acyclic
  case unfailing =>
    intro other reached blueprint known
    obtain ⟨above, buildsOther⟩ := builds.of_reached reached
    cases buildsOther with
    | intro _ planned none _ =>
        cases planned.symm.trans known
        exact none

/-- The services under construction, from the first to the one that is asked for. -/
structure Trail (design : Design) (root : String) (stack : List String) (service : String) :
    Prop where
  starts : (stack ++ [service]).head? = some root
  steps : (stack ++ [service]).IsChain (Needs design)
  nodup : stack.Nodup

theorem Trail.start (design : Design) (root : String) : Trail design root [] root :=
  ⟨rfl, List.isChain_singleton root, List.nodup_nil⟩

theorem Trail.step (trail : Trail design root stack service) (fresh : service ∉ stack)
    (need : Needs design service other) : Trail design root (stack ++ [service]) other where
  starts := by
    rw [List.head?_append, trail.starts]
    rfl
  steps := by
    refine List.isChain_append.mpr ⟨trail.steps, List.isChain_singleton _, ?_⟩
    simpa using need
  nodup := by
    refine List.nodup_append.mpr ⟨trail.nodup, List.nodup_singleton _, ?_⟩
    rintro pending member last same rfl
    exact fresh (List.mem_singleton.mp same ▸ member)

/-- On a path along needs, all that comes before the last leads to it. -/
theorem transGen_of_isChain {earlier : List String} {last : String}
    (steps : (earlier ++ [last]).IsChain (Needs design)) :
    ∀ name ∈ earlier, TransGen (Needs design) name last := by
  have far : (earlier ++ [last]).Pairwise (TransGen (Needs design)) :=
    (steps.imp fun _ _ => TransGen.single).pairwise
  intro name member
  exact (List.pairwise_append.mp far).2.2 name member last (List.mem_singleton.mpr rfl)

theorem reached_of_isChain {earlier : List String} {last : String}
    (starts : (earlier ++ [last]).head? = some root)
    (steps : (earlier ++ [last]).IsChain (Needs design)) :
    ReflTransGen (Needs design) root last := by
  cases earlier with
  | nil =>
      cases starts
      exact .refl
  | cons first rest =>
      cases starts
      exact (transGen_of_isChain steps root List.mem_cons_self).to_reflTransGen

/-- A cycle leads to a service that leads to itself. -/
theorem Cycle.exists_transGen (cycle : Cycle design root path) :
    ∃ name, ReflTransGen (Needs design) root name ∧ TransGen (Needs design) name name := by
  obtain ⟨starts, steps, earlier, last, rfl, _, once⟩ := cycle
  have member : last ∈ earlier := List.count_pos_iff.mp (once ▸ Nat.one_pos)
  exact ⟨last, reached_of_isChain starts steps, transGen_of_isChain steps last member⟩

theorem Refuses.cause (refuses : Refuses design stack service error)
    (trail : Trail design root stack service) : Cause design root error := by
  induction refuses with
  | cycle pending =>
      exact .cycle ⟨trail.starts, trail.steps, _, _, rfl, trail.nodup,
        List.count_eq_one_of_mem trail.nodup pending⟩
  | missing unknown => exact .missing (reached_of_isChain trail.starts trail.steps) unknown
  | needed fresh planned among _ ih => exact ih (trail.step fresh ⟨_, planned, among⟩)
  | own planned built own =>
      exact .own (reached_of_isChain trail.starts trail.steps) planned own
        fun dependency among => (built dependency among).constructible

theorem Cause.not_constructible (cause : Cause design root error) :
    ¬ Constructible design root := by
  intro constructible
  cases cause with
  | cycle cycle =>
      obtain ⟨name, reached, back⟩ := cycle.exists_transGen
      exact constructible.acyclic name reached back
  | missing reached unknown =>
      obtain ⟨blueprint, known⟩ := constructible.provided _ reached
      cases unknown.symm.trans known
  | own reached planned own _ =>
      rw [constructible.unfailing _ reached _ planned] at own
      cases own

end Graph

/-- A factory that a service leads to and that fails by itself, although each of its needs is built
whenever it is asked for. -/
def OwnFailure (injector : Injector σ α) (design : Design) (service : String)
    (error : InjectionError) : Prop :=
  ∃ failing blueprint, ReflTransGen (Needs design) service failing ∧
    design failing = some blueprint ∧ error ∈ blueprint.failures ∧
    ∀ dependency ∈ blueprint.needs, ∀ state, ∃ built,
      (injector.construct dependency state).1 = .ok built

/-- A construction succeeds exactly if it can, and its error tells why it does not. An error that no
factory fails with by itself is a report of the injector. -/
structure Decided (injector : Injector σ α) (design : Design) (service : String)
    (result : Except InjectionError α) : Prop where
  ok_iff : (∃ built, result = .ok built) ↔ Constructible design service
  cycle : ∀ path, result = .error (.cycle path) →
    Cycle design service path ∨ OwnFailure injector design service (.cycle path)
  missing : ∀ name, result = .error (.missing name) →
    ReflTransGen (Needs design) service name ∧ design name = none ∨
      OwnFailure injector design service (.missing name)
  failed : ∀ label message, result = .error (.failed label message) →
    OwnFailure injector design service (.failed label message)

theorem construct_eq_ok_iff {injector : Injector σ α} {design : Design}
    (designed : injector.Designed design) (service : String) (state : σ) :
    (∃ built, (injector.construct service state).1 = .ok built) ↔ Constructible design service := by
  have verdict := resolve_verdict designed [] service state
  change Verdict _ _ (injector.construct service state).1 at verdict
  cases result : (injector.construct service state).1 with
  | error error =>
      rw [result] at verdict
      refine ⟨nofun, fun constructible => ?_⟩
      exact absurd constructible (verdict.cause (.start design service)).not_constructible
  | ok built =>
      rw [result] at verdict
      exact ⟨fun _ => verdict.constructible, fun _ => ⟨built, rfl⟩⟩

theorem cause_of_construct {injector : Injector σ α} {design : Design}
    (designed : injector.Designed design) {service : String} {state : σ} {error : InjectionError}
    (refused : (injector.construct service state).1 = .error error) :
    Cause design service error := by
  have verdict := resolve_verdict designed [] service state
  change Verdict _ _ (injector.construct service state).1 at verdict
  rw [refused] at verdict
  exact verdict.cause (.start design service)

theorem decided_construct {injector : Injector σ α} {design : Design}
    (designed : injector.Designed design) (service : String) (state : σ) :
    Decided injector design service (injector.construct service state).1 := by
  have ownFailure : ∀ {failing blueprint error}, ReflTransGen (Needs design) service failing →
      design failing = some blueprint → error ∈ blueprint.failures →
      (∀ dependency ∈ blueprint.needs, Constructible design dependency) →
      OwnFailure injector design service error := by
    intro failing blueprint error reached planned own built
    refine ⟨failing, blueprint, reached, planned, own, fun dependency among state => ?_⟩
    exact (construct_eq_ok_iff designed dependency state).mpr (built dependency among)
  constructor
  case ok_iff => exact construct_eq_ok_iff designed service state
  case cycle =>
    intro path refused
    cases cause_of_construct designed refused with
    | cycle cycle => exact Or.inl cycle
    | own reached planned own built => exact Or.inr (ownFailure reached planned own built)
  case missing =>
    intro name refused
    cases cause_of_construct designed refused with
    | missing reached unknown => exact Or.inl ⟨reached, unknown⟩
    | own reached planned own built => exact Or.inr (ownFailure reached planned own built)
  case failed =>
    intro label message refused
    cases cause_of_construct designed refused with
    | own reached planned own built => exact ownFailure reached planned own built

/-- The factories of recipes. -/
def ofRecipes (recipes : Keyed Recipe) : Injector Nat Service :=
  recipes.map fun entry => (entry.1, entry.2.factory)

def designOf (recipes : Keyed Recipe) : Design :=
  fun service => (recipes.lookup service).map Recipe.blueprint

theorem designed_ofRecipes {recipes : Keyed Recipe}
    (required : ∀ entry ∈ recipes, entry.2.Required) :
    (ofRecipes recipes).Designed (designOf recipes) := by
  intro service
  rw [ofRecipes, Keyed.lookup_map, designOf]
  cases found : recipes.lookup service with
  | none => exact .none
  | some recipe => exact .some (required _ (Keyed.mem_of_lookup found)).follows

/-- A recipe that asks for services and never fails by itself. -/
def required (services : List String) : Recipe where
  label := ""
  dependencies := services.map (⟨·, false⟩)

/-- A shop needs its stock twice and shares the ledger; audit and office need each other. -/
def trade : Keyed Recipe :=
  [("Shop", required ["Stock", "Till", "Stock"]),
    ("Stock", required ["Ledger"]),
    ("Till", required ["Ledger"]),
    ("Ledger", required []),
    ("Audit", required ["Stock", "Office"]),
    ("Office", required ["Till", "Audit"])]

theorem decided_trade : (ofRecipes trade).Designed (designOf trade) ∧
    Decided (ofRecipes trade) (designOf trade) "Shop" ((ofRecipes trade).construct "Shop" 0).1 ∧
    ((ofRecipes trade).construct "Shop" 0).1.isOk ∧
    Decided (ofRecipes trade) (designOf trade) "Audit"
      ((ofRecipes trade).construct "Audit" 0).1 ∧
    ((ofRecipes trade).construct "Audit" 0).1.map (fun _ => ()) =
      .error (.cycle ["Audit", "Office", "Audit"]) := by
  have designed : (ofRecipes trade).Designed (designOf trade) := designed_ofRecipes (by decide)
  exact ⟨designed, decided_construct designed "Shop" 0, by decide +kernel,
    decided_construct designed "Audit" 0, by decide +kernel⟩

end CodeFirst.Injector
