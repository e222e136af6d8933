import CodeFirst.Proofs.Injector.Resolution
import CodeFirst.Proofs.Keyed
import Mathlib.Data.List.Dedup
import Mathlib.Data.List.Perm.Subperm
import Mathlib.Logic.Relation

/-! Construction step by step, on one stack that every factory finds and leaves behind. A service is
pushed when its factory starts and popped when it is through; each request is answered where it was
made, with what recursion over the stack as an argument gives. -/
namespace CodeFirst.Injector
open Relation (ReflTransGen)

variable {σ α : Type}

/-- What a construction does next. -/
inductive Control (σ α : Type) where
  | ask (service : String)
  /-- The factory of the last service on the stack goes on. -/
  | work (factory : Factory σ α)
  | answer (result : Except InjectionError α)

/-- A construction under way: the services whose factories have started, and the factories that wait
for an answer, the nearest first. -/
structure Scope (σ α : Type) where
  stack : List String
  waiting : List (Except InjectionError α → Factory σ α)
  control : Control σ α
  state : σ

def Scope.start (service : String) (state : σ) : Scope σ α :=
  ⟨[], [], .ask service, state⟩

/-- One step. An answer that no factory waits for ends the construction. -/
def step (injector : Injector σ α) (scope : Scope σ α) : Option (Scope σ α) :=
  match scope.control with
  | .ask service =>
    if service ∈ scope.stack then
      some { scope with control := .answer (.error (.cycle (scope.stack ++ [service]))) }
    else
      match injector.lookup service with
      | none => some { scope with control := .answer (.error (.missing service)) }
      | some factory =>
        some { scope with stack := scope.stack ++ [service], control := .work factory }
  | .work (.finish build) =>
    let (result, after) := build scope.state
    some { scope with stack := scope.stack.dropLast, control := .answer result, state := after }
  | .work (.request service next) =>
    some { scope with waiting := next :: scope.waiting, control := .ask service }
  | .work (.measure next) => some { scope with control := .work (next scope.stack.length) }
  | .answer result =>
    match scope.waiting with
    | [] => none
    | next :: rest => some { scope with waiting := rest, control := .work (next result) }

/-- The scopes that a construction comes through. -/
def Runs (injector : Injector σ α) : Scope σ α → Scope σ α → Prop :=
  ReflTransGen fun before after => injector.step before = some after

variable {injector : Injector σ α} {stack : List String}
  {waiting : List (Except InjectionError α → Factory σ α)} {service : String} {state : σ}

theorem step_ask_of_mem (pending : service ∈ stack) :
    injector.step ⟨stack, waiting, .ask service, state⟩ =
      some ⟨stack, waiting, .answer (.error (.cycle (stack ++ [service]))), state⟩ := by
  simp only [step, if_pos pending]

theorem step_ask_of_none (fresh : service ∉ stack) (unknown : injector.lookup service = none) :
    injector.step ⟨stack, waiting, .ask service, state⟩ =
      some ⟨stack, waiting, .answer (.error (.missing service)), state⟩ := by
  simp only [step, if_neg fresh, unknown]

theorem step_ask_of_some {factory : Factory σ α} (fresh : service ∉ stack)
    (found : injector.lookup service = some factory) :
    injector.step ⟨stack, waiting, .ask service, state⟩ =
      some ⟨stack ++ [service], waiting, .work factory, state⟩ := by
  simp only [step, if_neg fresh, found]

/-- If requests are answered where they are made, a factory runs to its end there, and then its
service is off the stack. -/
theorem runs_work {answer : String → σ → Except InjectionError α × σ}
    (answered : ∀ waiting service state, injector.Runs ⟨stack, waiting, .ask service, state⟩
      ⟨stack, waiting, .answer (answer service state).1, (answer service state).2⟩)
    (factory : Factory σ α) :
    injector.Runs ⟨stack, waiting, .work factory, state⟩
      ⟨stack.dropLast, waiting, .answer (factory.run answer stack.length state).1,
        (factory.run answer stack.length state).2⟩ := by
  induction factory generalizing state with
  | finish build => exact ReflTransGen.single rfl
  | request service next ih =>
      have asked : injector.Runs ⟨stack, waiting, .work (.request service next), state⟩
          ⟨stack, next :: waiting, .ask service, state⟩ := ReflTransGen.single rfl
      have resumed : injector.step ⟨stack, next :: waiting, .answer (answer service state).1,
          (answer service state).2⟩ = some ⟨stack, waiting, .work (next (answer service state).1),
            (answer service state).2⟩ := rfl
      exact ((asked.trans (answered _ service state)).tail resumed).trans (ih _)
  | measure next ih => exact ReflTransGen.head rfl (ih _)

/-- Every request is answered on the stack that it was made on, with nothing else waiting. -/
theorem runs_ask (injector : Injector σ α) (stack : List String)
    (waiting : List (Except InjectionError α → Factory σ α)) (service : String) (state : σ) :
    injector.Runs ⟨stack, waiting, .ask service, state⟩
      ⟨stack, waiting, .answer (injector.resolve stack service state).1,
        (injector.resolve stack service state).2⟩ := by
  induction stack using stack_induction injector generalizing waiting service state with
  | each stack ih =>
      cases injector.resolution stack service with
      | pending pending =>
          rw [resolve_of_mem pending]
          exact ReflTransGen.single (step_ask_of_mem pending)
      | unknown fresh unknown =>
          rw [resolve_of_none fresh unknown]
          exact ReflTransGen.single (step_ask_of_none fresh unknown)
      | @provided factory fresh found =>
          rw [resolve_of_some fresh found]
          have worked : injector.Runs ⟨stack ++ [service], waiting, .work factory, state⟩ _ :=
            runs_work
              (fun waiting service state => ih _ _ found fresh waiting service state) factory
          rw [List.dropLast_concat, List.length_append, List.length_singleton] at worked
          exact ReflTransGen.head (step_ask_of_some fresh found) worked

/-- Whatever is under way comes to an end. -/
theorem exists_halted (injector : Injector σ α) (scope : Scope σ α) :
    ∃ last, injector.Runs scope last ∧ injector.step last = none := by
  -- An answer resumes one of those that wait, which runs to an answer of its own; so they get fewer.
  have answers : ∀ waiting stack result state,
      ∃ last, injector.Runs ⟨stack, waiting, .answer result, state⟩ last ∧
        injector.step last = none := by
    intro waiting
    induction waiting with
    | nil => exact fun stack result state => ⟨_, ReflTransGen.refl, rfl⟩
    | cons next rest ih =>
        intro stack result state
        obtain ⟨last, runs, halted⟩ := ih _ _ _
        have resumed : injector.Runs ⟨stack, next :: rest, .answer result, state⟩
            ⟨stack, rest, .work (next result), state⟩ := ReflTransGen.single rfl
        have worked : injector.Runs ⟨stack, rest, .work (next result), state⟩ _ :=
          runs_work (runs_ask injector stack) (next result)
        exact ⟨last, (resumed.trans worked).trans runs, halted⟩
  obtain ⟨stack, waiting, control, state⟩ := scope
  cases control with
  | ask service =>
      obtain ⟨last, runs, halted⟩ := answers waiting stack _ _
      exact ⟨last, (runs_ask injector stack waiting service state).trans runs, halted⟩
  | work factory =>
      obtain ⟨last, runs, halted⟩ := answers waiting _ _ _
      exact ⟨last, (runs_work (runs_ask injector stack) factory).trans runs, halted⟩
  | answer result => exact answers waiting stack result state

/-- Steps are determined, so what comes to an end has no endless run. -/
theorem acc_of_runs {scope last : Scope σ α} (runs : injector.Runs scope last)
    (halted : injector.step last = none) :
    Acc (fun after before => injector.step before = some after) scope := by
  induction runs using ReflTransGen.head_induction_on with
  | refl =>
      constructor
      intro after next
      cases halted.symm.trans next
  | head first _ ih =>
      constructor
      intro after next
      cases first.symm.trans next
      exact ih

/-- The factory at work, which is not among those that wait. -/
def Control.working : Control σ α → Nat
  | .ask _ => 0
  | .work _ => 1
  | .answer _ => 0

/-- The services on the stack have factories and differ, and each stands there for a factory that has
started: one that waits, or the one at work. -/
structure Orderly (injector : Injector σ α) (scope : Scope σ α) : Prop where
  nodup : scope.stack.Nodup
  provided : ∀ service ∈ scope.stack, injector.provides service = true
  started : scope.stack.length = scope.waiting.length + scope.control.working

theorem orderly_start (service : String) (state : σ) :
    injector.Orderly (Scope.start service state) :=
  ⟨List.nodup_nil, nofun, rfl⟩

theorem Orderly.step {scope after : Scope σ α} (orderly : injector.Orderly scope)
    (next : injector.step scope = some after) : injector.Orderly after := by
  obtain ⟨stack, waiting, control, state⟩ := scope
  obtain ⟨nodup, provided, started⟩ := orderly
  cases control with
  | ask service =>
      cases injector.resolution stack service with
      | pending pending =>
          cases (step_ask_of_mem pending).symm.trans next
          exact ⟨nodup, provided, started⟩
      | unknown fresh unknown =>
          cases (step_ask_of_none fresh unknown).symm.trans next
          exact ⟨nodup, provided, started⟩
      | provided fresh found =>
          cases (step_ask_of_some fresh found).symm.trans next
          refine ⟨?_, ?_, ?_⟩
          · simpa using nodup.concat fresh
          · intro other member
            rcases List.mem_append.mp member with below | top
            · exact provided other below
            · cases List.mem_singleton.mp top
              exact Option.isSome_iff_exists.mpr ⟨_, found⟩
          · simpa [Control.working] using started
  | work factory =>
      cases factory with
      | finish build =>
          cases next
          refine ⟨nodup.sublist stack.dropLast_sublist, ?_, ?_⟩
          · exact fun other member => provided other (stack.dropLast_sublist.subset member)
          · rw [List.length_dropLast, started]
            rfl
      | request service next =>
          cases next
          exact ⟨nodup, provided, started⟩
      | measure next =>
          cases next
          exact ⟨nodup, provided, started⟩
  | answer result =>
      cases waiting with
      | nil => cases next
      | cons resume rest =>
          cases next
          exact ⟨nodup, provided, started⟩

theorem Orderly.runs {scope after : Scope σ α} (orderly : injector.Orderly scope)
    (runs : injector.Runs scope after) : injector.Orderly after := by
  induction runs with
  | refl => exact orderly
  | tail _ next ih => exact ih.step next

theorem Orderly.length_le {scope : Scope σ α} (orderly : injector.Orderly scope) :
    scope.stack.length ≤ (Keyed.names injector).dedup.length := by
  have named : scope.stack ⊆ (Keyed.names injector).dedup := by
    intro service member
    rw [List.mem_dedup]
    exact Keyed.isSome_lookup.mp (orderly.provided service member)
  exact (orderly.nodup.subperm named).length_le

/-- What the program gives does not depend on the state, only on the answers that it gets. -/
inductive Steady : Factory σ α → Prop
  | finish {build} : (∀ state other, (build state).1 = (build other).1) → Steady (.finish build)
  | request {service next} : (∀ result, Steady (next result)) → Steady (.request service next)
  | measure {next} : (∀ depth, Steady (next depth)) → Steady (.measure next)

theorem Steady.run {answer : String → σ → Except InjectionError α × σ} {factory : Factory σ α}
    (steady : Steady factory)
    (answers : ∀ service state other, (answer service state).1 = (answer service other).1)
    (depth : Nat) (state other : σ) :
    (factory.run answer depth state).1 = (factory.run answer depth other).1 := by
  induction steady generalizing state other with
  | finish same => exact same state other
  | @request service next _ ih =>
      simp only [Factory.run]
      rw [answers service state other]
      exact ih _ _ _
  | measure _ ih => exact ih depth state other

/-- Where all factories are steady, a request has one answer on each stack. -/
theorem resolve_steady (steady : ∀ service factory, injector.lookup service = some factory →
      Steady factory) (stack : List String) (service : String) (state other : σ) :
    (injector.resolve stack service state).1 = (injector.resolve stack service other).1 := by
  induction stack using stack_induction injector generalizing service state other with
  | each stack ih =>
      cases injector.resolution stack service with
      | pending pending => rw [resolve_of_mem pending, resolve_of_mem pending]
      | unknown fresh unknown => rw [resolve_of_none fresh unknown, resolve_of_none fresh unknown]
      | provided fresh found =>
          rw [resolve_of_some fresh found, resolve_of_some fresh found]
          exact (steady service _ found).run (ih service _ found fresh) _ state other

/-- Constructions on one stack. Everything comes to an end; each request leaves the stack and what
waits as it found them, however it is answered; and meanwhile the stack holds different services
that have factories. -/
structure Discipline (injector : Injector σ α) : Prop where
  ends : ∀ scope, Acc (fun after before => injector.step before = some after) scope
  answered : ∀ stack waiting service state,
    injector.Runs ⟨stack, waiting, .ask service, state⟩
      ⟨stack, waiting, .answer (injector.resolve stack service state).1,
        (injector.resolve stack service state).2⟩
  constructed : ∀ service state,
    injector.Runs (Scope.start service state)
      ⟨[], [], .answer (injector.construct service state).1,
        (injector.construct service state).2⟩
  nodup : ∀ service state scope, injector.Runs (Scope.start service state) scope →
    scope.stack.Nodup
  provided : ∀ service state scope, injector.Runs (Scope.start service state) scope →
    ∀ pending ∈ scope.stack, injector.provides pending = true
  bounded : ∀ service state scope, injector.Runs (Scope.start service state) scope →
    scope.stack.length ≤ (Keyed.names injector).dedup.length
  /-- A factory starts one deeper than the call that starts it, and is told so. -/
  deeper : ∀ scope service factory after, scope.control = .ask service →
    injector.step scope = some after → after.control = .work factory →
      after.stack.length = scope.stack.length + 1 ∧
        injector.resolve scope.stack service scope.state =
          factory.run (injector.resolve after.stack) after.stack.length scope.state
  /-- A factory that goes on after a refusal does so on the stack that it had before. -/
  swallowed : ∀ stack waiting refused next state error after,
    injector.resolve stack refused state = (.error error, after) →
      injector.Runs ⟨stack, waiting, .work (.request refused next), state⟩
        ⟨stack, waiting, .work (next (.error error)), after⟩
  /-- What else has happened makes no difference to a request, but by the state. -/
  unaffected : (∀ service factory, injector.lookup service = some factory → Steady factory) →
    ∀ stack service state other,
      (injector.resolve stack service state).1 = (injector.resolve stack service other).1

theorem disciplined (injector : Injector σ α) : Discipline injector := by
  constructor
  case ends =>
    intro scope
    obtain ⟨last, runs, halted⟩ := exists_halted injector scope
    exact acc_of_runs runs halted
  case answered => exact runs_ask injector
  case constructed =>
    intro service state
    exact runs_ask injector [] [] service state
  case nodup =>
    intro service state scope runs
    exact ((orderly_start service state).runs runs).nodup
  case provided =>
    intro service state scope runs
    exact ((orderly_start service state).runs runs).provided
  case bounded =>
    intro service state scope runs
    exact ((orderly_start service state).runs runs).length_le
  case deeper =>
    rintro ⟨stack, waiting, control, state⟩ service factory after rfl next works
    cases injector.resolution stack service with
    | pending pending =>
        cases (step_ask_of_mem pending).symm.trans next
        cases works
    | unknown fresh unknown =>
        cases (step_ask_of_none fresh unknown).symm.trans next
        cases works
    | provided fresh found =>
        cases (step_ask_of_some fresh found).symm.trans next
        cases works
        rw [List.length_append, List.length_singleton]
        exact ⟨rfl, resolve_of_some fresh found⟩
  case swallowed =>
    intro stack waiting refused next state error after refusal
    have answered := runs_ask injector stack (next :: waiting) refused state
    rw [refusal] at answered
    have asked : injector.Runs ⟨stack, waiting, .work (.request refused next), state⟩
        ⟨stack, next :: waiting, .ask refused, state⟩ := ReflTransGen.single rfl
    have resumed : injector.Runs ⟨stack, next :: waiting, .answer (.error error), after⟩
        ⟨stack, waiting, .work (next (.error error)), after⟩ := ReflTransGen.single rfl
    exact (asked.trans answered).trans resumed
  case unaffected => exact resolve_steady

end CodeFirst.Injector
