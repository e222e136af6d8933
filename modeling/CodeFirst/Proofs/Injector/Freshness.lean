import CodeFirst.Proofs.Injector.Resolution
import CodeFirst.Proofs.Injector.Unfolding

/-! Every request builds a fresh service. Factories are watched while they run: each that comes to its
end gets a number and leaves the numbers of the parts that it was given. What is on record after a
construction is the unfolding of the service, part by part. -/
namespace CodeFirst

variable {σ α : Type}

/-- A factory that has come to its end, and the numbers of the parts that it was given, in order. The
place on record is the number of what it built. -/
structure Completion where
  service : String
  parts : List Nat
deriving DecidableEq

/-- The same program, on record: what it is given comes with a number, and so does what it builds. -/
def Factory.recorded (service : String) (parts : List Nat) :
    Factory σ α → Factory (σ × List Completion) (α × Nat)
  | .finish build => .finish fun before =>
    let (result, after) := build before.1
    (result.map (·, before.2.length), after, before.2 ++ [⟨service, parts⟩])
  | .request dependency next => .request dependency fun
    | .ok part => recorded service (parts ++ [part.2]) (next (.ok part.1))
    | .error error => recorded service parts (next (.error error))
  | .measure next => .measure fun depth => recorded service parts (next depth)

namespace Injector

def recorded (injector : Injector σ α) : Injector (σ × List Completion) (α × Nat) :=
  injector.map fun entry => (entry.1, entry.2.recorded entry.1 [])

/-- What is left of a result when the record is dropped. -/
def unrecorded (result : Except InjectionError (α × Nat) × σ × List Completion) :
    Except InjectionError α × σ :=
  (result.1.map (·.1), result.2.1)

variable {injector : Injector σ α} {design : Design} {service : String} {parts : List Nat}

theorem lookup_recorded (injector : Injector σ α) (service : String) :
    injector.recorded.lookup service =
      (injector.lookup service).map (·.recorded service []) := by
  induction injector with
  | nil => rfl
  | cons head rest ih =>
      obtain ⟨name, factory⟩ := head
      rw [recorded, List.map_cons, Keyed.lookup_cons_eq, Keyed.lookup_cons_eq]
      split
      · rename_i same
        subst same
        rfl
      · exact ih

theorem unrecorded_run {answer : String → σ → Except InjectionError α × σ}
    {answerRecorded : String → σ × List Completion →
      Except InjectionError (α × Nat) × σ × List Completion}
    (answers : ∀ dependency before,
      unrecorded (answerRecorded dependency before) = answer dependency before.1)
    (factory : Factory σ α) (depth : Nat) (before : σ × List Completion) :
    unrecorded ((factory.recorded service parts).run answerRecorded depth before) =
      factory.run answer depth before.1 := by
  induction factory generalizing parts before with
  | finish build =>
      simp only [Factory.recorded, Factory.run]
      rcases build before.1 with ⟨_ | built, after⟩
      · rfl
      · rfl
  | request dependency next ih =>
      simp only [Factory.recorded, Factory.run, ← answers]
      rcases answerRecorded dependency before with ⟨_ | part, after⟩
      · exact ih _ after
      · exact ih _ after
  | measure next ih => exact ih depth before

/-- Being on record changes nothing. -/
theorem unrecorded_resolve (injector : Injector σ α) (stack : List String) (service : String)
    (before : σ × List Completion) :
    unrecorded (injector.recorded.resolve stack service before) =
      injector.resolve stack service before.1 := by
  induction stack using stack_induction injector generalizing service before with
  | each stack ih =>
      have known := lookup_recorded injector service
      cases injector.resolution stack service with
      | pending pending =>
          rw [resolve_of_mem pending, resolve_of_mem pending]
          rfl
      | unknown fresh unknown =>
          rw [unknown] at known
          rw [resolve_of_none fresh known, resolve_of_none fresh unknown]
          rfl
      | @provided factory fresh found =>
          rw [found] at known
          rw [resolve_of_some fresh known, resolve_of_some fresh found]
          exact unrecorded_run (ih service factory found fresh) factory _ before

namespace Unfolding

mutual

/-- The record of building each part once, the first of them with this number. -/
def completions (first : Nat) : Unfolding → List Completion
  | .node service parts =>
    allCompletions first parts ++ [⟨service, numbers first parts⟩]

def allCompletions (first : Nat) : List Unfolding → List Completion
  | [] => []
  | part :: rest =>
    completions first part ++ allCompletions (first + part.postorder.length) rest

/-- The numbers of the parts themselves: each is built last of all that it is built from. -/
def numbers (first : Nat) : List Unfolding → List Nat
  | [] => []
  | part :: rest =>
    (first + part.postorder.length - 1) :: numbers (first + part.postorder.length) rest

end

mutual

theorem map_service_completions (first : Nat) :
    (tree : Unfolding) → (tree.completions first).map (·.service) = tree.postorder
  | .node service parts => by
      rw [completions, postorder, List.map_append, map_service_allCompletions first parts]
      rfl

theorem map_service_allCompletions (first : Nat) :
    (parts : List Unfolding) → (allCompletions first parts).map (·.service) = postorders parts
  | [] => rfl
  | part :: rest => by
      rw [allCompletions, postorders, List.map_append, map_service_completions first part,
        map_service_allCompletions _ rest]

end

theorem length_completions (first : Nat) (tree : Unfolding) :
    (tree.completions first).length = tree.postorder.length := by
  rw [← map_service_completions first, List.length_map]

theorem postorder_length_pos (tree : Unfolding) : 0 < tree.postorder.length := by
  obtain ⟨service, parts⟩ := tree
  simp [postorder]

mutual

/-- But for the last, each number is that of one part of one service. -/
theorem parts_completions (first : Nat) : (tree : Unfolding) →
    ((tree.completions first).flatMap (·.parts)).Perm
      (List.range' first (tree.postorder.length - 1))
  | .node service parts => by
      have inside := parts_allCompletions first parts
      simpa [completions, postorder] using inside

theorem parts_allCompletions (first : Nat) : (parts : List Unfolding) →
    ((allCompletions first parts).flatMap (·.parts) ++ numbers first parts).Perm
      (List.range' first (postorders parts).length)
  | [] => .nil
  | part :: rest => by
      have here := parts_completions first part
      have behind := parts_allCompletions (first + part.postorder.length) rest
      obtain ⟨before, size⟩ := Nat.exists_eq_succ_of_ne_zero part.postorder_length_pos.ne'
      rw [size] at here behind
      rw [allCompletions, numbers, postorders, List.length_append, size, List.flatMap_append,
        ← List.range'_append_1, List.range'_1_concat, List.append_assoc, List.append_assoc]
      -- The last number of the part is given to what the part is built for, so it goes to the front.
      refine here.append ((List.perm_middle).trans ?_)
      exact .cons _ behind

end

end Unfolding

/-- Each on record is of a service with needs, and was given for each of them, in order, a part of
that service that was on record before. -/
inductive Joined (design : Design) : List Completion → Prop
  | nil : Joined design []
  | concat {record service parts blueprint} : Joined design record →
      design service = some blueprint →
      List.Forall₂ (fun part need => record[part]?.map (·.service) = some need)
        parts blueprint.needs →
      Joined design (record ++ [⟨service, parts⟩])

namespace Unfolding

/-- What is built of a tree comes last. -/
theorem last_completions (record : List Completion) (tree : Unfolding) :
    (record ++ tree.completions record.length)[record.length + tree.postorder.length - 1]?.map
      (·.service) = some tree.service := by
  obtain ⟨service, parts⟩ := tree
  have place : record.length + (node service parts).postorder.length - 1 =
      (record ++ allCompletions record.length parts).length := by
    rw [postorder, List.length_append, List.length_append,
      ← map_service_allCompletions record.length, List.length_map, List.length_singleton]
    omega
  rw [completions, ← List.append_assoc, place, List.getElem?_concat_length]
  rfl

theorem numbers_given (record : List Completion) (parts : List Unfolding) :
    List.Forall₂
      (fun part need =>
        (record ++ allCompletions record.length parts)[part]?.map (·.service) = some need)
      (numbers record.length parts) (parts.map (·.service)) := by
  induction parts generalizing record with
  | nil => exact .nil
  | cons part rest ih =>
      have behind := ih (record ++ part.completions record.length)
      have last := last_completions record part
      have size := length_completions record.length part
      have some := postorder_length_pos part
      rw [List.length_append, size] at behind
      rw [allCompletions, numbers, List.map_cons, ← List.append_assoc]
      refine .cons ?_ behind
      rw [List.getElem?_append_left]
      · exact last
      · rw [List.length_append, size]
        omega

mutual

theorem joined_completions {design : Design} {record : List Completion}
    (joined : Joined design record) : (tree : Unfolding) → tree.Unfolds design →
      Joined design (record ++ tree.completions record.length)
  | .node service parts, ⟨⟨blueprint, planned, needs⟩, below⟩ => by
      rw [completions, ← List.append_assoc]
      refine .concat (joined_allCompletions joined parts below) planned ?_
      rw [← needs]
      exact numbers_given record parts

theorem joined_allCompletions {design : Design} {record : List Completion}
    (joined : Joined design record) : (parts : List Unfolding) → AllUnfold design parts →
      Joined design (record ++ allCompletions record.length parts)
  | [], _ => by
      rw [allCompletions, List.append_nil]
      exact joined
  | part :: rest, ⟨here, behind⟩ => by
      have grown := joined_allCompletions (joined_completions joined part here) rest behind
      rw [List.length_append, length_completions] at grown
      rw [allCompletions, ← List.append_assoc]
      exact grown

end

end Unfolding

section Construction

variable {before : σ × List Completion} {built : α} {number depth : Nat} {after : σ}
  {log : List Completion}
  {answer : String → σ × List Completion →
    Except InjectionError (α × Nat) × σ × List Completion}

/-- What a request leaves on record if it is answered: an unfolding of the service. -/
def Records (design : Design)
    (answer : String → σ × List Completion →
      Except InjectionError (α × Nat) × σ × List Completion) (service : String) : Prop :=
  ∀ before built number after log, answer service before = (.ok (built, number), after, log) →
    ∃ tree : Unfolding, tree.service = service ∧ tree.Unfolds design ∧
      log = before.2 ++ tree.completions before.2.length ∧ number + 1 = log.length

/-- A program that asks for no service comes to its end at once. -/
theorem ends_recorded {outcome : Except InjectionError α → Prop} {factory : Factory σ α}
    (ends : factory.Ends outcome)
    (run : (factory.recorded service parts).run answer depth before =
      (.ok (built, number), after, log)) :
    outcome (.ok built) ∧ log = before.2 ++ [⟨service, parts⟩] ∧ number = before.2.length := by
  induction ends with
  | @finish build all =>
      have known := all before.1
      simp only [Factory.recorded, Factory.run] at run
      rcases made : build before.1 with ⟨result, later⟩
      rw [made] at run known
      cases result with
      | error error => cases run
      | ok part =>
          cases run
          exact ⟨known, rfl, rfl⟩
  | measure _ ih => exact ih depth run

/-- A factory of fixed needs that builds leaves an unfolding of each need, in order, and is given
what each of them ends with. -/
theorem follows_recorded {failures : Set InjectionError} {needs : List String}
    {factory : Factory σ α} (follows : factory.Follows failures needs)
    (answers : ∀ need ∈ needs, Records design answer need)
    (run : (factory.recorded service parts).run answer depth before =
      (.ok (built, number), after, log)) :
    ∃ trees : List Unfolding, trees.map (·.service) = needs ∧
      Unfolding.AllUnfold design trees ∧
      log = before.2 ++ Unfolding.allCompletions before.2.length trees ++
        [⟨service, parts ++ Unfolding.numbers before.2.length trees⟩] ∧
      number + 1 = log.length := by
  induction follows generalizing parts before with
  | finish ends =>
      obtain ⟨_, rfl, rfl⟩ := ends_recorded ends run
      exact ⟨[], rfl, trivial, by simp [Unfolding.allCompletions, Unfolding.numbers], by simp⟩
  | @request need rest next _ refusals ih =>
      obtain ⟨first, later⟩ := List.forall_mem_cons.mp answers
      rw [Factory.recorded, Factory.run] at run
      rcases asked : answer need before with ⟨⟨error⟩ | ⟨part, given⟩, between, middle⟩
      · rw [asked] at run
        cases (ends_recorded (refusals error) run).1
      · rw [asked] at run
        obtain ⟨tree, named, unfolds, rfl, numbered⟩ := first _ _ _ _ _ asked
        obtain ⟨trees, rfl, unfold, rfl, ended⟩ := ih _ later run
        have size : (before.2 ++ tree.completions before.2.length).length =
            before.2.length + tree.postorder.length := by
          rw [List.length_append, Unfolding.length_completions]
        -- What is given is the last of what was built for it.
        have place : given = before.2.length + tree.postorder.length - 1 := by omega
        refine ⟨tree :: trees, congrArg (· :: _) named, ⟨unfolds, unfold⟩, ?_, ended⟩
        rw [size, Unfolding.allCompletions, Unfolding.numbers, ← place]
        simp only [List.append_assoc, List.cons_append, List.nil_append]
  | measure _ ih => exact ih depth answers run

end Construction

theorem records_resolve (designed : injector.Designed design) (stack : List String)
    (service : String) : Records design (injector.recorded.resolve stack) service := by
  induction stack using stack_induction injector generalizing service with
  | each stack ih =>
      intro before built number after log answered
      have known := lookup_recorded injector service
      cases injector.resolution stack service with
      | pending pending =>
          rw [resolve_of_mem pending] at answered
          cases answered
      | unknown fresh unknown =>
          rw [unknown] at known
          rw [resolve_of_none fresh known] at answered
          cases answered
      | @provided factory fresh found =>
          rw [found] at known
          rw [resolve_of_some fresh known] at answered
          obtain ⟨blueprint, planned, follows⟩ := designed.follows found
          obtain ⟨parts, needs, unfold, rfl, numbered⟩ := follows_recorded follows
            (fun need _ => ih service factory found fresh need) answered
          refine ⟨.node service parts, rfl, ⟨⟨_, planned, needs⟩, unfold⟩, ?_, numbered⟩
          rw [Unfolding.completions, List.append_assoc, List.nil_append]

/-- What a construction leaves on record. -/
structure FreshlyBuilt (design : Design) (service : String) (log : List Completion) : Prop where
  /-- Parts are built before what needs them, each as often as it is needed, in the order of needs. -/
  ordered : ∃ tree : Unfolding, tree.service = service ∧ tree.Unfolds design ∧
    log.map (·.service) = tree.postorder
  /-- A service is built once for each path of needs that leads to it. -/
  counted : ∀ other, ∃ paths : List (List Nat), paths.Nodup ∧
    (∀ path, path ∈ paths ↔ follow design service path = some other) ∧
    (log.map (·.service)).count other = paths.length
  joined : Joined design log
  /-- All that is built but the last is given away, and only once. -/
  once : (log.flatMap (·.parts)).Perm (List.range (log.length - 1))

theorem Unfolding.freshlyBuilt {tree : Unfolding} (unfolds : tree.Unfolds design) :
    FreshlyBuilt design tree.service (tree.completions 0) where
  ordered := ⟨tree, rfl, unfolds, map_service_completions 0 tree⟩
  counted := by
    intro other
    refine ⟨tree.positions other, nodup_positions other tree, fun path => mem_positions unfolds, ?_⟩
    rw [map_service_completions, length_positions]
  joined := joined_completions (.nil : Joined design []) tree unfolds
  once := by
    rw [length_completions, List.range_eq_range']
    exact parts_completions 0 tree

/-- A construction that succeeds builds everything afresh, and does so on record as it does off it;
what it returns is what was built last. -/
theorem fresh_construct (designed : injector.Designed design) {state : σ} {built : α}
    (constructed : (injector.construct service state).1 = .ok built) :
    ∃ log, injector.recorded.construct service (state, []) =
        (.ok (built, log.length - 1), (injector.construct service state).2, log) ∧
      FreshlyBuilt design service log := by
  have same : unrecorded (injector.recorded.construct service (state, [])) =
      injector.construct service state := unrecorded_resolve injector [] service (state, [])
  rw [← same] at constructed ⊢
  rcases answered : injector.recorded.construct service (state, []) with
    ⟨⟨error⟩ | ⟨part, number⟩, after, log⟩
  · rw [answered] at constructed
    cases constructed
  · rw [answered] at constructed
    cases constructed
    obtain ⟨tree, rfl, unfolds, rfl, numbered⟩ :=
      records_resolve designed [] service _ _ _ _ _ answered
    refine ⟨tree.completions 0, ?_, tree.freshlyBuilt unfolds⟩
    rw [List.nil_append, List.length_nil] at numbered
    rw [← numbered]
    rfl

/-- Three ledgers are built and two stocks, each stock with a ledger of its own. -/
theorem fresh_trade : (ofRecipes trade).Designed (designOf trade) ∧
    ((ofRecipes trade).construct "Shop" 0).1.isOk ∧
    ∃ log, ((ofRecipes trade).recorded.construct "Shop" (0, [])).2.2 = log ∧
      FreshlyBuilt (designOf trade) "Shop" log ∧
      log = [⟨"Ledger", []⟩, ⟨"Stock", [0]⟩, ⟨"Ledger", []⟩, ⟨"Till", [2]⟩, ⟨"Ledger", []⟩,
        ⟨"Stock", [4]⟩, ⟨"Shop", [1, 3, 5]⟩] := by
  have designed : (ofRecipes trade).Designed (designOf trade) := designed_ofRecipes (by decide)
  have made : ((ofRecipes trade).construct "Shop" 0).1.isOk := by decide +kernel
  refine ⟨designed, made, ?_⟩
  cases shop : ((ofRecipes trade).construct "Shop" 0).1 with
  | error error =>
      rw [shop] at made
      cases made
  | ok built =>
      obtain ⟨log, recorded, fresh⟩ := fresh_construct designed shop
      refine ⟨log, by rw [recorded], fresh, ?_⟩
      calc
        log = ((ofRecipes trade).recorded.construct "Shop" (0, [])).2.2 := by rw [recorded]
        _ = _ := by decide +kernel

end Injector

end CodeFirst
