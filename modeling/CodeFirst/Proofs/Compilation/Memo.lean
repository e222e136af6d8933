import CodeFirst.Proofs.Compilation.Fields

/-! The compilation of types as runs over a memo, which holds the finished types and the names of
those whose compilation has begun. -/
namespace CodeFirst.Compilation
open Outcome

variable {ρ α : Type} {usage : Usage α} {registry : Registry ρ}

structure Memo (α : Type) where
  compiled : Keyed (Keyed α) := []
  pending : List String := []

namespace Memo

def Has (memo : Memo α) (name : String) : Prop :=
  name ∈ Keyed.names memo.compiled ∨ name ∈ memo.pending

def start (memo : Memo α) (name : String) : Memo α :=
  { memo with pending := name :: memo.pending }

def finish (memo : Memo α) (name : String) (fields : Keyed α) : Memo α :=
  ⟨Keyed.put name fields memo.compiled, memo.pending.erase name⟩

@[simp] theorem start_compiled (memo : Memo α) (name : String) :
    (memo.start name).compiled = memo.compiled := rfl

end Memo

/-- An entry compiles to these fields, if what it refers to is left aside. -/
structure Fits (usage : Usage α) (entry : Entry ρ) (fields : Keyed α) : Prop where
  declared : entry.fields ≠ []
  role : entry.isInput = usage.isInput
  attached : entry.fields.foldlM (attachField usage) [] = .ok fields

/-- A run over names that ends without error. A name that the memo has, finished or pending, is
passed over; any other is pending until all that it refers to was run over. -/
inductive Compiles (usage : Usage α) (registry : Registry ρ) :
    Memo α → List String → Memo α → Prop
  | done {memo} : Compiles usage registry memo [] memo
  | skip {memo name rest after} : memo.Has name → Compiles usage registry memo rest after →
      Compiles usage registry memo (name :: rest) after
  | visit {memo name rest entry fields inner after} : ¬ memo.Has name →
      registry.get? name = some entry → Fits usage entry fields →
      Compiles usage registry (memo.start name) (customFieldTypes entry) inner →
      Compiles usage registry (inner.finish name fields) rest after →
      Compiles usage registry memo (name :: rest) after

/-- What is pending was pending before: every type that a run begins it finishes. -/
theorem Compiles.pending_eq {memo after : Memo α} {names : List String}
    (run : Compiles usage registry memo names after) : after.pending = memo.pending := by
  induction run with
  | done => rfl
  | skip _ _ ih => exact ih
  | visit _ _ _ _ _ ihInner ihRest =>
      rw [ihRest, Memo.finish, ihInner]
      exact List.erase_cons_head _ _

/-- A type that is finished is pending no more, and all others are as before it was begun. -/
theorem Compiles.finish_pending {memo inner : Memo α} {name : String} {types : List String}
    {fields : Keyed α} (run : Compiles usage registry (memo.start name) types inner) :
    (inner.finish name fields).pending = memo.pending := by
  rw [Memo.finish, run.pending_eq]
  exact List.erase_cons_head _ _

/-- A field of a type is compiled after the type that it refers to. -/
def memberStep {δ : Type} (usage : Usage α) (compile : String → δ → Except BuildError δ)
    (done : Keyed α × δ) (field : Field) : Except BuildError (Keyed α × δ) := do
  let inner ← if field.isCustom then compile field.type done.2 else pure done.2
  let fields ← attachField usage done.1 field
  return (fields, inner)

/-- The fields of a type and the types that they refer to compile independently of each other. -/
theorem compileFields_eq_ok {δ : Type} {compile : String → δ → Except BuildError δ}
    {declared : List Field} {fields result : Keyed α} {done inner : δ} :
    declared.foldlM (memberStep usage compile) (fields, done) = .ok (result, inner) ↔
      declared.foldlM (attachField usage) fields = .ok result ∧
        (customTypes declared).foldlM (fun done name => compile name done) done = .ok inner := by
  induction declared generalizing fields done with
  | nil => simp only [foldlM_nil_eq_ok, customTypes, List.filter_nil, List.map_nil, Prod.mk.injEq]
  | cons field rest ih =>
      cases custom : field.isCustom with
      | true =>
          have types : customTypes (field :: rest) = field.type :: customTypes rest := by
            simp [customTypes, custom]
          simp only [types, foldlM_cons_eq_ok, memberStep, custom, if_true, bind_eq_ok, pure_eq_ok]
          constructor
          · rintro ⟨_, ⟨middle, compiled, more, attached, rfl⟩, run⟩
            obtain ⟨others, later⟩ := ih.mp run
            exact ⟨⟨more, attached, others⟩, middle, compiled, later⟩
          · rintro ⟨⟨more, attached, others⟩, middle, compiled, later⟩
            exact ⟨_, ⟨middle, compiled, more, attached, rfl⟩, ih.mpr ⟨others, later⟩⟩
      | false =>
          have types : customTypes (field :: rest) = customTypes rest := by
            simp [customTypes, custom]
          simp only [types, foldlM_cons_eq_ok, memberStep, custom, Bool.false_eq_true, if_false,
            bind_eq_ok, pure_eq_ok]
          constructor
          · rintro ⟨_, ⟨_, rfl, more, attached, rfl⟩, run⟩
            obtain ⟨others, later⟩ := ih.mp run
            exact ⟨⟨more, attached, others⟩, later⟩
          · rintro ⟨⟨more, attached, others⟩, later⟩
            exact ⟨_, ⟨_, rfl, more, attached, rfl⟩, ih.mpr ⟨others, later⟩⟩

theorem compileType_of_has {path : List String} {name : String} {done : Keyed (Keyed α)}
    (has : Memo.Has ⟨done, path⟩ name) : compileType usage registry path name done = .ok done := by
  rw [compileType]
  rcases has with finished | pending
  · rw [if_pos (Keyed.isSome_lookup.mpr finished)]
  · by_cases finished : (done.lookup name).isSome
    · rw [if_pos finished]
    · rw [if_neg finished, dif_pos pending]

section Fresh

variable {path : List String} {name : String} {done : Keyed (Keyed α)}
  (fresh : ¬ Memo.Has ⟨done, path⟩ name)
include fresh

/-- A type that is new to the memo compiles by the steps of its fields. -/
theorem compileType_of_get? {entry : Entry ρ} (found : registry.get? name = some entry) :
    compileType usage registry path name done =
      if entry.fields = [] then .error (.compile (.typeWithoutField name))
      else if entry.isInput ≠ usage.isInput then .error (.compile (usage.misuse name))
      else do
        let result ← entry.fields.foldlM
          (memberStep usage (compileType usage registry (name :: path))) ([], done)
        return Keyed.put name result.1 result.2 := by
  simp only [Memo.Has, not_or, ← Keyed.isSome_lookup] at fresh
  rw [compileType, if_neg fresh.1, dif_neg fresh.2]
  split
  · rename_i absent
    cases absent.symm.trans found
  · rename_i other same
    cases same.symm.trans found
    rfl

theorem compileType_of_absent (absent : registry.get? name = none) :
    compileType usage registry path name done = .error (.compile (.typeWithoutField name)) := by
  simp only [Memo.Has, not_or, ← Keyed.isSome_lookup] at fresh
  rw [compileType, if_neg fresh.1, dif_neg fresh.2]
  split
  · rfl
  · rename_i entry found
    cases absent.symm.trans found

/-- A type that is new to the memo compiles exactly if its entry fits and all compiles that its
fields refer to. -/
theorem compileType_of_not_has {result : Keyed (Keyed α)} :
    compileType usage registry path name done = .ok result ↔
      ∃ entry fields inner, registry.get? name = some entry ∧ Fits usage entry fields ∧
        compileTypes usage registry (name :: path) (customFieldTypes entry) done = .ok inner ∧
        Keyed.put name fields inner = result := by
  cases found : registry.get? name with
  | none => simp [compileType_of_absent fresh found]
  | some entry =>
      rw [compileType_of_get? fresh found]
      simp only [Option.some.injEq, exists_and_left, exists_eq_left']
      by_cases declared : entry.fields = []
      · rw [if_pos declared]
        constructor
        · intro run
          cases run
        · rintro ⟨fields, fits, _⟩
          exact absurd declared fits.declared
      · rw [if_neg declared]
        by_cases role : entry.isInput = usage.isInput
        · rw [if_neg (not_not.mpr role), bind_eq_ok]
          simp only [Prod.exists, compileFields_eq_ok, pure_eq_ok]
          constructor
          · rintro ⟨fields, inner, ⟨attached, compiled⟩, same⟩
            exact ⟨fields, ⟨declared, role, attached⟩, inner, compiled, same⟩
          · rintro ⟨fields, fits, inner, compiled, same⟩
            exact ⟨fields, inner, ⟨fits.attached, compiled⟩, same⟩
        · rw [if_pos role]
          constructor
          · intro run
            cases run
          · rintro ⟨fields, fits, _⟩
            exact absurd fits.role role

end Fresh

/-- Induction along the visits: each takes an entry off those outside the path, so what holds of a
path, if it does with one more entry on it, holds of all. -/
theorem path_induction (registry : Registry ρ) {holds : List String → Prop}
    (each : ∀ path, (∀ name entry, registry.get? name = some entry → name ∉ path →
      holds (name :: path)) → holds path) (path : List String) : holds path := by
  induction measured : (Keyed.outside registry.entries path).length using Nat.strongRecOn
    generalizing path with
  | ind size ih =>
      apply each path
      intro name entry found fresh
      have smaller : (Keyed.outside registry.entries (name :: path)).length < size := by
        rw [← measured]
        exact Keyed.outside_length_lt found fresh List.mem_cons_self
          fun _ => List.mem_cons_of_mem name
      exact ih _ smaller _ rfl

theorem Compiles.of_compileTypes {path names : List String} {done result : Keyed (Keyed α)}
    (run : compileTypes usage registry path names done = .ok result) :
    Compiles usage registry ⟨done, path⟩ names ⟨result, path⟩ := by
  -- The names in a row share one path.
  induction path using path_induction registry generalizing names done result with
  | each path ihPath =>
      induction names generalizing done with
      | nil =>
          cases foldlM_nil_eq_ok.mp run
          exact .done
      | cons name rest ihNames =>
          obtain ⟨middle, first, later⟩ := foldlM_cons_eq_ok.mp run
          by_cases has : Memo.Has ⟨done, path⟩ name
          · rw [compileType_of_has has] at first
            cases first
            exact .skip has (ihNames later)
          · obtain ⟨entry, fields, inner, found, fits, compiled, rfl⟩ :=
              (compileType_of_not_has has).mp first
            have fresh : name ∉ path := fun pending => has (Or.inr pending)
            refine .visit has found fits (ihPath name entry found fresh compiled) ?_
            rw [Memo.finish, List.erase_cons_head]
            exact ihNames later

theorem Compiles.compileTypes {memo after : Memo α} {names : List String}
    (run : Compiles usage registry memo names after) :
    compileTypes usage registry memo.pending names memo.compiled = .ok after.compiled := by
  induction run with
  | done => exact foldlM_nil_eq_ok.mpr rfl
  | skip has _ ih => exact foldlM_cons_eq_ok.mpr ⟨_, compileType_of_has has, ih⟩
  | @visit memo name rest entry fields inner after fresh found fits runInner _ ihInner ihRest =>
      have first := (compileType_of_not_has fresh).mpr
        ⟨entry, fields, inner.compiled, found, fits, ihInner, rfl⟩
      refine foldlM_cons_eq_ok.mpr ⟨_, first, ?_⟩
      rw [← runInner.finish_pending]
      exact ihRest

/-- Compiling names one after the other is a run over them. -/
theorem compileTypes_eq_ok {path names : List String} {done result : Keyed (Keyed α)} :
    compileTypes usage registry path names done = .ok result ↔
      Compiles usage registry ⟨done, path⟩ names ⟨result, path⟩ :=
  ⟨.of_compileTypes, fun run => run.compileTypes⟩

end CodeFirst.Compilation
