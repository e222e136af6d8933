import CodeFirst.Proofs.Compilation.Reach
import Mathlib.Data.List.Perm.Subperm

/-! How deep the compilation of a type goes and how much it begins. The calls are run over a journal
that every call changes, an error or not, and end within a depth that is given to them. -/
namespace CodeFirst.Compilation

variable {ρ α γ δ : Type} {usage : Usage α} {registry : Registry ρ}

instance (memo : Memo α) (name : String) : Decidable (memo.Has name) :=
  inferInstanceAs (Decidable (_ ∨ _))

/-- The memo of a compilation, and the types that were begun with the memo that each was begun
over. -/
structure Journal (α : Type) where
  memo : Memo α := {}
  begun : Keyed (Memo α) := []

namespace Journal

def start (journal : Journal α) (name : String) : Journal α :=
  ⟨journal.memo.start name, journal.begun ++ [(name, journal.memo)]⟩

def finish (journal : Journal α) (name : String) (fields : Keyed α) : Journal α :=
  { journal with memo := journal.memo.finish name fields }

end Journal

/-- What a call is told of its name before anything begins: the entry to compile, or nothing if the
name is passed over. -/
def toCompile (usage : Usage α) (registry : Registry ρ) (memo : Memo α) (name : String) :
    Except BuildError (Option (Entry ρ)) :=
  if memo.Has name then .ok none
  else
    match registry.get? name with
    | none => .error (.compile (.typeWithoutField name))
    | some entry =>
      if entry.fields = [] then .error (.compile (.typeWithoutField name))
      else if entry.isInput ≠ usage.isInput then .error (.compile (usage.misuse name))
      else .ok (some entry)

/-- The result of a call and the journal that it leaves, if the call ends. -/
abbrev Ending (α γ : Type) := Option (Except BuildError γ × Journal α)

/-- Goes through the fields of a type, with a call for each that refers to another one. -/
def visitFields (usage : Usage α) (call : String → Journal α → Ending α Unit) :
    List Field → Keyed α → Journal α → Ending α (Keyed α)
  | [], fields, journal => some (.ok fields, journal)
  | field :: rest, fields, journal =>
    match if field.isCustom then call field.type journal else some (.ok (), journal) with
    | none => none
    | some (.error error, after) => some (.error error, after)
    | some (.ok (), after) =>
      match attachField usage fields field with
      | .error error => some (.error error, after)
      | .ok more => visitFields usage call rest more after

/-- A type is pending until its fields are done, and stays so if they fail. -/
def conclude (name : String) :
    Except BuildError (Keyed α) × Journal α → Except BuildError Unit × Journal α
  | (.error error, after) => (.error error, after)
  | (.ok fields, after) => (.ok (), after.finish name fields)

/-- Compiles a type by at most `depth` calls one inside the other. -/
def visit (usage : Usage α) (registry : Registry ρ) : Nat → String → Journal α → Ending α Unit
  | 0, _, _ => none
  | depth + 1, name, journal =>
    match toCompile usage registry journal.memo name with
    | .error error => some (.error error, journal)
    | .ok none => some (.ok (), journal)
    | .ok (some entry) =>
      (visitFields usage (visit usage registry depth) entry.fields [] (journal.start name)).map
        (conclude name)

theorem toCompile_eq_some {memo : Memo α} {name : String} {entry : Entry ρ}
    (chosen : toCompile usage registry memo name = .ok (some entry)) :
    ¬ memo.Has name ∧ registry.get? name = some entry := by
  unfold toCompile at chosen
  split at chosen
  · cases chosen
  · rename_i fresh
    refine ⟨fresh, ?_⟩
    split at chosen
    · cases chosen
    · rename_i found
      rw [found]
      split at chosen
      · cases chosen
      · split at chosen
        · cases chosen
        · cases chosen
          rfl

theorem compileType_eq_toCompile (memo : Memo α) (name : String) :
    compileType usage registry memo.pending name memo.compiled =
      match toCompile usage registry memo name with
      | .error error => .error error
      | .ok none => .ok memo.compiled
      | .ok (some entry) => do
        let result ← entry.fields.foldlM
          (memberStep usage (compileType usage registry (name :: memo.pending))) ([], memo.compiled)
        return Keyed.put name result.1 result.2 := by
  unfold toCompile
  by_cases has : memo.Has name
  · rw [if_pos has]
    exact compileType_of_has has
  · rw [if_neg has]
    cases found : registry.get? name with
    | none => exact compileType_of_absent has found
    | some entry =>
        rw [compileType_of_get? has found]
        dsimp only
        by_cases declared : entry.fields = []
        · rw [if_pos declared, if_pos declared]
        · rw [if_neg declared, if_neg declared]
          split <;> rfl

theorem foldlM_memberStep_cons {compile : String → δ → Except BuildError δ} {field : Field}
    {rest : List Field} {fields : Keyed α} {done : δ} :
    (field :: rest).foldlM (memberStep usage compile) (fields, done) = (do
      let inner ← (if field.isCustom then compile field.type done else pure done)
      let more ← attachField usage fields field
      rest.foldlM (memberStep usage compile) (more, inner)) := by
  simp only [List.foldlM_cons, memberStep]
  split <;> simp only [bind_assoc, pure_bind]

namespace Memo

/-- The entries that are neither compiled nor pending. -/
def remaining (registry : Registry ρ) (memo : Memo α) : List String :=
  Keyed.outside registry.entries (Keyed.names memo.compiled ++ memo.pending)

theorem mem_remaining {memo : Memo α} {name : String} :
    name ∈ memo.remaining registry ↔ name ∈ registry.names ∧ ¬ memo.Has name := by
  simp [remaining, Keyed.outside, Has, Registry.names]

theorem length_remaining_le (registry : Registry ρ) (memo : Memo α) :
    (memo.remaining registry).length ≤ registry.entries.length := by
  unfold remaining Keyed.outside
  have names : (Keyed.names registry.entries).length = registry.entries.length :=
    List.length_map _
  rw [← names]
  exact List.length_filter_le _ _

theorem remaining_mono {memo after : Memo α} (kept : ∀ name, memo.Has name → after.Has name) :
    (after.remaining registry).length ≤ (memo.remaining registry).length := by
  apply List.Sublist.length_le
  apply List.monotone_filter_right
  intro name outside
  simp only [decide_eq_true_eq, List.mem_append] at outside ⊢
  exact fun has => outside (kept name has)

theorem remaining_start_lt {memo : Memo α} {name : String} {entry : Entry ρ}
    (found : registry.get? name = some entry) (fresh : ¬ memo.Has name) :
    ((memo.start name).remaining registry).length < (memo.remaining registry).length := by
  apply Keyed.outside_length_lt found
  · rwa [List.mem_append]
  · simp [start]
  · simp +contextual [start, or_imp]

end Memo

/-- What was begun between two journals. -/
structure Progress (registry : Registry ρ) (before after : Journal α) (begun : Keyed (Memo α)) :
    Prop where
  begun_eq : after.begun = before.begun ++ begun
  /-- No type is begun twice. -/
  distinct : (Keyed.names begun).Nodup
  /-- A type is begun for an entry that is neither compiled nor pending by then. -/
  fresh : ∀ start ∈ begun, start.1 ∈ start.2.remaining registry
  /-- What is begun stays in the memo, pending or finished, and nothing else comes into it. -/
  has_iff : ∀ name, after.memo.Has name ↔ before.memo.Has name ∨ name ∈ Keyed.names begun
  remaining : ∀ name ∈ Keyed.names begun, name ∈ before.memo.remaining registry

namespace Progress

variable {before between after journal : Journal α} {begun more : Keyed (Memo α)}
  {name : String} {fields : Keyed α}

theorem refl (registry : Registry ρ) (journal : Journal α) :
    Progress registry journal journal [] := by
  constructor
  case begun_eq => exact (List.append_nil _).symm
  case distinct => exact List.nodup_nil
  case fresh => exact nofun
  case has_iff => simp
  case remaining => exact nofun

theorem trans (first : Progress registry before between begun)
    (second : Progress registry between after more) :
    Progress registry before after (begun ++ more) := by
  have apart : ∀ name ∈ Keyed.names more, ¬ between.memo.Has name := fun name member =>
    (Memo.mem_remaining.mp (second.remaining name member)).2
  constructor
  case begun_eq => rw [second.begun_eq, first.begun_eq, List.append_assoc]
  case distinct =>
    rw [Keyed.names_append, List.nodup_append]
    refine ⟨first.distinct, second.distinct, ?_⟩
    rintro name early _ late rfl
    exact apart name late ((first.has_iff name).mpr (Or.inr early))
  case fresh =>
    intro start member
    exact (List.mem_append.mp member).elim (first.fresh start) (second.fresh start)
  case has_iff =>
    intro name
    rw [second.has_iff, first.has_iff, Keyed.names_append, List.mem_append, or_assoc]
  case remaining =>
    intro name member
    rw [Keyed.names_append, List.mem_append] at member
    rcases member with early | late
    · exact first.remaining name early
    · obtain ⟨declared, absent⟩ := Memo.mem_remaining.mp (second.remaining name late)
      refine Memo.mem_remaining.mpr ⟨declared, fun has => absent ?_⟩
      exact (first.has_iff name).mpr (Or.inl has)

theorem start {entry : Entry ρ} (found : registry.get? name = some entry)
    (fresh : ¬ journal.memo.Has name) :
    Progress registry journal (journal.start name) [(name, journal.memo)] := by
  have left : name ∈ journal.memo.remaining registry :=
    Memo.mem_remaining.mpr ⟨Keyed.mem_names_of_lookup found, fresh⟩
  constructor
  case begun_eq => rfl
  case distinct => exact List.nodup_singleton name
  case fresh =>
    intro start member
    cases List.mem_singleton.mp member
    exact left
  case has_iff =>
    intro other
    simp only [Journal.start, Memo.Has, Memo.start, List.mem_cons, Keyed.names_cons,
      Keyed.names_nil, List.mem_nil_iff, or_false]
    rw [or_left_comm, or_comm]
  case remaining =>
    intro other member
    cases List.mem_singleton.mp member
    exact left

/-- To finish a type that was begun changes nothing of what the memo has. -/
theorem finish (progress : Progress registry before after begun) (has : after.memo.Has name) :
    Progress registry before (after.finish name fields) begun := by
  refine { progress with has_iff := fun other => ?_ }
  rw [← progress.has_iff]
  constructor
  · rintro (finished | pending)
    · rcases Keyed.mem_names_put.mp finished with rfl | before
      · exact has
      · exact Or.inl before
    · exact Or.inr (List.mem_of_mem_erase pending)
  · exact Memo.Has.finish

theorem remaining_le (progress : Progress registry before after begun) :
    (after.memo.remaining registry).length ≤ (before.memo.remaining registry).length :=
  Memo.remaining_mono fun name has => (progress.has_iff name).mpr (Or.inl has)

/-- At most those entries are begun that were left. -/
theorem length_le (progress : Progress registry before after begun) :
    begun.length ≤ (before.memo.remaining registry).length := by
  have within : (Keyed.names begun).length ≤ (before.memo.remaining registry).length :=
    (progress.distinct.subperm progress.remaining).length_le
  rwa [Keyed.names, List.length_map] at within

end Progress

/-- A run that does to the compiled types what `direct` does, and leaves a type pending only if it
fails. -/
structure Ends (registry : Registry ρ) (keep : γ → Keyed (Keyed α) → δ) (journal : Journal α)
    (direct : Except BuildError δ) (result : Except BuildError γ) (after : Journal α)
    (begun : Keyed (Memo α)) : Prop where
  progress : Progress registry journal after begun
  answer : (result.map fun value => keep value after.memo.compiled) = direct
  restored : ∀ value, result = .ok value → after.memo.pending = journal.memo.pending

namespace Ends

variable {keep : γ → Keyed (Keyed α) → δ} {journal after : Journal α} {begun : Keyed (Memo α)}
  {direct : Except BuildError δ}

theorem of_error {error : BuildError} (progress : Progress registry journal after begun)
    (failed : direct = .error error) :
    Ends registry keep journal direct (.error error) after begun :=
  ⟨progress, failed.symm, nofun⟩

theorem of_ok {value : γ} (progress : Progress registry journal after begun)
    (compiled : direct = .ok (keep value after.memo.compiled))
    (restored : after.memo.pending = journal.memo.pending) :
    Ends registry keep journal direct (.ok value) after begun :=
  ⟨progress, compiled.symm, fun _ _ => restored⟩

end Ends

/-- What is known of a call: it ends, and does to the memo what the compilation of the type does. -/
def CallEnds (usage : Usage α) (registry : Registry ρ) (name : String) (journal : Journal α)
    (result : Except BuildError Unit) (after : Journal α) (begun : Keyed (Memo α)) : Prop :=
  Ends registry (fun _ done => done) journal
    (compileType usage registry journal.memo.pending name journal.memo.compiled) result after begun

/-- A call ends as the fields of its type do. -/
theorem callEnds_conclude {name : String} {journal inner : Journal α} {entry : Entry ρ}
    {result : Except BuildError (Keyed α)} {nested : Keyed (Memo α)}
    (chosen : toCompile usage registry journal.memo name = .ok (some entry))
    (ends : Ends registry Prod.mk (journal.start name) (entry.fields.foldlM
      (memberStep usage (compileType usage registry (name :: journal.memo.pending)))
      ([], journal.memo.compiled)) result inner nested) :
    CallEnds usage registry name journal (conclude name (result, inner)).1
      (conclude name (result, inner)).2 ((name, journal.memo) :: nested) := by
  obtain ⟨fresh, found⟩ := toCompile_eq_some chosen
  have progress := (Progress.start found fresh).trans ends.progress
  unfold CallEnds
  rw [compileType_eq_toCompile, chosen]
  dsimp only
  rw [← ends.answer]
  cases result with
  | error error => exact .of_error progress rfl
  | ok fields =>
      have pending : inner.memo.pending = name :: journal.memo.pending := ends.restored fields rfl
      have has : inner.memo.Has name := Or.inr (pending ▸ List.mem_cons_self)
      refine .of_ok (progress.finish has) rfl ?_
      change inner.memo.pending.erase name = journal.memo.pending
      rw [pending]
      exact List.erase_cons_head _ _

/-- If all calls end that begin with few enough entries left, then so do the fields of a type. -/
theorem exists_visitFields {call : String → Journal α → Ending α Unit} {bound : Nat}
    (calls : ∀ name journal, (journal.memo.remaining registry).length < bound →
      ∃ result after begun, call name journal = some (result, after) ∧
        CallEnds usage registry name journal result after begun)
    (declared : List Field) (fields : Keyed α) (journal : Journal α)
    (few : (journal.memo.remaining registry).length < bound) :
    ∃ result after begun, visitFields usage call declared fields journal = some (result, after) ∧
      Ends registry Prod.mk journal (declared.foldlM
          (memberStep usage (compileType usage registry journal.memo.pending))
          (fields, journal.memo.compiled)) result after begun := by
  induction declared generalizing fields journal with
  | nil => exact ⟨_, _, _, rfl, .of_ok (.refl registry journal) rfl rfl⟩
  | cons field rest ih =>
      obtain ⟨result, after, begun, called, ends⟩ : ∃ result after begun,
          (if field.isCustom then call field.type journal else some (.ok (), journal)) =
              some (result, after) ∧
            Ends registry (fun _ done => done) journal (if field.isCustom then compileType usage
                registry journal.memo.pending field.type journal.memo.compiled
              else pure journal.memo.compiled) result after begun := by
        split
        · exact calls field.type journal few
        · exact ⟨_, _, _, rfl, .of_ok (.refl registry journal) rfl rfl⟩
      rw [visitFields, called, foldlM_memberStep_cons, ← ends.answer]
      cases result with
      | error error => exact ⟨_, _, _, rfl, .of_error ends.progress rfl⟩
      | ok =>
          cases attached : attachField usage fields field with
          | error error => exact ⟨_, _, _, rfl, .of_error ends.progress rfl⟩
          | ok more =>
              obtain ⟨result, last, later, run, finished⟩ :=
                ih more after (Nat.lt_of_le_of_lt ends.progress.remaining_le few)
              have restored := ends.restored () rfl
              rw [restored] at finished
              refine ⟨result, last, begun ++ later, run, ?_⟩
              exact ⟨ends.progress.trans finished.progress, finished.answer,
                fun value ok => (finished.restored value ok).trans restored⟩

/-- A call does nothing, or it begins with its own type, which the memo does not have. -/
def AtOnce (name : String) (journal after : Journal α) (begun : Keyed (Memo α)) : Prop :=
  after = journal ∧ begun = [] ∨ ∃ nested, begun = (name, journal.memo) :: nested

/-- A call that may go deeper than there are entries left ends. -/
theorem exists_visit (usage : Usage α) (registry : Registry ρ) (depth : Nat) (name : String)
    (journal : Journal α)
    (few : (journal.memo.remaining registry).length < depth) :
    ∃ result after begun, visit usage registry depth name journal = some (result, after) ∧
      CallEnds usage registry name journal result after begun ∧
      AtOnce name journal after begun := by
  induction depth generalizing name journal with
  | zero => cases few
  | succ depth ih =>
      rw [visit]
      cases chosen : toCompile usage registry journal.memo name with
      | error error =>
          refine ⟨_, _, _, rfl, .of_error (.refl registry journal) ?_, Or.inl ⟨rfl, rfl⟩⟩
          rw [compileType_eq_toCompile, chosen]
      | ok choice =>
          cases choice with
          | none =>
              refine ⟨_, _, _, rfl, .of_ok (.refl registry journal) ?_ rfl, Or.inl ⟨rfl, rfl⟩⟩
              rw [compileType_eq_toCompile, chosen]
          | some entry =>
              obtain ⟨fresh, found⟩ := toCompile_eq_some chosen
              -- The type itself is pending now, so that its fields have one entry less before them.
              have fewer : ((journal.start name).memo.remaining registry).length < depth :=
                Nat.lt_of_lt_of_le (Memo.remaining_start_lt found fresh) (Nat.le_of_lt_succ few)
              have calls : ∀ name journal, (journal.memo.remaining registry).length < depth →
                  ∃ result after begun,
                    visit usage registry depth name journal = some (result, after) ∧
                      CallEnds usage registry name journal result after begun := by
                intro name journal few
                obtain ⟨result, after, begun, called, ends, -⟩ := ih name journal few
                exact ⟨result, after, begun, called, ends⟩
              obtain ⟨result, inner, nested, run, ends⟩ :=
                exists_visitFields calls entry.fields [] _ fewer
              refine ⟨_, _, _, ?_, callEnds_conclude chosen ends, Or.inr ⟨nested, rfl⟩⟩
              dsimp only
              rw [run]
              rfl

theorem visitFields_mono {call other : String → Journal α → Ending α Unit}
    (kept : ∀ name journal ending, call name journal = some ending →
      other name journal = some ending)
    {declared : List Field} {fields : Keyed α} {journal : Journal α}
    {ending : Except BuildError (Keyed α) × Journal α}
    (run : visitFields usage call declared fields journal = some ending) :
    visitFields usage other declared fields journal = some ending := by
  induction declared generalizing fields journal with
  | nil => exact run
  | cons field rest ih =>
      have first : ∀ ending,
          (if field.isCustom then call field.type journal else some (.ok (), journal)) =
              some ending →
            (if field.isCustom then other field.type journal else some (.ok (), journal)) =
              some ending := by
        intro ending
        split
        · exact kept field.type journal ending
        · exact id
      rw [visitFields] at run ⊢
      split at run
      · cases run
      · rename_i called
        rw [first _ called]
        exact run
      · rename_i called
        rw [first _ called]
        dsimp only
        split at run
        · exact run
        · exact ih run

/-- A call that ends does so in the same way if it may go deeper. -/
theorem visit_mono {depth deeper : Nat} (within : depth ≤ deeper) {name : String}
    {journal : Journal α} {ending : Except BuildError Unit × Journal α}
    (run : visit usage registry depth name journal = some ending) :
    visit usage registry deeper name journal = some ending := by
  induction depth generalizing deeper name journal ending with
  | zero => cases run
  | succ depth ih =>
      cases deeper with
      | zero => cases within
      | succ deeper =>
          have kept : ∀ name journal ending, visit usage registry depth name journal = some ending →
              visit usage registry deeper name journal = some ending :=
            fun _ _ _ => ih (Nat.le_of_succ_le_succ within)
          unfold visit at run ⊢
          split at run
          · exact run
          · exact run
          · obtain ⟨inner, called, concluded⟩ := Option.map_eq_some_iff.mp run
            rw [visitFields_mono kept called]
            exact congrArg some concluded

/-- A call that ends, and what it has begun by then. -/
structure Bounded (usage : Usage α) (registry : Registry ρ) (name : String) (journal : Journal α)
    (result : Except BuildError Unit) (after : Journal α) (begun : Keyed (Memo α)) : Prop where
  /-- At most one call more stands open than entries were left. -/
  ends : ∀ depth, (journal.memo.remaining registry).length < depth →
    visit usage registry depth name journal = some (result, after)
  answer : (result.map fun _ => after.memo.compiled) =
    compileType usage registry journal.memo.pending name journal.memo.compiled
  restored : result = .ok () → after.memo.pending = journal.memo.pending
  progress : Progress registry journal after begun
  atOnce : AtOnce name journal after begun
  few : begun.length ≤ (journal.memo.remaining registry).length
  within : (journal.memo.remaining registry).length ≤ registry.entries.length

/-- Every call ends, over every memo and also where types lead back to themselves. -/
theorem bounded_visit (usage : Usage α) (registry : Registry ρ) (name : String)
    (journal : Journal α) :
    ∃ result after begun, Bounded usage registry name journal result after begun := by
  obtain ⟨result, after, begun, run, ends, atOnce⟩ :=
    exists_visit usage registry _ name journal (Nat.lt_succ_self _)
  refine ⟨result, after, begun, ?_⟩
  constructor
  case ends => exact fun depth enough => visit_mono enough run
  case answer => exact ends.answer
  case restored => exact ends.restored ()
  case progress => exact ends.progress
  case atOnce => exact atOnce
  case few => exact ends.progress.length_le
  case within => exact journal.memo.length_remaining_le registry

/-- An entry whose one field gives a value of another type. -/
def leading (owner field type : String) : Entry Unit :=
  (Entry.empty owner).addField {
    owner, name := field, type, isArray := false, isMethod := false, isCustom := true,
    hasResolver := false, kind := .plain, options := {} }

/-- Two types that lead to each other take two calls that work and one that does not. -/
example :
    let registry : Registry Unit := ⟨[("Book", leading "Book" "author" "Author"),
      ("Author", leading "Author" "book" "Book")]⟩
    let journal : Journal (OutputField Unit) := {}
    visit .output registry 2 "Book" journal = none ∧
      ((visit .output registry 3 "Book" journal).map fun ending => Keyed.names ending.2.begun) =
        some ["Book", "Author"] :=
  ⟨rfl, rfl⟩

end CodeFirst.Compilation
