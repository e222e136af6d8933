import CodeFirst.Proofs.Compilation.Acceptance
import CodeFirst.Proofs.Compilation.Closure

/-! Resolvers compile together exactly if they compile apart, and then to the lists of the first with
what the others have beyond them. A run that starts from closed types passes over these and adds the
rest in the order in which a run from nothing would. -/
namespace CodeFirst

/-- Items, and behind them those of others under new names. -/
def Keyed.stitch {α : Type u} (items more : Keyed α) : Keyed α :=
  items ++ more.filter (·.1 ∉ names items)

namespace Keyed

variable {α : Type u} {items more rest : Keyed α} {name : String}

@[simp] theorem stitch_nil (items : Keyed α) : items.stitch [] = items :=
  List.append_nil items

theorem stitch_append : items.stitch (more ++ rest) =
    items.stitch more ++ rest.filter (·.1 ∉ names items) := by
  simp only [stitch, List.filter_append, List.append_assoc]

theorem names_stitch : names (items.stitch more) =
    names items ++ (names more).filter (· ∉ names items) := by
  simp [stitch, names, List.filter_map, Function.comp_def]

theorem mem_names_stitch :
    name ∈ names (items.stitch more) ↔ name ∈ names items ∨ name ∈ names more := by
  rw [names_stitch, List.mem_append, List.mem_filter, decide_eq_true_eq]
  by_cases known : name ∈ names items
  · simp [known]
  · simp [known]

/-- Nothing is added if no name is new. -/
theorem stitch_of_subset (known : ∀ name ∈ names more, name ∈ names items) :
    items.stitch more = items := by
  have none : more.filter (·.1 ∉ names items) = [] := by
    refine List.filter_eq_nil_iff.mpr fun entry member => ?_
    simpa using known entry.1 (mem_names.mpr ⟨entry.2, member⟩)
  rw [stitch, none, List.append_nil]

end Keyed

/-- Filtering commutes with dropping repetitions. -/
theorem eraseDups_filter (keep : String → Bool) (names : List String) :
    (names.filter keep).eraseDups = names.eraseDups.filter keep := by
  induction sized : names.length using Nat.strongRecOn generalizing names with
  | ind size ih =>
      cases names with
      | nil => rfl
      | cons name rest =>
          have smaller : (rest.filter fun other => !other == name).length < size := by
            rw [← sized, List.length_cons]
            exact Nat.lt_succ_of_le (List.length_filter_le _ _)
          rw [List.eraseDups_cons]
          by_cases kept : keep name = true
          · rw [List.filter_cons_of_pos kept, List.filter_cons_of_pos kept, List.eraseDups_cons,
              ← ih _ smaller _ rfl, List.filter_filter, List.filter_filter]
            simp only [Bool.and_comm]
          · rw [List.filter_cons_of_neg kept, List.filter_cons_of_neg kept, ← ih _ smaller _ rfl,
              List.filter_filter]
            congr 1
            refine List.filter_congr fun other _ => ?_
            by_cases same : other = name
            · simp [same, kept]
            · simp [same]

namespace Compilation
open Outcome

variable {ρ α : Type} {usage : Usage α} {registry : Registry ρ}

/-- Names that with a name hold all that its entry refers to. -/
def Closed (registry : Registry ρ) (known : List String) : Prop :=
  ∀ name ∈ known, ∀ entry, registry.get? name = some entry →
    ∀ next ∈ customFieldTypes entry, next ∈ known

theorem Closed.of_reached {known names : List String} {name : String}
    (closed : Closed registry known) (inside : ∀ first ∈ names, first ∈ known)
    (reached : Reached registry names name) : name ∈ known := by
  induction reached with
  | root member => exact inside _ member
  | field _ found member ih => exact closed _ ih _ found _ member

theorem Compiles.closed {names : List String} {after : Memo α}
    (run : Compiles usage registry {} names after) :
    Closed registry (Keyed.names after.compiled) :=
  fun _ finished _ found _ member =>
    run.mem_names_iff.mpr (.field (run.mem_names_iff.mp finished) found member)

/-- The memo of a run that goes on behind known types. -/
def Memo.behind (memo : Memo α) (known : Keyed (Keyed α)) : Memo α :=
  { memo with compiled := known.stitch memo.compiled }

theorem Memo.has_behind {memo : Memo α} {known : Keyed (Keyed α)} {name : String} :
    (memo.behind known).Has name ↔ name ∈ Keyed.names known ∨ memo.Has name := by
  simp only [Has, behind, Keyed.mem_names_stitch, or_assoc]

section Visit

variable {known : Keyed (Keyed α)} {memo inner : Memo α} {name : String} {entry : Entry ρ}
  {fields : Keyed α}

/-- Known types lead to known types only, so the visit of one leaves nothing new. -/
theorem Compiles.behind_of_known (closed : Closed registry (Keyed.names known))
    (fresh : ¬ memo.Has name) (isKnown : name ∈ Keyed.names known)
    (found : registry.get? name = some entry)
    (run : Compiles usage registry (memo.start name) (customFieldTypes entry) inner) :
    (inner.finish name fields).behind known = memo.behind known := by
  obtain ⟨more, same, reached⟩ := run.append
  have finished : (inner.finish name fields).compiled = inner.compiled ++ [(name, fields)] :=
    run.finish_compiled fresh
  rw [same, Memo.start_compiled, List.append_assoc] at finished
  have nothing : (more ++ [(name, fields)]).filter (·.1 ∉ Keyed.names known) = [] := by
    refine List.filter_eq_nil_iff.mpr fun type member => ?_
    rcases List.mem_append.mp member with inside | last
    · simpa using closed.of_reached (closed name isKnown entry found) (reached type inside)
    · cases List.mem_singleton.mp last
      simpa using isKnown
  rw [Memo.behind, Memo.behind, run.finish_pending, finished, Keyed.stitch_append, nothing,
    List.append_nil]

/-- A new type comes last, with or without the known types before. -/
theorem Compiles.behind_of_new (fresh : ¬ memo.Has name) (isNew : name ∉ Keyed.names known)
    (run : Compiles usage registry (memo.start name) (customFieldTypes entry) inner)
    (same : Compiles usage registry ((memo.behind known).start name) (customFieldTypes entry)
      (inner.behind known)) :
    (inner.behind known).finish name fields = (inner.finish name fields).behind known := by
  have absent : ¬ (memo.behind known).Has name := fun has =>
    (Memo.has_behind.mp has).elim isNew fresh
  have kept : [(name, fields)].filter (·.1 ∉ Keyed.names known) = [(name, fields)] := by
    simpa using isNew
  have alone : ((inner.finish name fields).behind known).compiled =
      (inner.behind known).compiled ++ [(name, fields)] := by
    change known.stitch (inner.finish name fields).compiled = _
    rw [run.finish_compiled fresh, Keyed.stitch_append, kept]
    rfl
  exact congrArg (Memo.mk · _) ((same.finish_compiled absent).trans alone.symm)

end Visit

/-- What a run from a memo adds, a run behind known types adds if it is not known. -/
theorem Compiles.behind {known : Keyed (Keyed α)} (closed : Closed registry (Keyed.names known))
    {memo after : Memo α} {names : List String} (run : Compiles usage registry memo names after)
    (apart : ∀ name ∈ memo.pending, name ∉ Keyed.names known) :
    Compiles usage registry (memo.behind known) names (after.behind known) := by
  induction run with
  | done => exact .done
  | skip has _ ih => exact .skip (Memo.has_behind.mpr (Or.inr has)) (ih apart)
  | @visit memo name rest entry fields inner after fresh found fits runInner runRest ihInner ihRest =>
      have goesOn := ihRest (runInner.finish_pending ▸ apart)
      by_cases isKnown : name ∈ Keyed.names known
      · rw [runInner.behind_of_known closed fresh isKnown found] at goesOn
        exact .skip (Memo.has_behind.mpr (Or.inl isKnown)) goesOn
      · have visited := ihInner (List.forall_mem_cons.mpr ⟨isKnown, apart⟩)
        rw [← runInner.behind_of_new fresh isKnown visited] at goesOn
        have absent : ¬ (memo.behind known).Has name := fun has =>
          (Memo.has_behind.mp has).elim isKnown fresh
        exact .visit absent found fits visited goesOn

theorem Compiles.append_names {memo middle after : Memo α} {names more : List String}
    (first : Compiles usage registry memo names middle)
    (second : Compiles usage registry middle more after) :
    Compiles usage registry memo (names ++ more) after := by
  induction first with
  | done => exact second
  | skip has _ ih => exact .skip has (ih second)
  | visit fresh found fits runInner _ _ ihRest =>
      exact .visit fresh found fits runInner (ihRest second)

/-- A run over the names of two runs compiles the types of the first, and then those of the second
that are new, in their order. -/
theorem Compiles.stitch {names more : List String} {first second : Keyed (Keyed α)}
    (run : Compiles usage registry {} names ⟨first, []⟩)
    (other : Compiles usage registry {} more ⟨second, []⟩) :
    Compiles usage registry {} (names ++ more) ⟨first.stitch second, []⟩ := by
  have goesOn := other.behind run.closed (by simp)
  have start : ({} : Memo α).behind first = ⟨first, []⟩ := by
    rw [Memo.behind, Keyed.stitch_nil]
  exact run.append_names (start ▸ goesOn)

theorem Compiles.unique {names : List String} {one other : Keyed (Keyed α)}
    (run : Compiles usage registry {} names ⟨one, []⟩)
    (again : Compiles usage registry {} names ⟨other, []⟩) : one = other := by
  have same := (compileTypes_eq_ok.mpr run).symm.trans (compileTypes_eq_ok.mpr again)
  cases same
  rfl

/-- The fields of a compiled type are the same in every run that compiles it. -/
theorem Compiles.mem_of_subset {names more : List String} {one other : Keyed (Keyed α)}
    (run : Compiles usage registry {} names ⟨one, []⟩)
    (wider : Compiles usage registry {} more ⟨other, []⟩)
    (inside : ∀ name ∈ names, name ∈ more) : ∀ type ∈ one, type ∈ other := by
  rintro ⟨name, fields⟩ member
  have reached := run.mem_names_iff.mp (Keyed.mem_names.mpr ⟨fields, member⟩)
  obtain ⟨found, stored⟩ := Keyed.mem_names.mp (wider.mem_names_iff.mpr (reached.mono inside))
  obtain ⟨entry, present, fits⟩ := run.fits_of_mem member
  obtain ⟨same, again, fitsAgain⟩ := wider.fits_of_mem stored
  cases present.symm.trans again
  cases fits.attached.symm.trans fitsAgain.attached
  exact stored

/-- Two runs over the same names, in whatever order and number, compile the same types. -/
theorem Compiles.perm {names more : List String} {one other : Keyed (Keyed α)}
    (run : Compiles usage registry {} names ⟨one, []⟩)
    (again : Compiles usage registry {} more ⟨other, []⟩)
    (same : ∀ name, name ∈ names ↔ name ∈ more) : one.Perm other := by
  have distinct : one.Nodup := .of_map _ (run.nodup List.nodup_nil)
  have distinctAgain : other.Nodup := .of_map _ (again.nodup List.nodup_nil)
  refine (List.perm_ext_iff_of_nodup distinct distinctAgain).mpr fun type => ?_
  exact ⟨run.mem_of_subset again (fun name => (same name).mp) type,
    again.mem_of_subset run (fun name => (same name).mpr) type⟩

/-- The names of a root for more operations: those that there are, then the new ones. -/
theorem Rooted.names_append {strict : Bool} {kind : FieldKind}
    {declared more : List (Entry ρ × Field)} {first second whole : Keyed (OutputField ρ)}
    (one : Rooted strict kind declared first) (other : Rooted strict kind more second)
    (both : Rooted strict kind (declared ++ more) whole) :
    Keyed.names whole =
      Keyed.names first ++ (Keyed.names second).filter (· ∉ Keyed.names first) := by
  have operations : operationsOf kind (declared ++ more) =
      operationsOf kind declared ++ operationsOf kind more := List.filter_append ..
  rw [both.names_eq, operations, List.map_append, List.eraseDups_append, List.removeAll,
    eraseDups_filter, ← one.names_eq, ← other.names_eq]
  refine congrArg _ (List.filter_congr fun name _ => ?_)
  rw [one.names_eq, List.elem_eq_mem]
  simp only [List.mem_eraseDups, decide_not]

theorem namedEntries_append (resolvers more : List String) :
    namedEntries registry (resolvers ++ more) =
      namedEntries registry resolvers ++ namedEntries registry more :=
  List.filterMap_append

theorem declaredFields_append (entries more : List (Entry ρ)) :
    declaredFields (entries ++ more) = declaredFields entries ++ declaredFields more :=
  List.flatMap_append

theorem outputRoots_append (resolvers more : List String) :
    outputRoots registry (resolvers ++ more) =
      outputRoots registry resolvers ++ outputRoots registry more := by
  rw [outputRoots, namedEntries_append, List.flatMap_append]
  rfl

theorem inputRoots_append (resolvers more : List String) :
    inputRoots registry (resolvers ++ more) =
      inputRoots registry resolvers ++ inputRoots registry more := by
  rw [inputRoots, namedEntries_append, List.flatMap_append]
  rfl

section Subset

variable {resolvers more : List String} (inside : ∀ name ∈ resolvers, name ∈ more)
include inside

theorem namedEntries_subset : ∀ entry ∈ namedEntries registry resolvers,
    entry ∈ namedEntries registry more := by
  intro entry member
  obtain ⟨name, listed, found⟩ := mem_namedEntries.mp member
  exact mem_namedEntries.mpr ⟨name, inside name listed, found⟩

theorem outputRoots_subset : ∀ name ∈ outputRoots registry resolvers,
    name ∈ outputRoots registry more := by
  intro name member
  obtain ⟨entry, among, custom⟩ := List.mem_flatMap.mp member
  exact List.mem_flatMap.mpr ⟨entry, namedEntries_subset inside entry among, custom⟩

theorem inputRoots_subset : ∀ name ∈ inputRoots registry resolvers,
    name ∈ inputRoots registry more := by
  intro name member
  obtain ⟨entry, among, custom⟩ := List.mem_flatMap.mp member
  exact List.mem_flatMap.mpr ⟨entry, namedEntries_subset inside entry among, custom⟩

theorem declaredFields_subset : ∀ operation ∈ declaredFields (namedEntries registry resolvers),
    operation ∈ declaredFields (namedEntries registry more) := by
  intro operation member
  obtain ⟨among, declared⟩ := mem_declaredFields.mp member
  exact mem_declaredFields.mpr ⟨namedEntries_subset inside _ among, declared⟩

theorem WellFormed.of_subset {config : Config} (placeholder : config.placeholderQuery = true)
    (wellFormed : WellFormed registry config more) : WellFormed registry config resolvers where
  valid := wellFormed.valid
  declared name listed := wellFormed.declared name (inside name listed)
  outputs name reached := wellFormed.outputs name (reached.mono (outputRoots_subset inside))
  inputs name reached := wellFormed.inputs name (reached.mono (inputRoots_subset inside))
  operations entry among := wellFormed.operations entry (namedEntries_subset inside entry among)
  rooted := Or.inl placeholder

theorem Rooted.names_subset {strict : Bool} {kind : FieldKind} {root wider : Keyed (OutputField ρ)}
    (rooted : Rooted strict kind (declaredFields (namedEntries registry resolvers)) root)
    (widerRooted : Rooted strict kind (declaredFields (namedEntries registry more)) wider) :
    ∀ name ∈ Keyed.names root, name ∈ Keyed.names wider := by
  intro name member
  obtain ⟨operation, declared, kind, named⟩ := rooted.mem_names.mp member
  exact widerRooted.mem_names.mpr
    ⟨operation, declaredFields_subset inside operation declared, kind, named⟩

end Subset

theorem Reached.append {names more : List String} {name : String}
    (reached : Reached registry (names ++ more) name) :
    Reached registry names name ∨ Reached registry more name := by
  induction reached with
  | root member => exact (List.mem_append.mp member).imp .root .root
  | field _ found member ih => exact ih.imp (.field · found member) (.field · found member)

theorem WellFormed.append {config : Config} {resolvers more : List String}
    (first : WellFormed registry config resolvers) (second : WellFormed registry config more) :
    WellFormed registry config (resolvers ++ more) where
  valid := first.valid
  declared name listed :=
    (List.mem_append.mp listed).elim (first.declared name) (second.declared name)
  outputs name reached := by
    rw [outputRoots_append] at reached
    exact reached.append.elim (first.outputs name) (second.outputs name)
  inputs name reached := by
    rw [inputRoots_append] at reached
    exact reached.append.elim (first.inputs name) (second.inputs name)
  operations entry among := by
    rw [namedEntries_append] at among
    exact (List.mem_append.mp among).elim (first.operations entry) (second.operations entry)
  rooted := by
    refine first.rooted.imp_right ?_
    rintro ⟨entry, among, query⟩
    rw [namedEntries_append]
    exact ⟨entry, List.mem_append_left _ among, query⟩

/-- The named resolvers compile. -/
def Accepts (registry : Registry ρ) (config : Config) (resolvers : List String) : Prop :=
  ∃ compiled, compile registry config resolvers = .ok compiled

theorem accepts_iff_wellFormed {config : Config} {resolvers : List String} :
    Accepts registry config resolvers ↔ WellFormed registry config resolvers := by
  simp only [Accepts, compile_eq_ok]
  exact exists_success_iff

/-- With a placeholder, acceptance depends on nothing but which resolvers are named. -/
theorem accepts_congr {config : Config} (placeholder : config.placeholderQuery = true)
    {resolvers more : List String} (same : ∀ name, name ∈ resolvers ↔ name ∈ more) :
    Accepts registry config resolvers ↔ Accepts registry config more := by
  rw [accepts_iff_wellFormed, accepts_iff_wellFormed]
  exact ⟨.of_subset (fun name => (same name).mpr) placeholder,
    .of_subset (fun name => (same name).mp) placeholder⟩

/-- The lists of a compilation are those of one part with what another has beyond it. -/
structure Stitched (first second whole : Compiled ρ) : Prop where
  queries : Keyed.names whole.roots.queries = Keyed.names first.roots.queries ++
    (Keyed.names second.roots.queries).filter (· ∉ Keyed.names first.roots.queries)
  mutations : Keyed.names whole.roots.mutations = Keyed.names first.roots.mutations ++
    (Keyed.names second.roots.mutations).filter (· ∉ Keyed.names first.roots.mutations)
  outputs : whole.types.outputs = first.types.outputs ++
    second.types.outputs.filter (·.1 ∉ Keyed.names first.types.outputs)
  inputs : whole.types.inputs = first.types.inputs ++
    second.types.inputs.filter (·.1 ∉ Keyed.names first.types.inputs)

structure SameLists (one other : Compiled ρ) : Prop where
  queries : Keyed.names one.roots.queries = Keyed.names other.roots.queries
  mutations : Keyed.names one.roots.mutations = Keyed.names other.roots.mutations
  types : one.types = other.types

structure SameSets (one other : Compiled ρ) : Prop where
  queries : ∀ name, name ∈ Keyed.names one.roots.queries ↔ name ∈ Keyed.names other.roots.queries
  mutations : ∀ name,
    name ∈ Keyed.names one.roots.mutations ↔ name ∈ Keyed.names other.roots.mutations
  outputs : one.types.outputs.Perm other.types.outputs
  inputs : one.types.inputs.Perm other.types.inputs

section Built

variable {config : Config} {resolvers more : List String} {first second whole : Compiled ρ}

theorem Success.stitched (one : Success registry config resolvers first)
    (other : Success registry config more second)
    (both : Success registry config (resolvers ++ more) whole) : Stitched first second whole := by
  have queries := both.queries
  have mutations := both.mutations
  have outputs := both.outputs
  have inputs := both.inputs
  rw [namedEntries_append, declaredFields_append] at queries mutations
  rw [outputRoots_append] at outputs
  rw [inputRoots_append] at inputs
  exact {
    queries := one.queries.names_append other.queries queries
    mutations := one.mutations.names_append other.mutations mutations
    outputs := outputs.unique (one.outputs.stitch other.outputs)
    inputs := inputs.unique (one.inputs.stitch other.inputs) }

theorem Success.sameSets (one : Success registry config resolvers first)
    (other : Success registry config more second)
    (same : ∀ name, name ∈ resolvers ↔ name ∈ more) : SameSets first second := by
  have inside := fun name => (same name).mp
  have outside := fun name => (same name).mpr
  exact {
    queries := fun name => ⟨one.queries.names_subset inside other.queries name,
      other.queries.names_subset outside one.queries name⟩
    mutations := fun name => ⟨one.mutations.names_subset inside other.mutations name,
      other.mutations.names_subset outside one.mutations name⟩
    outputs := one.outputs.perm other.outputs fun name =>
      ⟨outputRoots_subset inside name, outputRoots_subset outside name⟩
    inputs := one.inputs.perm other.inputs fun name =>
      ⟨inputRoots_subset inside name, inputRoots_subset outside name⟩ }

theorem SameLists.of_stitched {grown more : Compiled ρ} (same : SameLists grown first)
    (one : Stitched grown second whole) (other : Stitched first second more) :
    SameLists whole more where
  queries := by rw [one.queries, other.queries, same.queries]
  mutations := by rw [one.mutations, other.mutations, same.mutations]
  types := by
    have outputs : whole.types.outputs = more.types.outputs := by
      rw [one.outputs, other.outputs, same.types]
    have inputs : whole.types.inputs = more.types.inputs := by
      rw [one.inputs, other.inputs, same.types]
    exact congrArg₂ Types.mk outputs inputs

/-- Resolvers that are named already change no list. -/
theorem Success.sameLists_of_subset (one : Success registry config resolvers first)
    (other : Success registry config more second)
    (both : Success registry config (resolvers ++ more) whole)
    (inside : ∀ name ∈ more, name ∈ resolvers) : SameLists whole first := by
  have stitched := one.stitched other both
  have none : ∀ {names known : List String}, (∀ name ∈ names, name ∈ known) →
      names.filter (· ∉ known) = [] := by
    intro names known subset
    exact List.filter_eq_nil_iff.mpr fun name member => by simpa using subset name member
  have outputs : whole.types.outputs = first.types.outputs :=
    stitched.outputs.trans (Keyed.stitch_of_subset fun name member =>
      one.mem_outputs.mpr ((other.mem_outputs.mp member).mono (outputRoots_subset inside)))
  have inputs : whole.types.inputs = first.types.inputs :=
    stitched.inputs.trans (Keyed.stitch_of_subset fun name member =>
      one.mem_inputs.mpr ((other.mem_inputs.mp member).mono (inputRoots_subset inside)))
  exact {
    queries := by
      rw [stitched.queries, none (other.queries.names_subset inside one.queries), List.append_nil]
    mutations := by
      rw [stitched.mutations, none (other.mutations.names_subset inside one.mutations),
        List.append_nil]
    types := congrArg₂ Types.mk outputs inputs }

end Built

/-- How the compilation of a list of resolvers hangs together with that of its parts. -/
structure Stitching (registry : Registry ρ) (config : Config) : Prop where
  accepts_append : ∀ resolvers more, Accepts registry config (resolvers ++ more) ↔
    Accepts registry config resolvers ∧ Accepts registry config more
  stitched : ∀ resolvers more first second, compile registry config resolvers = .ok first →
    compile registry config more = .ok second →
      ∃ whole, compile registry config (resolvers ++ more) = .ok whole ∧
        Stitched first second whole
  repeated : ∀ resolvers more name, name ∈ resolvers →
    (Accepts registry config (resolvers ++ name :: more) ↔
      Accepts registry config (resolvers ++ more)) ∧
    ∀ one other, compile registry config (resolvers ++ name :: more) = .ok one →
      compile registry config (resolvers ++ more) = .ok other → SameLists one other
  permuted : ∀ resolvers more, resolvers.Perm more →
    (Accepts registry config resolvers ↔ Accepts registry config more) ∧
    ∀ one other, compile registry config resolvers = .ok one →
      compile registry config more = .ok other → SameSets one other

/-- With a placeholder for a missing query, builds of resolvers are stitched from the builds of
their parts. Without it, resolvers that have no query of their own compile only beside others. -/
theorem stitching_of_placeholder {config : Config} (placeholder : config.placeholderQuery = true) :
    Stitching registry config := by
  have accepted : ∀ {resolvers more : List String}, (∀ name ∈ resolvers, name ∈ more) →
      Accepts registry config more → Accepts registry config resolvers := by
    intro resolvers more inside accepts
    exact accepts_iff_wellFormed.mpr
      (.of_subset inside placeholder (accepts_iff_wellFormed.mp accepts))
  have appended : ∀ {resolvers more : List String}, Accepts registry config resolvers →
      Accepts registry config more → Accepts registry config (resolvers ++ more) := by
    intro resolvers more first second
    exact accepts_iff_wellFormed.mpr
      (.append (accepts_iff_wellFormed.mp first) (accepts_iff_wellFormed.mp second))
  constructor
  case accepts_append =>
    intro resolvers more
    constructor
    · intro accepts
      exact ⟨accepted (fun name => List.mem_append_left _) accepts,
        accepted (fun name => List.mem_append_right _) accepts⟩
    · rintro ⟨first, second⟩
      exact appended first second
  case stitched =>
    intro resolvers more first second one other
    obtain ⟨whole, both⟩ := appended ⟨first, one⟩ ⟨second, other⟩
    exact ⟨whole, both,
      (compile_eq_ok.mp one).stitched (compile_eq_ok.mp other) (compile_eq_ok.mp both)⟩
  case repeated =>
    intro resolvers more name listed
    have alone : ∀ other ∈ [name], other ∈ resolvers := by simpa using listed
    refine ⟨accepts_congr placeholder fun other => ?_, ?_⟩
    · simp only [List.mem_append, List.mem_cons]
      constructor
      · rintro (before | rfl | after)
        · exact Or.inl before
        · exact Or.inl listed
        · exact Or.inr after
      · exact Or.imp_right Or.inr
    · intro one other run again
      obtain ⟨first, firstRun⟩ := accepted (fun name => List.mem_append_left _) ⟨other, again⟩
      obtain ⟨second, secondRun⟩ := accepted (fun name => List.mem_append_right _) ⟨other, again⟩
      obtain ⟨single, singleRun⟩ := accepted alone ⟨first, firstRun⟩
      obtain ⟨grown, grownRun⟩ := appended ⟨first, firstRun⟩ ⟨single, singleRun⟩
      have moved : resolvers ++ name :: more = resolvers ++ [name] ++ more := by simp
      rw [moved] at run
      have firstSuccess := compile_eq_ok.mp firstRun
      have grownSuccess := compile_eq_ok.mp grownRun
      have secondSuccess := compile_eq_ok.mp secondRun
      exact .of_stitched
        (firstSuccess.sameLists_of_subset (compile_eq_ok.mp singleRun) grownSuccess alone)
        (grownSuccess.stitched secondSuccess (compile_eq_ok.mp run))
        (firstSuccess.stitched secondSuccess (compile_eq_ok.mp again))
  case permuted =>
    intro resolvers more turned
    refine ⟨accepts_congr placeholder fun name => turned.mem_iff, ?_⟩
    intro one other run again
    exact (compile_eq_ok.mp run).sameSets (compile_eq_ok.mp again) fun name => turned.mem_iff

/-- A second resolver beside that of the library, whose types lead into those of the first. -/
def branch : List (Registration Unit) :=
  library ++
    [.field .plain (methodField "Loan" "book" "Book"),
      .field .plain (methodField "Loan" "reader" "Reader"),
      .field .plain (methodField "Reader" "loans" "Loan"),
      .field .query (methodField "Branch" "book" "Book"),
      .field .query (methodField "Branch" "loan" "Loan"),
      .resolver "Branch" ()]

theorem stitching_branch :
    ({} : Config).placeholderQuery = true ∧
      Stitching (Registry.empty.replay .nothing branch) {} ∧
      (compile (Registry.empty.replay .nothing branch) {} ["Library", "Branch"]).map (fun whole =>
        (Keyed.names whole.roots.queries, Keyed.names whole.types.outputs)) =
          .ok (["book", "loan"], ["Author", "Book", "Reader", "Loan"]) :=
  ⟨rfl, stitching_of_placeholder rfl, by decide +kernel⟩

end Compilation

end CodeFirst
