import CodeFirst.Proofs.Compilation.Memo

/-! What a run over names compiles: exactly the types that the names lead to, each once, and each
with all that its fields refer to. -/
namespace CodeFirst.Compilation

variable {ρ α : Type} {usage : Usage α} {registry : Registry ρ}

/-- The least set that holds the given names and, with a name, the composite types of the fields
of its entry. -/
inductive Reached (registry : Registry ρ) (names : List String) : String → Prop
  | root {name} : name ∈ names → Reached registry names name
  | field {name next entry} : Reached registry names name → registry.get? name = some entry →
      next ∈ customFieldTypes entry → Reached registry names next

theorem Reached.trans {names more : List String} {name : String}
    (reached : Reached registry names name) (led : ∀ first ∈ names, Reached registry more first) :
    Reached registry more name := by
  induction reached with
  | root member => exact led _ member
  | field _ found member ih => exact .field ih found member

theorem Reached.mono {names more : List String} {name : String}
    (reached : Reached registry names name) (kept : ∀ first ∈ names, first ∈ more) :
    Reached registry more name :=
  reached.trans fun first member => .root (kept first member)

/-- What the fields of an entry lead to its name leads to. -/
theorem Reached.of_entry {names : List String} {name next : String} {entry : Entry ρ}
    (member : name ∈ names) (found : registry.get? name = some entry)
    (reached : Reached registry (customFieldTypes entry) next) : Reached registry names next :=
  reached.trans fun _ type => .field (.root member) found type

theorem Memo.Has.finish {memo : Memo α} {name other : String} {fields : Keyed α}
    (has : memo.Has other) : (memo.finish name fields).Has other := by
  rcases has with finished | pending
  · exact Or.inl (Keyed.mem_names_put.mpr (Or.inr finished))
  · by_cases same : other = name
    · exact Or.inl (Keyed.mem_names_put.mpr (Or.inl same))
    · exact Or.inr ((List.mem_erase_of_ne same).mpr pending)

namespace Compiles

variable {memo inner after : Memo α} {names : List String} {name : String}

/-- Whatever a run adds was not pending, and the names lead to it. -/
theorem added (run : Compiles usage registry memo names after)
    (finished : name ∈ Keyed.names after.compiled) :
    name ∈ Keyed.names memo.compiled ∨ name ∉ memo.pending ∧ Reached registry names name := by
  induction run with
  | done => exact Or.inl finished
  | skip _ _ ih =>
      refine (ih finished).imp_right fun ⟨fresh, reached⟩ => ⟨fresh, ?_⟩
      exact reached.mono fun _ => List.mem_cons_of_mem _
  | @visit memo first rest entry fields inner after fresh found _ runInner _ ihInner ihRest =>
      rcases ihRest finished with before | ⟨absent, reached⟩
      · rcases Keyed.mem_names_put.mp before with rfl | before
        · exact Or.inr ⟨fun pending => fresh (Or.inr pending), .root List.mem_cons_self⟩
        · refine (ihInner before).imp_right fun ⟨absent, reached⟩ => ⟨?_, ?_⟩
          · exact fun pending => absent (List.mem_cons_of_mem _ pending)
          · exact reached.of_entry List.mem_cons_self found
      · rw [runInner.finish_pending] at absent
        exact Or.inr ⟨absent, reached.mono fun _ => List.mem_cons_of_mem _⟩

/-- A type comes behind all that were finished before it. -/
theorem finish_compiled {types : List String} {fields : Keyed α} (fresh : ¬ memo.Has name)
    (run : Compiles usage registry (memo.start name) types inner) :
    (inner.finish name fields).compiled = inner.compiled ++ [(name, fields)] := by
  refine Keyed.put_of_not_mem fun finished => ?_
  rcases run.added finished with before | ⟨absent, _⟩
  · exact fresh (Or.inl before)
  · exact absent List.mem_cons_self

/-- A run adds types behind those that there are, and changes none. The names lead to all it adds. -/
theorem append (run : Compiles usage registry memo names after) :
    ∃ more, after.compiled = memo.compiled ++ more ∧
      ∀ type ∈ more, Reached registry names type.1 := by
  induction run with
  | done => exact ⟨[], (List.append_nil _).symm, by simp⟩
  | skip _ _ ih =>
      obtain ⟨more, same, reached⟩ := ih
      refine ⟨more, same, fun type member => (reached type member).mono ?_⟩
      exact fun _ => List.mem_cons_of_mem _
  | @visit _ name _ _ fields _ _ fresh found _ runInner _ ihInner ihRest =>
      obtain ⟨first, inside, reachedInside⟩ := ihInner
      obtain ⟨rest, outside, reachedOutside⟩ := ihRest
      rw [runInner.finish_compiled fresh, inside] at outside
      refine ⟨first ++ [(name, fields)] ++ rest, by simpa using outside, ?_⟩
      intro type member
      rcases List.mem_append.mp member with before | later
      · rcases List.mem_append.mp before with inner | last
        · exact (reachedInside type inner).of_entry List.mem_cons_self found
        · cases List.mem_singleton.mp last
          exact .root List.mem_cons_self
      · exact (reachedOutside type later).mono fun _ => List.mem_cons_of_mem _

theorem has_of_has (run : Compiles usage registry memo names after) (has : memo.Has name) :
    after.Has name := by
  rcases has with finished | pending
  · obtain ⟨more, same, -⟩ := run.append
    rw [Memo.Has, same, Keyed.names_append]
    exact Or.inl (List.mem_append_left _ finished)
  · exact Or.inr (run.pending_eq ▸ pending)

/-- In the end the memo has every name of the run. -/
theorem covers (run : Compiles usage registry memo names after) :
    ∀ name ∈ names, after.Has name := by
  induction run with
  | done => simp
  | skip has runRest ih => exact List.forall_mem_cons.mpr ⟨runRest.has_of_has has, ih⟩
  | visit _ _ _ _ runRest _ ih =>
      refine List.forall_mem_cons.mpr ⟨runRest.has_of_has (Or.inl ?_), ih⟩
      exact Keyed.mem_names_put.mpr (Or.inl rfl)

theorem nodup (run : Compiles usage registry memo names after)
    (distinct : (Keyed.names memo.compiled).Nodup) : (Keyed.names after.compiled).Nodup := by
  induction run with
  | done => exact distinct
  | skip _ _ ih => exact ih distinct
  | visit _ _ _ _ _ ihInner ihRest => exact ihRest (Keyed.nodup_names_put (ihInner distinct))

/-- A type with its fields that has an entry which fits, and whose references the memo has. -/
def Sound (usage : Usage α) (registry : Registry ρ) (memo : Memo α) (type : String × Keyed α) :
    Prop :=
  ∃ entry, registry.get? type.1 = some entry ∧ Fits usage entry type.2 ∧
    ∀ next ∈ customFieldTypes entry, memo.Has next

theorem Sound.mono {type : String × Keyed α} (sound : Sound usage registry memo type)
    (kept : ∀ next, memo.Has next → after.Has next) : Sound usage registry after type := by
  obtain ⟨entry, found, fits, covered⟩ := sound
  exact ⟨entry, found, fits, fun next member => kept next (covered next member)⟩

theorem sound (run : Compiles usage registry memo names after) :
    ∀ type ∈ after.compiled, type ∈ memo.compiled ∨ Sound usage registry after type := by
  induction run with
  | done => exact fun _ => Or.inl
  | skip _ _ ih => exact ih
  | @visit memo name rest entry fields inner after fresh found fits runInner runRest ihInner ihRest =>
      intro type finished
      have kept : ∀ next, inner.Has next → after.Has next :=
        fun next has => runRest.has_of_has (Memo.Has.finish has)
      rcases ihRest type finished with before | new
      · rw [runInner.finish_compiled fresh] at before
        rcases List.mem_append.mp before with inside | last
        · exact (ihInner type inside).imp_right fun sound => sound.mono kept
        · cases List.mem_singleton.mp last
          have itself : Sound usage registry inner (name, fields) :=
            ⟨entry, found, fits, runInner.covers⟩
          exact Or.inr (itself.mono kept)
      · exact Or.inr new

/-- From an empty memo, exactly those types are compiled that the names lead to. -/
theorem mem_names_iff (run : Compiles usage registry {} names after) :
    name ∈ Keyed.names after.compiled ↔ Reached registry names name := by
  have finished : ∀ name, after.Has name → name ∈ Keyed.names after.compiled := by
    intro name has
    rcases has with finished | pending
    · exact finished
    · rw [run.pending_eq] at pending
      cases pending
  constructor
  · intro member
    rcases run.added member with before | ⟨_, reached⟩
    · cases before
    · exact reached
  · intro reached
    induction reached with
    | root member => exact finished _ (run.covers _ member)
    | @field name next entry _ found member ih =>
        obtain ⟨fields, stored⟩ := Keyed.mem_names.mp ih
        rcases run.sound _ stored with before | ⟨other, same, _, covered⟩
        · cases before
        · cases found.symm.trans same
          exact finished next (covered next member)

/-- From an empty memo, the fields of a compiled type are those of an entry that fits. -/
theorem fits_of_mem {type : String × Keyed α} (run : Compiles usage registry {} names after)
    (member : type ∈ after.compiled) :
    ∃ entry, registry.get? type.1 = some entry ∧ Fits usage entry type.2 := by
  rcases run.sound type member with before | ⟨entry, found, fits, _⟩
  · cases before
  · exact ⟨entry, found, fits⟩

end Compiles

/-- If every entry fits that the names lead to, a run over them comes to its end from any memo. -/
theorem exists_compiles {names : List String} (memo : Memo α)
    (each : ∀ name, Reached registry names name →
      ∃ entry fields, registry.get? name = some entry ∧ Fits usage entry fields) :
    ∃ after, Compiles usage registry memo names after := by
  induction pending : memo.pending using path_induction registry generalizing memo names with
  | each path ihPath =>
      induction names generalizing memo with
      | nil => exact ⟨memo, .done⟩
      | cons name rest ihNames =>
          have eachRest := fun other reached =>
            each other (Reached.mono reached fun _ => List.mem_cons_of_mem name)
          by_cases has : memo.Has name
          · obtain ⟨after, run⟩ := ihNames memo eachRest pending
            exact ⟨after, .skip has run⟩
          · obtain ⟨entry, fields, found, fits⟩ := each name (.root List.mem_cons_self)
            have fresh : name ∉ path := fun begun => has (Or.inr (pending ▸ begun))
            have started : (memo.start name).pending = name :: path := congrArg (name :: ·) pending
            obtain ⟨inner, runInner⟩ := ihPath name entry found fresh (memo.start name)
              (fun next reached => each next (reached.of_entry List.mem_cons_self found)) started
            obtain ⟨after, run⟩ := ihNames (inner.finish name fields) eachRest
              (runInner.finish_pending.trans pending)
            exact ⟨after, .visit has found fits runInner run⟩

end CodeFirst.Compilation
