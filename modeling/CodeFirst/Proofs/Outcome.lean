import Mathlib.Data.List.Forall2
import Mathlib.Data.List.Induction

/-! Runs that may fail: what is known of the steps of a run that did not, and what a run that did
failed by. -/
namespace CodeFirst.Outcome

variable {ε α β γ : Type}

theorem bind_eq_ok {value : Except ε α} {next : α → Except ε β} {result : β} :
    (value >>= next) = .ok result ↔ ∃ middle, value = .ok middle ∧ next middle = .ok result := by
  cases value with
  | error error =>
      constructor
      · intro run
        cases run
      · rintro ⟨middle, failed, _⟩
        cases failed
  | ok middle =>
      constructor
      · intro run
        exact ⟨middle, rfl, run⟩
      · rintro ⟨_, same, run⟩
        cases same
        exact run

theorem bind_eq_error {value : Except ε α} {next : α → Except ε β} {error : ε} :
    (value >>= next) = .error error ↔
      value = .error error ∨ ∃ middle, value = .ok middle ∧ next middle = .error error := by
  cases value with
  | error other =>
      constructor
      · intro failed
        cases failed
        exact Or.inl rfl
      · rintro (failed | ⟨middle, done, _⟩)
        · cases failed
          rfl
        · cases done
  | ok middle =>
      constructor
      · intro failed
        exact Or.inr ⟨middle, rfl, failed⟩
      · rintro (failed | ⟨other, done, failed⟩)
        · cases failed
        · cases done
          exact failed

theorem pure_eq_ok {value result : α} :
    (pure value : Except ε α) = .ok result ↔ value = result := by
  constructor
  · intro run
    cases run
    rfl
  · rintro rfl
    rfl

theorem map_eq_ok {value : Except ε α} {change : α → β} {result : β} :
    value.map change = .ok result ↔ ∃ found, value = .ok found ∧ change found = result := by
  cases value with
  | error error =>
      constructor
      · intro run
        cases run
      · rintro ⟨found, failed, _⟩
        cases failed
  | ok found =>
      constructor
      · intro run
        cases run
        exact ⟨found, rfl, rfl⟩
      · rintro ⟨_, same, rfl⟩
        cases same
        rfl

theorem map_eq_error {value : Except ε α} {change : α → β} {error : ε} :
    value.map change = .error error ↔ value = .error error := by
  cases value with
  | error other =>
      constructor
      · intro failed
        cases failed
        rfl
      · intro failed
        cases failed
        rfl
  | ok found =>
      constructor
      · intro failed
        cases failed
      · intro failed
        cases failed

theorem exists_of_isOk {value : Except ε α} (ok : value.isOk = true) :
    ∃ result, value = .ok result := by
  cases value with
  | error error => cases ok
  | ok result => exact ⟨result, rfl⟩

section Fold

variable {step : β → α → Except ε β} {start result : β} {input : α} {first rest : List α}

theorem foldlM_nil_eq_ok : ([] : List α).foldlM step start = .ok result ↔ start = result :=
  pure_eq_ok

theorem foldlM_cons_eq_ok :
    (input :: rest).foldlM step start = .ok result ↔
      ∃ middle, step start input = .ok middle ∧ rest.foldlM step middle = .ok result := by
  rw [List.foldlM_cons]
  exact bind_eq_ok

theorem foldlM_append_eq_ok :
    (first ++ rest).foldlM step start = .ok result ↔
      ∃ middle, first.foldlM step start = .ok middle ∧ rest.foldlM step middle = .ok result := by
  rw [List.foldlM_append]
  exact bind_eq_ok

/-- A run fails at the first step that does, whatever comes after it. -/
theorem foldlM_eq_error {inputs : List α} {error : ε} :
    inputs.foldlM step start = .error error ↔ ∃ before input after middle,
      before ++ input :: after = inputs ∧ before.foldlM step start = .ok middle ∧
        step middle input = .error error := by
  constructor
  · intro failed
    induction inputs generalizing start with
    | nil => cases failed
    | cons first rest ih =>
        rw [List.foldlM_cons, bind_eq_error] at failed
        rcases failed with failed | ⟨middle, done, failed⟩
        · exact ⟨[], first, rest, start, rfl, rfl, failed⟩
        · obtain ⟨before, input, after, last, rfl, run, stopped⟩ := ih failed
          exact ⟨first :: before, input, after, last, rfl, foldlM_cons_eq_ok.mpr ⟨middle, done, run⟩,
            stopped⟩
  · rintro ⟨before, input, after, middle, rfl, run, failed⟩
    rw [List.foldlM_append, bind_eq_error]
    refine Or.inr ⟨middle, run, ?_⟩
    rw [List.foldlM_cons, bind_eq_error]
    exact Or.inl failed

end Fold

/-- Steps that do the same to all inputs make the same run, whatever it ends with. -/
theorem foldlM_congr {step other : β → α → Except ε β} {start : β} {inputs : List α}
    (same : ∀ input ∈ inputs, ∀ done, step done input = other done input) :
    inputs.foldlM step start = inputs.foldlM other start := by
  induction inputs generalizing start with
  | nil => rfl
  | cons input rest ih =>
      obtain ⟨first, later⟩ := List.forall_mem_cons.mp same
      have goesOn : (rest.foldlM step ·) = (rest.foldlM other ·) := by
        funext middle
        exact ih later
      rw [List.foldlM_cons, List.foldlM_cons, first start, goesOn]

theorem mapM_congr {change other : α → Except ε β} {inputs : List α}
    (same : ∀ input ∈ inputs, change input = other input) :
    inputs.mapM change = inputs.mapM other := by
  induction inputs with
  | nil => rfl
  | cons input rest ih =>
      obtain ⟨first, later⟩ := List.forall_mem_cons.mp same
      rw [List.mapM_cons, List.mapM_cons, first, ih later]

theorem mapM_eq_ok {change : α → Except ε β} {inputs : List α} {results : List β} :
    inputs.mapM change = .ok results ↔
      List.Forall₂ (fun input result => change input = .ok result) inputs results := by
  induction inputs generalizing results with
  | nil =>
      rw [List.mapM_nil, pure_eq_ok, List.forall₂_nil_left_iff]
      exact eq_comm
  | cons input rest ih =>
      rw [List.mapM_cons, bind_eq_ok]
      constructor
      · rintro ⟨result, changed, run⟩
        obtain ⟨others, later, done⟩ := bind_eq_ok.mp run
        cases pure_eq_ok.mp done
        exact .cons changed (ih.mp later)
      · intro all
        cases all with
        | cons changed later =>
            exact ⟨_, changed, bind_eq_ok.mpr ⟨_, ih.mpr later, rfl⟩⟩

theorem exists_input_of_mapM {change : α → Except ε β} {inputs : List α} {results : List β}
    {result : β} (run : inputs.mapM change = .ok results) (member : result ∈ results) :
    ∃ input ∈ inputs, change input = .ok result := by
  induction mapM_eq_ok.mp run with
  | nil => cases member
  | @cons input _ _ _ changed others ih =>
      rcases List.mem_cons.mp member with rfl | later
      · exact ⟨input, List.mem_cons_self, changed⟩
      · obtain ⟨found, among, same⟩ := ih (mapM_eq_ok.mpr others) later
        exact ⟨found, List.mem_cons_of_mem _ among, same⟩

theorem exists_mapM_eq_ok {change : α → Except ε β} {inputs : List α} :
    (∃ results, inputs.mapM change = .ok results) ↔
      ∀ input ∈ inputs, ∃ result, change input = .ok result := by
  simp only [mapM_eq_ok]
  constructor
  · rintro ⟨results, all⟩
    induction all with
    | nil => simp
    | cons changed _ ih => exact List.forall_mem_cons.mpr ⟨⟨_, changed⟩, ih⟩
  · intro all
    induction inputs with
    | nil => exact ⟨[], .nil⟩
    | cons input rest ih =>
        obtain ⟨⟨result, changed⟩, later⟩ := List.forall_mem_cons.mp all
        obtain ⟨results, found⟩ := ih later
        exact ⟨result :: results, .cons changed found⟩

/-- What a step keeps of each input the run keeps of all. -/
theorem map_eq_of_mapM {δ : Type} {change : α → Except ε β} {inputs : List α} {results : List β}
    {before : α → δ} {after : β → δ} (run : inputs.mapM change = .ok results)
    (kept : ∀ input result, change input = .ok result → after result = before input) :
    results.map after = inputs.map before := by
  induction mapM_eq_ok.mp run with
  | nil => rfl
  | cons changed others ih =>
      rw [List.map_cons, List.map_cons, kept _ _ changed, ih (mapM_eq_ok.mpr others)]

/-- Whatever error a run ends with, there is a cause for it. -/
def FailsBy (cause : ε → Prop) (run : Except ε α) : Prop :=
  ∀ error, run = .error error → cause error

section FailsBy

variable {cause : ε → Prop} {run : Except ε α}

theorem failsBy_ok (result : α) : FailsBy cause (.ok result : Except ε α) := by
  intro error failed
  cases failed

theorem failsBy_error {error : ε} (caused : cause error) :
    FailsBy cause (.error error : Except ε α) := by
  intro other failed
  cases failed
  exact caused

theorem FailsBy.mono {weaker : ε → Prop} (fails : FailsBy cause run)
    (weaken : ∀ error, cause error → weaker error) : FailsBy weaker run :=
  fun error failed => weaken error (fails error failed)

/-- What comes behind a step runs only if the step does not fail. -/
theorem FailsBy.bind {next : α → Except ε β} (first : FailsBy cause run)
    (later : ∀ middle, run = .ok middle → FailsBy cause (next middle)) :
    FailsBy cause (run >>= next) := by
  cases run with
  | error error => exact failsBy_error (first error rfl)
  | ok middle => exact later middle rfl

/-- A step of a fold runs only on what the steps before it came to. -/
theorem failsBy_foldlM {step : β → α → Except ε β} {start : β} {inputs : List α}
    (each : ∀ before input after done, before ++ input :: after = inputs →
      before.foldlM step start = .ok done → FailsBy cause (step done input)) :
    FailsBy cause (inputs.foldlM step start) := by
  intro error failed
  obtain ⟨before, input, after, middle, split, run, stopped⟩ := foldlM_eq_error.mp failed
  exact each before input after middle split run error stopped

theorem failsBy_mapM {change : α → Except ε β} {inputs : List α}
    (each : ∀ input ∈ inputs, FailsBy cause (change input)) :
    FailsBy cause (inputs.mapM change) := by
  induction inputs with
  | nil => exact failsBy_ok []
  | cons input rest ih =>
      obtain ⟨first, others⟩ := List.forall_mem_cons.mp each
      rw [List.mapM_cons]
      apply first.bind
      intro result _
      apply (ih others).bind
      exact fun results _ => failsBy_ok (result :: results)

end FailsBy

end CodeFirst.Outcome
