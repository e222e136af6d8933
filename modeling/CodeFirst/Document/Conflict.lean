import CodeFirst.Document.Violation

/-!
Conflicts between selections of one entry: two fields under one label must be one field with equal
arguments.
-/

namespace CodeFirst.Conflict

structure Selected where
  /-- The type condition closest around the field. -/
  condition : Option String
  label : String
  name : String
  arguments : List (String × Literal)

abbrev Pending := List (Option String × Selection)

def under (condition : Option String) (selections : List Selection) : Pending :=
  selections.map (condition, ·)

noncomputable def size : Pending → Nat
  | [] => 0
  | (_, selection) :: rest => sizeOf selection + size rest

theorem size_lt_cons (item : Option String × Selection) (rest : Pending) :
    size rest < size (item :: rest) := by
  obtain ⟨condition, selection⟩ := item
  cases selection <;> simp +arith [size]

theorem size_under_append (condition : Option String) (selections : List Selection)
    (rest : Pending) :
    size (under condition selections ++ rest) ≤ sizeOf selections + size rest := by
  induction selections with
  | nil => simp [under]
  | cons head tail ih =>
    simp only [size, under, List.map_cons, List.cons_append,
      List.cons.sizeOf_spec] at *
    omega

/-- The fields of a selection set in order. Fragments are opened in place, each one only where it is
spread first. -/
def gather (fragments : Keyed Fragment) (spread : List String) : Pending → List Selected
  | [] => []
  | (condition, .field label name arguments _ _) :: rest =>
    ⟨condition, label.getD name, name, arguments⟩ :: gather fragments spread rest
  | (_, .inline condition _ selections) :: rest =>
    gather fragments spread (under condition selections ++ rest)
  | (_, .spread name _) :: rest =>
    if _ : name ∈ spread then gather fragments spread rest
    else
      match _found : fragments.lookup name with
      | none => gather fragments spread rest
      | some fragment =>
        gather fragments (name :: spread)
          (under (some fragment.condition) fragment.selections ++ rest)
termination_by pending => ((Keyed.outside fragments spread).length, size pending)
decreasing_by
  · exact .right _ (size_lt_cons _ rest)
  · refine .right _ (Nat.lt_of_le_of_lt (size_under_append condition selections rest) ?_)
    simp only [size, Selection.inline.sizeOf_spec]
    omega
  · exact .right _ (size_lt_cons _ rest)
  · exact .right _ (size_lt_cons _ rest)
  · exact .left _ _
      (Keyed.outside_length_lt _found (by assumption) (by simp) (by simp +contextual))

/-- What a field violates that is selected after another under the same label and condition. -/
def between (first second : Selected) : List Violation :=
  (if first.name = second.name then []
    else [.differentFields first.label first.name second.name]) ++
  (if first.arguments.length = second.arguments.length then []
    else [.differingArguments first.label]) ++
  first.arguments.filterMap fun (name, literal) =>
    match second.arguments.lookup name with
    | some other => if literal.same other then none else some (.differingArguments name)
    | none => some (.differingArguments name)

/-- The conflicts of fields with earlier ones. `firsts` holds the first field of each label. -/
def among (firsts : List Selected) : List Selected → List Violation
  | [] => []
  | field :: rest =>
    match firsts.find? fun first =>
        first.condition = field.condition && first.label = field.label with
    | some first => between first field ++ among firsts rest
    | none => among (firsts ++ [field]) rest

def conflicts (fragments : Keyed Fragment) (selections : List Selection) : List Violation :=
  among [] (gather fragments [] (under none selections))

end CodeFirst.Conflict
