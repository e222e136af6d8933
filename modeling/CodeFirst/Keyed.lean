/-!
Items kept under names, in the order in which the names first came.
-/

namespace CodeFirst

/-- Items under names; no name stands twice in a list built by `Keyed.put`. -/
abbrev Keyed (α : Type u) := List (String × α)

namespace Keyed

variable {α : Type u} {β : Type v}

def names (items : Keyed α) : List String :=
  items.map (·.1)

def values (items : Keyed α) : List α :=
  items.map (·.2)

/-- Puts an item under a name: in the place that the name has already, else at the end. -/
def put (name : String) (item : α) : Keyed α → Keyed α
  | [] => [(name, item)]
  | (other, old) :: rest =>
    if other = name then (name, item) :: rest else (other, old) :: put name item rest

/-- Puts items one after the other, so that of two items under one name the later stays. -/
def putAll (items : List (String × α)) (kept : Keyed α) : Keyed α :=
  items.foldl (fun kept item => put item.1 item.2 kept) kept

def ofList (items : List (String × α)) : Keyed α :=
  putAll items []

/-- Changes the item under a name, and leaves all others. -/
def modify (name : String) (change : α → α) : Keyed α → Keyed α
  | [] => []
  | (other, item) :: rest =>
    if other = name then (other, change item) :: rest else (other, item) :: modify name change rest

/-- The names that are not among the taken ones. -/
def outside (items : Keyed α) (taken : List String) : List String :=
  (names items).filter (· ∉ taken)

theorem mem_names_of_lookup {items : Keyed α} {name : String} {item : α}
    (h : items.lookup name = some item) : name ∈ names items := by
  induction items with
  | nil => simp at h
  | cons head tail ih =>
    obtain ⟨other, found⟩ := head
    simp only [List.lookup_cons] at h
    split at h
    · rename_i same
      simp [names, eq_of_beq same]
    · exact List.mem_cons_of_mem _ (ih h)

/-- A name that is taken is outside no more: every search that takes the names it visits ends. -/
theorem outside_length_lt {items : Keyed α} {taken more : List String} {name : String} {item : α}
    (found : items.lookup name = some item) (fresh : name ∉ taken) (isTaken : name ∈ more)
    (kept : ∀ other ∈ taken, other ∈ more) :
    (items.outside more).length < (items.outside taken).length := by
  have split : items.outside more = (items.outside taken).filter (· ∉ more) := by
    simp only [outside, List.filter_filter]
    refine List.filter_congr fun other _ => ?_
    by_cases h : other ∈ more
    · simp [h]
    · have : other ∉ taken := fun mem => h (kept other mem)
      simp [h, this]
  rw [split]
  apply List.length_filter_lt_length_iff_exists.mpr
  exact ⟨name, List.mem_filter.mpr ⟨mem_names_of_lookup found, by simpa using fresh⟩,
    by simpa using isTaken⟩

/-- Adds to the reached names those that are pending and have items, and all that these items lead
to, depth first. -/
def reach (next : α → List String) (items : Keyed α) (reached : List String) :
    List String → List String
  | [] => reached
  | name :: rest =>
    if _ : name ∈ reached then reach next items reached rest
    else
      match _found : items.lookup name with
      | none => reach next items reached rest
      | some item => reach next items (reached ++ [name]) (next item ++ rest)
termination_by pending => ((items.outside reached).length, pending.length)
decreasing_by
  · exact .right _ (by simp)
  · exact .right _ (by simp)
  · exact .left _ _ (outside_length_lt _found (by assumption) (by simp) (by simp +contextual))

end Keyed

end CodeFirst
