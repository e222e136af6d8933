import CodeFirst.Keyed
import Mathlib.Data.List.Nodup

/-! Items under names: what a look-up finds after items were put, and which names there are.
A list that is built by putting has no name twice. -/
namespace CodeFirst.Keyed

variable {α : Type u} {name other : String} {item : α} {items kept : Keyed α}

@[simp] theorem names_nil : names ([] : Keyed α) = [] := rfl

@[simp] theorem names_cons (head : String × α) (items : Keyed α) :
    names (head :: items) = head.1 :: names items := rfl

@[simp] theorem names_append (items more : Keyed α) :
    names (items ++ more) = names items ++ names more := List.map_append

theorem mem_names : name ∈ names items ↔ ∃ item, (name, item) ∈ items := by
  simp only [names, List.mem_map]
  constructor
  · rintro ⟨⟨found, item⟩, member, rfl⟩
    exact ⟨item, member⟩
  · rintro ⟨item, member⟩
    exact ⟨(name, item), member, rfl⟩

theorem mem_of_lookup (found : items.lookup name = some item) : (name, item) ∈ items := by
  obtain ⟨before, after, rfl, _⟩ := List.lookup_eq_some_iff.mp found
  simp

theorem isSome_lookup : (items.lookup name).isSome ↔ name ∈ names items := by
  constructor
  · intro some
    obtain ⟨item, found⟩ := Option.isSome_iff_exists.mp some
    exact mem_names_of_lookup found
  · intro member
    obtain ⟨item, member⟩ := mem_names.mp member
    rw [List.lookup_isSome_iff]
    exact ⟨(name, item), member, beq_self_eq_true name⟩

theorem lookup_eq_none : items.lookup name = none ↔ name ∉ names items := by
  rw [← isSome_lookup, Option.not_isSome_iff_eq_none]

/-- In a list without repeated names, each item is found under its name. -/
theorem lookup_of_mem (distinct : (names items).Nodup) (member : (name, item) ∈ items) :
    items.lookup name = some item := by
  induction items with
  | nil => cases member
  | cons head rest ih =>
      obtain ⟨first, found⟩ := head
      obtain ⟨fresh, distinct⟩ := List.nodup_cons.mp distinct
      rcases List.mem_cons.mp member with same | later
      · cases same
        exact List.lookup_cons_self
      · have differs : name ≠ first := fun same =>
          fresh (same ▸ mem_names.mpr ⟨item, later⟩)
        rw [List.lookup_cons, beq_false_of_ne differs]
        exact ih distinct later

/-- A list without repeated names is told by its names and what is found under them. -/
theorem eq_map_names {find : String → α} (distinct : (names items).Nodup)
    (found : ∀ name item, items.lookup name = some item → find name = item) :
    items = (names items).map fun name => (name, find name) := by
  rw [names, List.map_map]
  refine (List.map_id items).symm.trans (List.map_congr_left ?_)
  intro entry member
  have kept : find entry.1 = entry.2 := found entry.1 entry.2 (lookup_of_mem distinct member)
  exact Prod.ext rfl kept.symm

theorem lookup_eq_some (distinct : (names items).Nodup) :
    items.lookup name = some item ↔ (name, item) ∈ items :=
  ⟨mem_of_lookup, lookup_of_mem distinct⟩

/-- What is found does not depend on the order of the items. -/
theorem lookup_perm {more : Keyed α} (distinct : (names items).Nodup) (same : items.Perm more)
    (name : String) : items.lookup name = more.lookup name := by
  have turned : (names more).Nodup := (same.map Prod.fst).nodup_iff.mp distinct
  apply Option.ext
  intro item
  rw [lookup_eq_some distinct, lookup_eq_some turned, same.mem_iff]

/-- Lists without repeated names have the same items if the same is found in both. -/
theorem perm_of_lookup {more : Keyed α} (distinct : (names items).Nodup)
    (others : (names more).Nodup) (same : ∀ name, items.lookup name = more.lookup name) :
    items.Perm more := by
  apply (List.perm_ext_iff_of_nodup (.of_map _ distinct) (.of_map _ others)).mpr
  intro entry
  obtain ⟨name, item⟩ := entry
  rw [← lookup_eq_some distinct, ← lookup_eq_some others, same]

theorem lookup_cons_eq (other : String) (head : String × α) (items : Keyed α) :
    List.lookup other (head :: items) =
      if other = head.1 then some head.2 else items.lookup other := by
  obtain ⟨first, found⟩ := head
  rw [List.lookup_cons]
  by_cases h : other = first
  · subst h
    simp
  · simp [beq_false_of_ne h, h]

theorem lookup_map {β : Type v} (change : α → β) (name : String) (items : Keyed α) :
    (items.map fun entry => (entry.1, change entry.2)).lookup name =
      (items.lookup name).map change := by
  induction items with
  | nil => rfl
  | cons head rest ih =>
      rw [List.map_cons, lookup_cons_eq, lookup_cons_eq, ih]
      split <;> rfl

theorem lookup_put (name other : String) (item : α) (items : Keyed α) :
    (put name item items).lookup other = if other = name then some item else items.lookup other := by
  induction items with
  | nil => exact lookup_cons_eq other (name, item) []
  | cons head rest ih =>
      obtain ⟨first, found⟩ := head
      simp only [put]
      split
      · rename_i same
        subst same
        simp only [lookup_cons_eq]
        split <;> rfl
      · rename_i differs
        simp only [lookup_cons_eq, ih]
        by_cases h : other = first
        · subst h
          simp [differs]
        · simp [h]

/-- A name keeps its place when another item is put under it; a new name comes last. -/
theorem names_put (name : String) (item : α) (items : Keyed α) :
    names (put name item items) =
      if name ∈ names items then names items else names items ++ [name] := by
  induction items with
  | nil => rfl
  | cons head rest ih =>
      obtain ⟨first, found⟩ := head
      simp only [put]
      split
      · rename_i same
        simp [same]
      · rename_i differs
        have differs' : name ≠ first := fun same => differs same.symm
        rw [names_cons, names_cons, ih]
        by_cases h : name ∈ names rest <;> simp [h, differs']

theorem put_of_not_mem (fresh : name ∉ names items) : put name item items = items ++ [(name, item)] := by
  induction items with
  | nil => rfl
  | cons head rest ih =>
      obtain ⟨first, found⟩ := head
      simp only [names_cons, List.mem_cons, not_or] at fresh
      simp only [put, if_neg (Ne.symm fresh.1), ih fresh.2, List.cons_append]

/-- An item that is put where it stands already changes nothing. -/
theorem put_of_lookup (found : items.lookup name = some item) : put name item items = items := by
  induction items with
  | nil => cases found
  | cons head rest ih =>
      obtain ⟨first, old⟩ := head
      rw [lookup_cons_eq] at found
      by_cases same : name = first
      · subst same
        rw [if_pos rfl] at found
        cases found
        exact if_pos rfl
      · rw [if_neg same] at found
        simp only [put, if_neg (Ne.symm same), ih found]

theorem mem_names_put : other ∈ names (put name item items) ↔ other = name ∨ other ∈ names items := by
  rw [names_put]
  split
  · rename_i member
    constructor
    · exact Or.inr
    · rintro (rfl | found)
      · exact member
      · exact found
  · rw [List.mem_append, List.mem_singleton, or_comm]

theorem nodup_names_put (distinct : (names items).Nodup) : (names (put name item items)).Nodup := by
  rw [names_put]
  split
  · exact distinct
  · rename_i fresh
    refine List.nodup_append.mpr ⟨distinct, List.nodup_singleton name, ?_⟩
    rintro found member last same rfl
    exact fresh (List.mem_singleton.mp same ▸ member)

theorem mem_put {entry : String × α} (member : entry ∈ put name item items) :
    entry = (name, item) ∨ entry ∈ items := by
  induction items with
  | nil => exact Or.inl (List.mem_singleton.mp member)
  | cons head rest ih =>
      obtain ⟨first, found⟩ := head
      simp only [put] at member
      split at member
      · rcases List.mem_cons.mp member with rfl | later
        · exact Or.inl rfl
        · exact Or.inr (List.mem_cons_of_mem _ later)
      · rcases List.mem_cons.mp member with rfl | later
        · exact Or.inr List.mem_cons_self
        · exact (ih later).imp_right (List.mem_cons_of_mem _)

@[simp] theorem putAll_nil (kept : Keyed α) : putAll [] kept = kept := rfl

@[simp] theorem putAll_cons (entry : String × α) (items : List (String × α)) (kept : Keyed α) :
    putAll (entry :: items) kept = putAll items (put entry.1 entry.2 kept) := rfl

/-- Of the items put under a name the last is found. -/
theorem lookup_putAll (name : String) (items : List (String × α)) (kept : Keyed α) :
    (putAll items kept).lookup name = (items.reverse.lookup name).or (kept.lookup name) := by
  induction items generalizing kept with
  | nil => rfl
  | cons entry rest ih =>
      rw [putAll_cons, ih, lookup_put, List.reverse_cons, List.lookup_append, Option.or_assoc,
        lookup_cons_eq]
      by_cases h : name = entry.1 <;> simp [h]

theorem nodup_names_putAll (items : List (String × α)) (distinct : (names kept).Nodup) :
    (names (putAll items kept)).Nodup := by
  induction items generalizing kept with
  | nil => exact distinct
  | cons entry rest ih => exact ih (nodup_names_put distinct)

/-- Every name has the place at which it came first. -/
theorem names_putAll (items : List (String × α)) (kept : Keyed α) :
    names (putAll items kept) = names kept ++ ((names items).removeAll (names kept)).eraseDups := by
  induction items generalizing kept with
  | nil => simp [List.removeAll]
  | cons entry rest ih =>
      rw [putAll_cons, ih, names_put, names_cons]
      simp only [List.removeAll, List.elem_eq_mem]
      by_cases member : entry.1 ∈ names kept
      · simp [member]
      · simp [member, List.eraseDups_cons, List.filter_filter, Bool.and_comm, beq_eq_decide]

theorem names_ofList (items : List (String × α)) :
    names (ofList items) = (names items).eraseDups := by
  rw [ofList, names_putAll]
  simp [List.removeAll]

theorem mem_putAll {items : List (String × α)} {entry : String × α}
    (member : entry ∈ putAll items kept) : entry ∈ items ∨ entry ∈ kept := by
  induction items generalizing kept with
  | nil => exact Or.inr member
  | cons first rest ih =>
      rcases ih member with later | before
      · exact Or.inl (List.mem_cons_of_mem _ later)
      · rcases mem_put before with rfl | before
        · exact Or.inl List.mem_cons_self
        · exact Or.inr before

theorem putAll_of_nodup {items : List (String × α)} (distinct : (names (kept ++ items)).Nodup) :
    putAll items kept = kept ++ items := by
  induction items generalizing kept with
  | nil => exact (List.append_nil kept).symm
  | cons entry rest ih =>
      have fresh : entry.1 ∉ names kept := by
        rw [names_append, List.nodup_append] at distinct
        intro member
        exact distinct.2.2 _ member _ List.mem_cons_self rfl
      rw [putAll_cons, put_of_not_mem fresh]
      have moved : kept ++ [(entry.1, entry.2)] ++ rest = kept ++ entry :: rest := by simp
      rw [ih (moved ▸ distinct), moved]

/-- In a list without repeated names, it does not matter from which end a name is looked for. -/
theorem lookup_reverse (distinct : (names items).Nodup) (name : String) :
    items.reverse.lookup name = items.lookup name := by
  have kept : putAll items [] = [] ++ items := putAll_of_nodup distinct
  have same := lookup_putAll name items []
  rw [kept, List.nil_append, List.lookup_nil, Option.or_none] at same
  exact same.symm

end CodeFirst.Keyed
