import CodeFirst.Proofs.Registry.Slots

/-! What an entry keeps of all that was registered under its name: each field, in order, and of the
arguments of a method the last at each index. -/
namespace CodeFirst

namespace Registered

def field? : Registered → Option Field
  | .field kept => some kept
  | .argument _ => none
  | .nothing => none

def argument? : Registered → Option Argument
  | .argument kept => some kept
  | .field _ => none
  | .nothing => none

end Registered

theorem filterMap_concat {α β : Type} (select : α → Option β) (items : List α) (item : α) :
    (items ++ [item]).filterMap select = items.filterMap select ++ (select item).toList := by
  rw [List.filterMap_append]
  cases selected : select item with
  | none => rw [List.filterMap_cons_none selected, List.filterMap_nil, Option.toList_none]
  | some kept => rw [List.filterMap_cons_some selected, List.filterMap_nil, Option.toList_some]

/-- A name that comes again keeps its place. -/
theorem eraseDups_concat (names : List String) (name : String) :
    (names ++ [name]).eraseDups =
      if name ∈ names then names.eraseDups else names.eraseDups ++ [name] := by
  rw [List.eraseDups_append]
  split
  · rename_i before
    simp [List.removeAll, before]
  · rename_i fresh
    simp [List.removeAll, fresh, List.eraseDups_cons]

theorem nodup_eraseDups (names : List String) : names.eraseDups.Nodup := by
  induction names using List.reverseRecOn with
  | nil => exact List.nodup_nil
  | append_singleton names name ih =>
      rw [eraseDups_concat]
      split
      · exact ih
      · rename_i fresh
        rw [← List.concat_eq_append, List.nodup_concat, List.mem_eraseDups]
        exact ⟨fresh, ih⟩

namespace Entry

def fieldsOf (done : List Registered) : List Field :=
  done.filterMap Registered.field?

/-- The methods of the arguments that were registered, in the order in which they first came. -/
def methodsOf (done : List Registered) : List String :=
  ((done.filterMap Registered.argument?).map (·.method)).eraseDups

/-- The arguments of a method that were registered, in order. -/
def argumentsOf (method : String) (done : List Registered) : List Argument :=
  (done.filterMap Registered.argument?).filter (·.method = method)

section Registered

variable {done : List Registered} {method : String} {argument : Argument}

theorem mem_argumentsOf :
    argument ∈ argumentsOf method done ↔ .argument argument ∈ done ∧ argument.method = method := by
  simp only [argumentsOf, List.mem_filter, List.mem_filterMap, decide_eq_true_eq]
  refine and_congr_left fun _ => ?_
  constructor
  · intro ⟨registered, member, same⟩
    cases registered with
    | nothing => cases same
    | field field => cases same
    | argument kept =>
        cases same
        exact member
  · intro member
    exact ⟨_, member, rfl⟩

theorem mem_methodsOf : method ∈ methodsOf done ↔ argumentsOf method done ≠ [] := by
  simp only [methodsOf, argumentsOf, List.mem_eraseDups, List.mem_map, ne_eq,
    List.filter_eq_nil_iff, decide_eq_true_eq, not_forall, not_not, exists_prop]

theorem fieldsOf_concat (done : List Registered) (registered : Registered) :
    fieldsOf (done ++ [registered]) = fieldsOf done ++ registered.field?.toList :=
  filterMap_concat Registered.field? done registered

theorem filterMap_argument?_concat {registered : Registered} (other : registered.argument? = none) :
    (done ++ [registered]).filterMap Registered.argument? =
      done.filterMap Registered.argument? := by
  rw [filterMap_concat, other, Option.toList_none, List.append_nil]

theorem argumentsOf_concat (method : String) (done : List Registered) (argument : Argument) :
    argumentsOf method (done ++ [.argument argument]) =
      if argument.method = method then argumentsOf method done ++ [argument]
      else argumentsOf method done := by
  simp only [argumentsOf, List.filterMap_append, List.filter_append]
  by_cases same : argument.method = method
  · simp [Registered.argument?, same]
  · simp [Registered.argument?, same]

theorem methodsOf_concat (done : List Registered) (argument : Argument) :
    methodsOf (done ++ [.argument argument]) =
      if argument.method ∈ methodsOf done then methodsOf done
      else methodsOf done ++ [argument.method] := by
  simp only [methodsOf, List.filterMap_append, List.map_append, List.mem_eraseDups]
  exact eraseDups_concat _ argument.method

end Registered

/-- Slots as they stand after arguments of a method were declared: they end at the largest index, and
each holds the argument that came last at its index. -/
structure Arranged (owner method : String) (declared : List Argument)
    (slots : List (Option Argument)) : Prop where
  length : ∃ largest, (declared.map (·.index)).max? = some largest ∧ slots.length = 1 + largest
  slot : ∀ index, slots[index]?.join = latest declared index
  last : ∃ argument, slots.getLast? = some (some argument)
  placed : ∀ (index : Nat) (argument : Argument), slots[index]? = some (some argument) →
    argument.owner = owner ∧ argument.method = method ∧ argument.index = index

theorem latest_eq_some {declared : List Argument} {index : Nat} {argument : Argument}
    (found : latest declared index = some argument) :
    argument ∈ declared ∧ argument.index = index := by
  have member := List.mem_of_find?_eq_some found
  have same := List.find?_some found
  exact ⟨List.mem_reverse.mp member, of_decide_eq_true same⟩

theorem exists_latest {declared : List Argument} {argument : Argument}
    (member : argument ∈ declared) :
    ∃ found, latest declared argument.index = some found := by
  rw [← Option.isSome_iff_exists, latest, List.find?_isSome]
  exact ⟨argument, List.mem_reverse.mpr member, decide_eq_true rfl⟩

theorem arranged_filled {owner method : String} {declared : List Argument}
    (nonempty : declared ≠ [])
    (placed : ∀ argument ∈ declared, argument.owner = owner ∧ argument.method = method) :
    Arranged owner method declared (filled declared) := by
  obtain ⟨largest, top⟩ : ∃ largest, (declared.map (·.index)).max? = some largest := by
    cases top : (declared.map (·.index)).max? with
    | none => exact absurd (List.map_eq_nil_iff.mp (List.max?_eq_none_iff.mp top)) nonempty
    | some largest => exact ⟨largest, rfl⟩
  have size : (filled declared).length = 1 + largest := by
    rw [length_filled, extent, top]
  constructor
  case length => exact ⟨largest, top, size⟩
  case slot => exact getElem?_filled declared
  case last =>
    obtain ⟨argument, member, rfl⟩ := List.mem_map.mp (List.max?_mem top)
    obtain ⟨found, latest⟩ := exists_latest member
    have inside : argument.index < (filled declared).length := by omega
    have kept := getElem?_filled declared argument.index
    rw [latest, List.getElem?_eq_getElem inside] at kept
    refine ⟨found, ?_⟩
    rw [List.getLast?_eq_getElem?, size, Nat.add_sub_cancel_left,
      List.getElem?_eq_getElem inside]
    exact congrArg some kept
  case placed =>
    intro index argument found
    have kept := getElem?_filled declared index
    rw [found] at kept
    obtain ⟨member, same⟩ := latest_eq_some kept.symm
    exact ⟨(placed argument member).1, (placed argument member).2, same⟩

variable {ρ : Type} {owner : String} {entry changed : Entry ρ} {done : List Registered}

/-- An entry has exactly what was registered under its name. -/
structure Records (owner : String) (entry : Entry ρ) (done : List Registered) : Prop where
  named : entry.name = owner
  fields : entry.fields = fieldsOf done
  methods : Keyed.names entry.arguments = methodsOf done
  slots : ∀ method, argumentsOf method done ≠ [] →
    entry.arguments.lookup method = some (filled (argumentsOf method done))
  owned : ∀ argument, .argument argument ∈ done → argument.owner = owner

theorem records_empty (owner : String) : Records owner (Entry.empty owner : Entry ρ) [] where
  named := rfl
  fields := rfl
  methods := rfl
  slots := by
    intro method declared
    exact absurd rfl declared
  owned := by
    intro argument member
    cases member

namespace Records

theorem lookup_eq_none (records : Records owner entry done) (method : String) :
    entry.arguments.lookup method = none ↔ argumentsOf method done = [] := by
  rw [Keyed.lookup_eq_none, records.methods, mem_methodsOf, not_not]

/-- The argument lists stand in the order in which the methods first came. -/
theorem arguments_eq (records : Records owner entry done) :
    entry.arguments = (methodsOf done).map fun method => (method, entry.slots method) := by
  rw [← records.methods]
  apply Keyed.eq_map_names
  · rw [records.methods]
    exact nodup_eraseDups _
  · intro method slots found
    unfold Entry.slots
    rw [found]
    rfl

theorem slots_eq (records : Records owner entry done) (method : String) :
    entry.slots method = filled (argumentsOf method done) := by
  unfold Entry.slots
  by_cases declared : argumentsOf method done = []
  · rw [(records.lookup_eq_none method).mpr declared, declared]
    rfl
  · rw [records.slots method declared]
    rfl

theorem arranged (records : Records owner entry done) {method : String}
    {slots : List (Option Argument)} (found : entry.arguments.lookup method = some slots) :
    Arranged owner method (argumentsOf method done) slots := by
  have declared : argumentsOf method done ≠ [] := by
    rw [ne_eq, ← records.lookup_eq_none, found]
    exact Option.some_ne_none slots
  rw [records.slots method declared] at found
  cases found
  apply arranged_filled declared
  intro argument member
  obtain ⟨registered, same⟩ := mem_argumentsOf.mp member
  exact ⟨records.owned argument registered, same⟩

/-- What is no argument leaves the argument lists alone. -/
theorem concat (records : Records owner entry done) {registered : Registered}
    (other : registered.argument? = none) (named : changed.name = entry.name)
    (fields : changed.fields = entry.fields ++ registered.field?.toList)
    (arguments : changed.arguments = entry.arguments) :
    Records owner changed (done ++ [registered]) := by
  constructor
  case named => exact named.trans records.named
  case fields => rw [fields, records.fields, fieldsOf_concat]
  case methods =>
    rw [arguments, records.methods, methodsOf, methodsOf, filterMap_argument?_concat other]
  case slots =>
    intro method
    rw [arguments, argumentsOf, filterMap_argument?_concat other]
    exact records.slots method
  case owned =>
    intro argument member
    rcases List.mem_append.mp member with before | last
    · exact records.owned argument before
    · cases List.mem_singleton.mp last
      cases other

theorem addArgument (records : Records owner entry done) {argument : Argument}
    (owned : argument.owner = owner) :
    Records owner (entry.addArgument argument) (done ++ [.argument argument]) := by
  constructor
  case named => exact records.named
  case fields =>
    rw [fieldsOf_concat]
    exact records.fields.trans (List.append_nil _).symm
  case methods =>
    rw [methodsOf_concat, ← records.methods]
    exact Keyed.names_put argument.method _ entry.arguments
  case slots =>
    intro method declared
    rw [argumentsOf_concat] at declared ⊢
    rw [Entry.addArgument, Keyed.lookup_put]
    by_cases same : argument.method = method
    · subst same
      rw [if_pos rfl, if_pos rfl, filled_concat, records.slots_eq]
    · rw [if_neg same] at declared ⊢
      rw [if_neg (Ne.symm same)]
      exact records.slots method declared
  case owned =>
    intro other member
    rcases List.mem_append.mp member with before | last
    · exact records.owned other before
    · cases List.mem_singleton.mp last
      exact owned

end Records

theorem Records.amended (records : Records owner entry done) (amendment : Amendment ρ)
    (owned : ∀ argument, amendment = .argument argument → argument.owner = owner) :
    Records owner (entry.amended amendment) (done ++ [amendment.registered]) := by
  apply amended_cases (fun changed => Records owner changed (done ++ [amendment.registered]))
    amendment
  · intro nothing
    rw [nothing]
    exact records.concat rfl rfl (List.append_nil _).symm rfl
  · intro field same
    subst same
    exact records.concat rfl rfl rfl rfl
  · intro argument same
    subst same
    exact records.addArgument (owned argument rfl)
  · intro isInput same _ _
    subst same
    exact records.concat rfl rfl (List.append_nil _).symm rfl
  · intro resolver same _ _
    subst same
    exact records.concat rfl rfl (List.append_nil _).symm rfl

end Entry

end CodeFirst
