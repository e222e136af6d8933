import CodeFirst.Proofs.Json.Ordered
import CodeFirst.Variables

/-! The leaves of variables stand below paths of keys. In members that ascend by key, the leaf that a
look-up finds is the one with the least path. -/
namespace CodeFirst
namespace Json

/-- The value is no object. -/
def IsLeaf (value : Json) : Prop :=
  ∀ members, value ≠ .object members

@[elab_as_elim]
theorem members_induction {motive : Keyed Json → Prop} (members : Keyed Json) (nil : motive [])
    (leaf : ∀ key value rest, value.IsLeaf → motive rest → motive ((key, value) :: rest))
    (object : ∀ key nested rest, motive nested → motive rest →
      motive ((key, .object nested) :: rest)) : motive members :=
  match members with
  | [] => nil
  | (key, .object nested) :: rest =>
    object key nested rest (members_induction nested nil leaf object)
      (members_induction rest nil leaf object)
  | (key, .null) :: rest => leaf key _ rest nofun (members_induction rest nil leaf object)
  | (key, .boolean _) :: rest => leaf key _ rest nofun (members_induction rest nil leaf object)
  | (key, .number _) :: rest => leaf key _ rest nofun (members_induction rest nil leaf object)
  | (key, .string _) :: rest => leaf key _ rest nofun (members_induction rest nil leaf object)
  | (key, .array _) :: rest => leaf key _ rest nofun (members_induction rest nil leaf object)
termination_by sizeOf members

end Json

namespace Variables

/-- Below the objects of a path of keys, a value that is no object stands under a key. -/
inductive LeafAt : Keyed Json → List String → String → Json → Prop
  | here {members : Keyed Json} {key : String} {leaf : Json} (member : (key, leaf) ∈ members)
      (isLeaf : leaf.IsLeaf) : LeafAt members [] key leaf
  | inside {members nested : Keyed Json} {outer key : String} {above : List String} {leaf : Json}
      (member : (outer, .object nested) ∈ members) (below : LeafAt nested above key leaf) :
      LeafAt members (outer :: above) key leaf

/-- The leaf under a key whose path comes before all others. -/
def FirstLeaf (members : Keyed Json) (key : String) (leaf : Json) : Prop :=
  ∃ above, LeafAt members above key leaf ∧
    ∀ other found, LeafAt members other key found → ¬ other ++ [key] < above ++ [key]

variable {members nested rest : Keyed Json} {key name : String} {value leaf : Json}
  {above : List String}

theorem leaves_leaf (isLeaf : value.IsLeaf) :
    leaves ((key, value) :: rest) = (key, value) :: leaves rest := by
  rw [leaves]
  cases value with
  | object nested => exact absurd rfl (isLeaf nested)
  | _ => rw [leavesUnder, List.singleton_append]

theorem leaves_object :
    leaves ((key, .object nested) :: rest) = leaves nested ++ leaves rest := by
  rw [leaves, leavesUnder]

theorem not_leafAt_nil : ¬ LeafAt [] above name leaf := by
  rintro (⟨member, _⟩ | ⟨member, _⟩)
  · cases member
  · cases member

theorem LeafAt.mono {more : Keyed Json} (found : LeafAt members above name leaf)
    (inside : ∀ member ∈ members, member ∈ more) : LeafAt more above name leaf := by
  cases found with
  | here member isLeaf => exact .here (inside _ member) isLeaf
  | inside member below => exact .inside (inside _ member) below

theorem LeafAt.cons (head : String × Json) (found : LeafAt rest above name leaf) :
    LeafAt (head :: rest) above name leaf :=
  found.mono fun _ => List.mem_cons_of_mem _

theorem leafAt_cons {head : String × Json} :
    LeafAt (head :: rest) above name leaf ↔
      LeafAt [head] above name leaf ∨ LeafAt rest above name leaf := by
  constructor
  · intro found
    cases found with
    | here member isLeaf =>
        exact (List.mem_append.mp member).imp (.here · isLeaf) (.here · isLeaf)
    | inside member below =>
        exact (List.mem_append.mp member).imp (.inside · below) (.inside · below)
  · rintro (found | later)
    · exact found.mono (by simp)
    · exact later.cons head

theorem leafAt_leaf (isLeaf : value.IsLeaf) :
    LeafAt ((key, value) :: rest) above name leaf ↔
      (above = [] ∧ name = key ∧ leaf = value) ∨ LeafAt rest above name leaf := by
  refine leafAt_cons.trans (or_congr_left ?_)
  constructor
  · rintro (⟨member, _⟩ | ⟨member, _⟩)
    · cases List.mem_singleton.mp member
      exact ⟨rfl, rfl, rfl⟩
    · cases List.mem_singleton.mp member
      exact absurd rfl (isLeaf _)
  · rintro ⟨rfl, rfl, rfl⟩
    exact .here List.mem_cons_self isLeaf

theorem leafAt_object :
    LeafAt ((key, .object nested) :: rest) above name leaf ↔
      (∃ below, above = key :: below ∧ LeafAt nested below name leaf) ∨
        LeafAt rest above name leaf := by
  refine leafAt_cons.trans (or_congr_left ?_)
  constructor
  · rintro (⟨member, ends⟩ | ⟨member, below⟩)
    · cases List.mem_singleton.mp member
      exact absurd rfl (ends _)
    · cases List.mem_singleton.mp member
      exact ⟨_, rfl, below⟩
  · rintro ⟨below, rfl, found⟩
    exact .inside List.mem_cons_self found

theorem mem_leaves : (name, leaf) ∈ leaves members ↔ ∃ above, LeafAt members above name leaf := by
  induction members using Json.members_induction with
  | nil => simp [leaves, not_leafAt_nil]
  | leaf key value rest isLeaf ih =>
      simp only [leaves_leaf isLeaf, leafAt_leaf isLeaf, List.mem_cons, ih, Prod.mk.injEq,
        exists_or, exists_and_right, exists_eq, true_and]
  | object key nested rest ihNested ih =>
      rw [leaves_object, List.mem_append, ihNested, ih]
      constructor
      · rintro (⟨below, found⟩ | ⟨above, found⟩)
        · exact ⟨key :: below, leafAt_object.mpr (Or.inl ⟨below, rfl, found⟩)⟩
        · exact ⟨above, found.cons _⟩
      · rintro ⟨above, found⟩
        rcases leafAt_object.mp found with ⟨below, _, inside⟩ | later
        · exact Or.inl ⟨below, inside⟩
        · exact Or.inr ⟨above, later⟩

theorem lookup_leaves_eq_none :
    (leaves members).lookup name = none ↔ ∀ above leaf, ¬ LeafAt members above name leaf := by
  rw [Keyed.lookup_eq_none, Keyed.mem_names]
  simp only [mem_leaves, not_exists]
  exact forall_comm

/-- The path of a leaf begins with a key of the members. -/
theorem LeafAt.path (found : LeafAt members above name leaf) :
    ∃ first rest, above ++ [name] = first :: rest ∧ first ∈ Keyed.names members := by
  cases found with
  | here member _ => exact ⟨name, [], rfl, Keyed.mem_names.mpr ⟨leaf, member⟩⟩
  | inside member _ => exact ⟨_, _, rfl, Keyed.mem_names.mpr ⟨_, member⟩⟩

/-- What stands below a lesser key comes first. -/
theorem LeafAt.behind (found : LeafAt rest above name leaf)
    (lesser : ∀ other ∈ Keyed.names rest, key < other) (path : List String) :
    key :: path < above ++ [name] := by
  obtain ⟨first, tail, same, member⟩ := found.path
  rw [same]
  exact List.cons_lt_cons_iff.mpr (Or.inl (lesser first member))

theorem firstLeaf_leaf (isLeaf : value.IsLeaf)
    (lesser : ∀ other ∈ Keyed.names rest, key < other) :
    FirstLeaf ((key, value) :: rest) name leaf ↔
      if name = key then value = leaf else FirstLeaf rest name leaf := by
  by_cases same : name = key
  · subst same
    rw [if_pos rfl]
    constructor
    · rintro ⟨above, found, least⟩
      rcases (leafAt_leaf isLeaf).mp found with ⟨_, _, rfl⟩ | later
      · rfl
      · exact absurd (later.behind lesser []) (least [] value (.here List.mem_cons_self isLeaf))
    · rintro rfl
      refine ⟨[], .here List.mem_cons_self isLeaf, fun other found stands => ?_⟩
      rcases (leafAt_leaf isLeaf).mp stands with ⟨rfl, _, _⟩ | later
      · exact List.lt_irrefl _
      · exact List.lt_asymm (later.behind lesser [])
  · rw [if_neg same]
    have others : ∀ above found, LeafAt ((key, value) :: rest) above name found ↔
        LeafAt rest above name found := by
      intro above found
      rw [leafAt_leaf isLeaf, or_iff_right fun head => same head.2.1]
    simp only [FirstLeaf, others]

theorem firstLeaf_object (lesser : ∀ other ∈ Keyed.names rest, key < other) :
    FirstLeaf ((key, .object nested) :: rest) name leaf ↔
      FirstLeaf nested name leaf ∨
        (∀ above found, ¬ LeafAt nested above name found) ∧ FirstLeaf rest name leaf := by
  constructor
  · rintro ⟨above, found, least⟩
    rcases leafAt_object.mp found with ⟨below, rfl, inside⟩ | later
    · refine Or.inl ⟨below, inside, fun other leaf stands before => ?_⟩
      refine least (key :: other) leaf (.inside List.mem_cons_self stands) ?_
      exact List.cons_lt_cons_iff.mpr (Or.inr ⟨rfl, before⟩)
    · refine Or.inr ⟨fun other leaf stands => ?_, above, later, fun other leaf stands => ?_⟩
      · exact least (key :: other) leaf (.inside List.mem_cons_self stands)
          (later.behind lesser _)
      · exact least other leaf (stands.cons _)
  · rintro (⟨below, inside, least⟩ | ⟨none, above, later, least⟩)
    · refine ⟨key :: below, .inside List.mem_cons_self inside, fun other leaf stands => ?_⟩
      rcases leafAt_object.mp stands with ⟨below', rfl, within⟩ | behind
      · intro before
        rcases List.cons_lt_cons_iff.mp before with smaller | ⟨_, before⟩
        · exact String.lt_irrefl _ smaller
        · exact least below' leaf within before
      · exact List.lt_asymm (behind.behind lesser _)
    · refine ⟨above, later.cons _, fun other leaf stands => ?_⟩
      rcases leafAt_object.mp stands with ⟨below, _, within⟩ | behind
      · exact absurd within (none below leaf)
      · exact least other leaf behind

/-- A look-up finds the first leaf of a key, if there is one. -/
theorem lookup_leaves_eq_some (ordered : (Json.object members).Ordered) :
    (leaves members).lookup name = some leaf ↔ FirstLeaf members name leaf := by
  induction members using Json.members_induction with
  | nil =>
      refine ⟨nofun, fun ⟨_, found, _⟩ => absurd found not_leafAt_nil⟩
  | leaf key value rest isLeaf ih =>
      obtain ⟨lesser, _, others⟩ := Json.ordered_cons.mp ordered
      rw [leaves_leaf isLeaf, Keyed.lookup_cons_eq, firstLeaf_leaf isLeaf lesser, ← ih others]
      split
      · exact Option.some_inj
      · rfl
  | object key nested rest ihNested ih =>
      obtain ⟨lesser, within, others⟩ := Json.ordered_cons.mp ordered
      rw [leaves_object, List.lookup_append, Option.or_eq_some_iff, firstLeaf_object lesser,
        ihNested within, ih others, lookup_leaves_eq_none]

end Variables
end CodeFirst
