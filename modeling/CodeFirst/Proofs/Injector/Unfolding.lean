import CodeFirst.Proofs.Injector.Construction
import Mathlib.Data.List.Nodup

/-! The unfolding of a service: all that it is built from, each part as often as it is needed. Its
postorder is the order of a construction that shares nothing, and the positions in it are the paths
along needs. -/
namespace CodeFirst.Injector

/-- Where a path along needs ends that takes one need of each service, by its place. -/
def follow (design : Design) (service : String) : List Nat → Option String
  | [] => some service
  | place :: rest => do
    let blueprint ← design service
    let need ← blueprint.needs[place]?
    follow design need rest

theorem follow_cons {design : Design} {service : String} {blueprint : Blueprint} {place : Nat}
    {rest : List Nat} (planned : design service = some blueprint) :
    follow design service (place :: rest) =
      blueprint.needs[place]?.bind fun need => follow design need rest := by
  rw [follow, planned]
  rfl

inductive Unfolding where
  | node (service : String) (parts : List Unfolding)

namespace Unfolding

def service : Unfolding → String
  | .node service _ => service

mutual

/-- Parts before what is built from them, from the first to the last. -/
def postorder : Unfolding → List String
  | .node service parts => postorders parts ++ [service]

def postorders : List Unfolding → List String
  | [] => []
  | part :: rest => postorder part ++ postorders rest

end

mutual

/-- The parts of each service are those that it needs, in order. -/
def Unfolds (design : Design) : Unfolding → Prop
  | .node service parts =>
    (∃ blueprint, design service = some blueprint ∧
      parts.map (·.service) = blueprint.needs) ∧ AllUnfold design parts

def AllUnfold (design : Design) : List Unfolding → Prop
  | [] => True
  | part :: rest => Unfolds design part ∧ AllUnfold design rest

end

mutual

/-- The positions of a service: the way to a part is by its place among the parts. -/
def positions (other : String) : Unfolding → List (List Nat)
  | .node service parts =>
    (if service = other then [[]] else []) ++ positionsFrom other 0 parts

def positionsFrom (other : String) (place : Nat) : List Unfolding → List (List Nat)
  | [] => []
  | part :: rest =>
    (positions other part).map (place :: ·) ++ positionsFrom other (place + 1) rest

end

mutual

theorem length_positions (other : String) :
    (tree : Unfolding) → (tree.positions other).length = tree.postorder.count other
  | .node service parts => by
      rw [positions, postorder, List.length_append, List.count_append,
        length_positionsFrom other 0 parts, Nat.add_comm]
      by_cases same : service = other
      · simp [same]
      · simp [same]

theorem length_positionsFrom (other : String) (place : Nat) :
    (parts : List Unfolding) →
      (positionsFrom other place parts).length = (postorders parts).count other
  | [] => rfl
  | part :: rest => by
      rw [positionsFrom, postorders, List.length_append, List.length_map, List.count_append,
        length_positions other part, length_positionsFrom other (place + 1) rest]

end

theorem mem_positionsFrom {other : String} {place : Nat} {parts : List Unfolding}
    {path : List Nat} :
    path ∈ positionsFrom other place parts ↔
      ∃ index part rest, parts[index]? = some part ∧ path = (place + index) :: rest ∧
        rest ∈ part.positions other := by
  induction parts generalizing place with
  | nil => simp [positionsFrom]
  | cons part rest ih =>
      simp only [positionsFrom, List.mem_append, List.mem_map, ih]
      constructor
      · rintro (⟨inner, member, rfl⟩ | ⟨index, found, inner, among, rfl, member⟩)
        · exact ⟨0, part, inner, rfl, rfl, member⟩
        · exact ⟨index + 1, found, inner, among, by rw [Nat.add_assoc, Nat.add_comm 1], member⟩
      · rintro ⟨index, found, inner, among, rfl, member⟩
        cases index with
        | zero =>
            cases among
            exact Or.inl ⟨inner, member, rfl⟩
        | succ index =>
            refine Or.inr ⟨index, found, inner, among, ?_, member⟩
            rw [Nat.add_assoc, Nat.add_comm 1]

mutual

theorem nodup_positions (other : String) : (tree : Unfolding) → (tree.positions other).Nodup
  | .node service parts => by
      rw [positions]
      refine List.nodup_append'.mpr ⟨?_, nodup_positionsFrom other 0 parts, ?_⟩
      · split
        · exact List.nodup_singleton _
        · exact List.nodup_nil
      · intro path here below
        obtain ⟨index, _, _, _, rfl, _⟩ := mem_positionsFrom.mp below
        split at here
        · cases List.mem_singleton.mp here
        · cases here

theorem nodup_positionsFrom (other : String) (place : Nat) :
    (parts : List Unfolding) → (positionsFrom other place parts).Nodup
  | [] => List.nodup_nil
  | part :: rest => by
      rw [positionsFrom]
      refine List.nodup_append'.mpr ⟨(nodup_positions other part).map List.cons_injective,
        nodup_positionsFrom other (place + 1) rest, ?_⟩
      intro path here behind
      obtain ⟨inner, _, rfl⟩ := List.mem_map.mp here
      obtain ⟨index, _, _, _, same, _⟩ := mem_positionsFrom.mp behind
      have := (List.cons.inj same).1
      omega

end

theorem allUnfold_iff {design : Design} {parts : List Unfolding} :
    AllUnfold design parts ↔ ∀ part ∈ parts, part.Unfolds design := by
  induction parts with
  | nil => simp [AllUnfold]
  | cons part rest ih => simp [AllUnfold, ih]

/-- The positions of a service in an unfolding are the paths that end at it. -/
theorem mem_positions {design : Design} {other : String} {tree : Unfolding} {path : List Nat}
    (unfolds : tree.Unfolds design) :
    path ∈ tree.positions other ↔ follow design tree.service path = some other := by
  induction path generalizing tree with
  | nil =>
      obtain ⟨service, parts⟩ := tree
      have outside : [] ∉ positionsFrom other 0 parts := by
        intro member
        obtain ⟨_, _, _, _, same, _⟩ := mem_positionsFrom.mp member
        cases same
      rw [positions, List.mem_append, or_iff_left outside, follow, Unfolding.service,
        Option.some.injEq]
      split
      · simpa using ‹service = other›
      · simpa using ‹service ≠ other›
  | cons place rest ih =>
      obtain ⟨service, parts⟩ := tree
      obtain ⟨⟨blueprint, planned, needs⟩, below⟩ := unfolds
      have front : place :: rest ∉ (if service = other then [[]] else []) := by
        split
        · simp
        · exact List.not_mem_nil
      rw [positions, List.mem_append, or_iff_right front, mem_positionsFrom, Unfolding.service,
        follow_cons planned, ← needs, List.getElem?_map]
      constructor
      · rintro ⟨index, part, inner, found, same, member⟩
        cases same
        rw [Nat.zero_add, found]
        exact (ih (allUnfold_iff.mp below part (List.mem_of_getElem? found))).mp member
      · intro follows
        cases found : parts[place]? with
        | none =>
            rw [found] at follows
            cases follows
        | some part =>
            rw [found] at follows
            have member := (ih (allUnfold_iff.mp below part (List.mem_of_getElem? found))).mpr follows
            exact ⟨place, part, rest, found, by rw [Nat.zero_add], member⟩

end Unfolding

end CodeFirst.Injector
