import CodeFirst.Json
import CodeFirst.Proofs.Keyed

/-! Objects whose keys ascend. They stay as they are when they are put together again. -/
namespace CodeFirst.Json

variable {key name : String} {value : Json} {members rest : Keyed Json}

theorem ordered_cons :
    (object ((key, value) :: rest)).Ordered ↔
      (∀ other ∈ Keyed.names rest, key < other) ∧ value.Ordered ∧ (object rest).Ordered := by
  simp only [Ordered, OrderedMembers, List.map_cons, List.pairwise_cons]
  constructor
  · rintro ⟨⟨below, ascend⟩, ordered, others⟩
    exact ⟨below, ordered, ascend, others⟩
  · rintro ⟨below, ordered, ascend, others⟩
    exact ⟨⟨below, ascend⟩, ordered, others⟩

/-- A member whose key comes last is put last. -/
theorem insertMember_of_behind (behind : ∀ other ∈ Keyed.names members, other < key) :
    insertMember key value members = members ++ [(key, value)] := by
  induction members with
  | nil => rfl
  | cons head rest ih =>
      obtain ⟨other, old⟩ := head
      obtain ⟨less, later⟩ := List.forall_mem_cons.mp behind
      rw [insertMember, if_neg (String.lt_asymm less), if_pos less, ih later]
      rfl

/-- Members whose keys ascend make an object as they stand. -/
theorem ofMembers_of_ascending (ascending : (Keyed.names members).Pairwise (· < ·)) :
    ofMembers members = .object members := by
  have run : ∀ kept : Keyed Json, (Keyed.names (kept ++ members)).Pairwise (· < ·) →
      members.foldl (fun kept member => insertMember member.1 member.2 kept) kept =
        kept ++ members := by
    clear ascending
    induction members with
    | nil => exact fun kept _ => (List.append_nil kept).symm
    | cons head rest ih =>
        intro kept ascending
        have behind : ∀ other ∈ Keyed.names kept, other < head.1 := by
          rw [Keyed.names, List.map_append, List.pairwise_append] at ascending
          exact fun other member => ascending.2.2 other member head.1 List.mem_cons_self
        rw [List.foldl_cons, insertMember_of_behind behind, ih, List.append_assoc]
        · rfl
        · rwa [List.append_assoc]
  exact congrArg object (run [] ascending)

end CodeFirst.Json
