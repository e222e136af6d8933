import CodeFirst.Proofs.Variables.Leaves
import CodeFirst.Proofs.Variables.Tokens

/-! Substitution replaces each token of the document as it stands: by the literal of the first leaf of
its name, or by itself. -/
namespace CodeFirst.Variables

/-- The text that stands in place of a token. -/
inductive Replaces (members : Keyed Json) (name : List Char) : List Char → Prop
  | leaf {leaf : Json} (first : FirstLeaf members (String.ofList name) leaf) :
      Replaces members name leaf.literal.toList
  | kept (absent : ∀ above leaf, ¬ LeafAt members above (String.ofList name) leaf) :
      Replaces members name ('$' :: name)

/-- The result is the document with the text in place of each of its tokens. -/
def Substituted (members : Keyed Json) (document result : String) : Prop :=
  ∃ (cut : Cut) (replace : List Char → List Char), cut.Tokenises document.toList ∧
    (∀ token ∈ cut.tail, Replaces members token.1 (replace token.1)) ∧
    result = String.ofList (cut.render replace)

variable {members : Keyed Json} {given : Json} {name text : List Char} {document result : String}

/-- The text of a token among the leaves that were found. -/
def replacement (found : Keyed Json) (name : List Char) : List Char :=
  Segment.substituted found (.token name)

theorem replaces_iff (ordered : (Json.object members).Ordered) :
    Replaces members name text ↔ text = replacement (leaves members) name := by
  rw [replacement, Segment.substituted]
  cases found : (leaves members).lookup (String.ofList name) with
  | some leaf =>
      constructor
      · rintro (first | absent)
        · have same := (lookup_leaves_eq_some ordered).mpr first
          cases found.symm.trans same
          rfl
        · have none := lookup_leaves_eq_none.mpr absent
          cases found.symm.trans none
      · rintro rfl
        exact .leaf ((lookup_leaves_eq_some ordered).mp found)
  | none =>
      constructor
      · rintro (first | _)
        · have same := (lookup_leaves_eq_some ordered).mpr first
          cases found.symm.trans same
        · rfl
      · rintro rfl
        exact .kept (lookup_leaves_eq_none.mp found)

/-- The cut of a document at its tokens. -/
def cutOf (document : String) : Cut :=
  Cut.ofSegments (segments document.toList)

theorem tokenises_cutOf (document : String) : (cutOf document).Tokenises document.toList :=
  Cut.tokenises_iff.mpr rfl

/-- Without leaves nothing is replaced, so the document need not be read. -/
theorem substitute_object (document : String) (members : Keyed Json) :
    substitute document (.object members) =
      .ok (String.ofList ((cutOf document).render (replacement (leaves members)))) := by
  rw [substitute]
  cases found : leaves members with
  | cons leaf rest =>
      simp only [Cut.flatMap_substituted]
      rfl
  | nil =>
      have kept : (cutOf document).render (replacement []) = document.toList :=
        (tokenises_cutOf document).whole
      rw [kept, String.ofList_toList]

theorem substituted_iff (ordered : (Json.object members).Ordered) :
    Substituted members document result ↔
      result = String.ofList ((cutOf document).render (replacement (leaves members))) := by
  constructor
  · rintro ⟨cut, replace, cuts, replaces, rfl⟩
    obtain rfl := Cut.tokenises_iff.mp cuts
    refine congrArg String.ofList (Cut.render_congr fun token member => ?_)
    exact (replaces_iff ordered).mp (replaces token member)
  · rintro rfl
    exact ⟨cutOf document, replacement (leaves members), tokenises_cutOf document,
      fun _ _ => (replaces_iff ordered).mpr rfl, rfl⟩

theorem substitute_leaf (document : String) (isLeaf : given.IsLeaf) :
    substitute document given = .error (kind given) := by
  cases given with
  | object members => exact absurd rfl (isLeaf members)
  | _ => rfl

/-- A document has one cut at its tokens, and is written again with the literal of the first leaf of
its name in place of each token; only what is no object is refused. -/
theorem substitutes_of_ordered (document : String) (ordered : given.Ordered) :
    (∃! cut : Cut, cut.Tokenises document.toList) ∧
    ((∃ refusal, substitute document given = .error refusal) ↔
      ∀ members, given ≠ .object members) ∧
    ∀ result, substitute document given = .ok result ↔
      ∃ members, given = .object members ∧ Substituted members document result := by
  refine ⟨⟨cutOf document, tokenises_cutOf document, fun cut => Cut.tokenises_iff.mp⟩, ?_⟩
  by_cases isLeaf : given.IsLeaf
  · have refused := substitute_leaf document isLeaf
    refine ⟨⟨fun _ => isLeaf, fun _ => ⟨kind given, refused⟩⟩, fun result => ?_⟩
    constructor
    · intro done
      cases refused.symm.trans done
    · rintro ⟨members, same, _⟩
      exact absurd same (isLeaf members)
  · obtain ⟨members, same⟩ := not_forall_not.mp isLeaf
    subst same
    have done := substitute_object document members
    refine ⟨⟨?_, fun leaf => absurd leaf isLeaf⟩, fun result => ?_⟩
    · rintro ⟨refusal, refused⟩
      cases done.symm.trans refused
    · rw [done, Except.ok.injEq, eq_comm, ← substituted_iff ordered]
      constructor
      · exact fun substituted => ⟨members, rfl, substituted⟩
      · rintro ⟨_, ⟨⟩, substituted⟩
        exact substituted

/-- Variables with one name at two depths, with a name of an object and with a text that holds a
token. -/
def tour : Json :=
  .object [("a", .string "$id"),
    ("b", .object [("a", .null), ("id", .array [.object [("o", .boolean true)]])]),
    ("id", .boolean false), ("o", .object [("x", .null)])]

theorem substitutes_tour : tour.Ordered ∧ ∃ members, tour = .object members ∧
    Substituted members "f(x: $a$$id, y: $ids) $o $x $1"
      "f(x: \"$id\"$[\x7b o: true \x7d], y: $ids) $o null $1" := by
  have ordered : tour.Ordered := by
    simp only [tour, Json.Ordered, Json.OrderedMembers, Json.OrderedItems]
    decide +kernel
  exact ⟨ordered, ((substitutes_of_ordered _ ordered).2.2 _).mp (by decide +kernel)⟩

end CodeFirst.Variables
