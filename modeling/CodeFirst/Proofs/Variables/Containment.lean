import CodeFirst.Proofs.Json.Literal
import CodeFirst.Proofs.Variables.Leaves

/-! What substitution inserts into a document. A leaf whose keys are names stands there as one constant
and leaves the rest of the document as it is; the keys of other leaves are read as syntax. -/
namespace CodeFirst.Variables

open Lexeme Document

variable {members : Keyed Json} {name : String} {leaf : Json}

theorem ordered_of_mem_leaves (member : (name, leaf) ∈ leaves members)
    (ordered : (Json.object members).Ordered) : leaf.Ordered := by
  induction members using Json.members_induction with
  | nil => cases member
  | leaf key value rest isLeaf ih =>
      obtain ⟨_, fits, others⟩ := Json.ordered_cons.mp ordered
      rw [leaves_leaf isLeaf] at member
      rcases List.mem_cons.mp member with same | later
      · cases same
        exact fits
      · exact ih later others
  | object key nested rest ihNested ih =>
      obtain ⟨_, within, others⟩ := Json.ordered_cons.mp ordered
      rw [leaves_object] at member
      rcases List.mem_append.mp member with inside | later
      · exact ihNested inside within
      · exact ih later others

/-- The text of a leaf is that of a constant, and of no more. -/
structure Contained (leaf : Json) (constant : Literal) : Prop where
  mirrors : Json.Mirrors leaf constant
  whole : ∀ flag, Finds (Literal.read? flag leaf.literal.toList) constant []
  /-- It may stand behind what means nothing, and before all that no token goes on with. -/
  standing : ∀ flag text rest, skip text = leaf.literal.toList ++ rest → Apart rest →
    Finds (Literal.read? flag text) constant rest
  /-- As an argument it neither ends the list nor adds to it. -/
  last : ∀ key text value behind rest, IsName key → skip text = key ++ ':' :: value →
    skip value = leaf.literal.toList ++ behind → Apart behind → skip behind = ')' :: rest →
    Finds (readArgumentList? text) [(String.ofList key, constant)] rest
  before : ∀ key text value behind arguments rest, IsName key → skip text = key ++ ':' :: value →
    skip value = leaf.literal.toList ++ behind → Apart behind → mark? ')' behind = none →
    Finds (readArgumentList? behind) arguments rest →
    Finds (readArgumentList? text) ((String.ofList key, constant) :: arguments) rest

theorem exists_contained (ordered : leaf.Ordered) (named : leaf.NamedKeys) :
    ∃ constant, Contained leaf constant := by
  obtain ⟨constant, mirrors, standing⟩ := Json.finds_literal leaf ordered named
  refine ⟨constant, ?_⟩
  constructor
  case mirrors => exact mirrors
  case whole =>
    intro flag
    have skipped := leaf.skip_literal []
    rw [List.append_nil] at skipped
    exact standing flag leaf.literal.toList [] (by rw [skipped, List.append_nil]) nofun
  case standing => exact standing
  case last =>
    intro key text value behind rest isName here stands apart ends
    exact finds_readArgumentList?_last isName here (standing false value behind stands apart) ends
  case before =>
    intro key text value behind arguments rest isName here stands apart noEnd others
    exact finds_readArgumentList?_cons isName here (standing false value behind stands apart)
      noEnd others

theorem Contained.namedKeys {constant : Literal} (contained : Contained leaf constant) :
    leaf.NamedKeys := by
  obtain ⟨_, read⟩ := contained.whole true
  have named := Literal.named_read? read
  exact contained.mirrors.namedKeys named

/-- A leaf that is inserted is contained exactly if its keys are names. -/
theorem contained_iff (ordered : (Json.object members).Ordered)
    (inserted : (leaves members).lookup name = some leaf) :
    (∃ constant, Contained leaf constant) ↔ leaf.NamedKeys := by
  have fits := ordered_of_mem_leaves (Keyed.mem_of_lookup inserted) ordered
  exact ⟨fun ⟨_, contained⟩ => contained.namedKeys, exists_contained fits⟩

/-- A list with an object, an empty list and null in it. -/
def wares : Json :=
  .array [.object [("count", .number (.integer (-2) (by decide))), ("label", .string "]\x7d)\"\n#")],
    .array [], .null]

theorem contained_wares : (Json.object [("note", .null), ("wares", wares)]).Ordered ∧
    (leaves [("note", .null), ("wares", wares)]).lookup "wares" = some wares ∧
    ∃ constant, Contained wares constant := by
  have ordered : (Json.object [("note", .null), ("wares", wares)]).Ordered := by
    simp only [wares, Json.Ordered, Json.OrderedMembers, Json.OrderedItems]
    decide +kernel
  have named : wares.NamedKeys := by
    simp only [wares, Json.NamedKeys, Json.NamedItems, Json.NamedMembers]
    decide +kernel
  have inserted : (leaves [("note", .null), ("wares", wares)]).lookup "wares" = some wares := rfl
  exact ⟨ordered, inserted, (contained_iff ordered inserted).mpr named⟩

theorem fitsWord_zero : FitsWord 0 := by
  decide

/-- A key that closes its object and its list, and has text of its own behind them. -/
def forged : Json :=
  .array [.object [("k: 0\x7d], b: 7 #", .number (.integer 0 fitsWord_zero))]]

/-- What stands before the text of that key. -/
def remnant : Literal :=
  .list [.object [("k", .number (.integer 0 fitsWord_zero))]]

theorem finds_remnant {flag : Bool} {text rest : List Char}
    (here : skip text = "[\x7b k: 0\x7d]".toList ++ rest) :
    Finds (Literal.read? flag text) remnant rest := by
  have field : Finds (Literal.read? flag (" 0\x7d]".toList ++ rest))
      (.number (.integer 0 fitsWord_zero)) ("\x7d]".toList ++ rest) := by
    refine Json.finds_integer ?_ ?_
    · exact (skip_ignored rfl).trans (skip_cons rfl (by decide))
    · rintro c ⟨⟩
      decide
  have fields : Finds (Literal.readFields? flag (" k: 0\x7d]".toList ++ rest))
      [("k", .number (.integer 0 fitsWord_zero))] (']' :: rest) := by
    refine @Literal.finds_readFields?_cons _ _ _ _ ['k'] _ _ _ (by decide) ?_ field ?_
    · exact (skip_ignored rfl).trans (skip_cons rfl (by decide))
    · exact Literal.finds_readFields?_nil (skip_cons rfl (by decide))
  have object := Literal.finds_read?_object (skip_cons rfl (by decide)) fields
  have items := Literal.finds_readItems?_cons (skip_cons rfl (by decide)) (by decide) object
    (Literal.finds_readItems?_nil (skip_cons rfl (by decide)))
  exact Literal.finds_read?_list here items

/-- The text that a key leaves behind is one more argument to the reader of arguments. -/
theorem forged_argument : (Json.object [("x", forged)]).Ordered ∧
    (leaves [("x", forged)]).lookup "x" = some forged ∧
    Finds (Literal.read? true forged.literal.toList) remnant ", b: 7 #: 0 \x7d]".toList ∧
    (∀ constant, ¬ Finds (Literal.read? true forged.literal.toList) constant []) ∧
    Finds (readArgumentList? ("a: ".toList ++ forged.literal.toList ++ "\n)".toList))
      [("a", remnant), ("b", .number (.integer 7 (by decide)))] [] := by
  have ordered : (Json.object [("x", forged)]).Ordered := by
    simp only [forged, Json.Ordered, Json.OrderedMembers, Json.OrderedItems]
    decide +kernel
  have left : Finds (Literal.read? true forged.literal.toList) remnant
      ", b: 7 #: 0 \x7d]".toList := finds_remnant (by decide +kernel)
  refine ⟨ordered, rfl, left, ?_, ?_⟩
  · rintro constant ⟨_, whole⟩
    obtain ⟨_, read⟩ := left
    cases whole.symm.trans read
  have first : Finds (Literal.read? false (" ".toList ++ forged.literal.toList ++ "\n)".toList))
      remnant ", b: 7 #: 0 \x7d]\n)".toList := finds_remnant (by decide +kernel)
  -- What is left of the literal behind `7` is a comment, up to the end of the line.
  have second : Finds (Literal.read? false " 7 #: 0 \x7d]\n)".toList)
      (.number (.integer 7 (by decide))) " #: 0 \x7d]\n)".toList :=
    Json.finds_integer (by decide +kernel) (by rintro c ⟨⟩; decide)
  refine @finds_readArgumentList?_cons _ _ _ ['a'] _ _ _ (by decide) (by decide +kernel) first ?_ ?_
  · exact @mark?_eq_none _ ": 7 #: 0 \x7d]\n)".toList 'b' _ (by decide +kernel) (by decide)
  · exact @finds_readArgumentList?_last _ _ _ ['b'] _ _ (by decide) (by decide +kernel) second
      (by decide +kernel)

end CodeFirst.Variables
