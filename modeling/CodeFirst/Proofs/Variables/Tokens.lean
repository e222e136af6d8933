import CodeFirst.Variables

/-! A document is cut at its tokens in one way: each is as long as it can be, and no token is left in
the text between them. The pieces of a document are this cut, read from left to right. -/
namespace CodeFirst.Variables

/-- A letter or an underscore, and behind it letters, underscores and digits. -/
def IsName : List Char → Prop
  | [] => False
  | first :: rest => isNameStart first = true ∧ ∀ c ∈ rest, isNameRest c = true

instance : DecidablePred IsName
  | [] => inferInstanceAs (Decidable False)
  | first :: rest => decidable_of_iff (isNameStart first && rest.all isNameRest) (by simp [IsName])

/-- Somewhere in the text a `$` stands before a name. -/
def HasToken (text : List Char) : Prop :=
  ∃ before name behind, text = before ++ '$' :: (name ++ behind) ∧ IsName name

/-- A `$` before this text begins a token. -/
def StartsName (text : List Char) : Prop :=
  ∃ next ∈ text.head?, isNameStart next = true

/-- A name does not go on with this text. -/
def EndsName (text : List Char) : Prop :=
  ∀ c ∈ text.head?, isNameRest c = false

/-- The text before the first token, and each token with the text behind it. -/
structure Cut where
  head : List Char
  tail : List (List Char × List Char)
deriving DecidableEq

namespace Cut

/-- The text with something in place of each token. -/
def render (cut : Cut) (replace : List Char → List Char) : List Char :=
  cut.head ++ cut.tail.flatMap fun token => replace token.1 ++ token.2

/-- The tokens of the cut are those of the document, from left to right, each as long as it
can be. -/
structure Tokenises (cut : Cut) (document : List Char) : Prop where
  whole : cut.render ('$' :: ·) = document
  names : ∀ token ∈ cut.tail, IsName token.1
  maximal : ∀ token ∈ cut.tail, EndsName token.2
  headPlain : ¬ HasToken cut.head
  tailPlain : ∀ token ∈ cut.tail, ¬ HasToken token.2

/-- The cut with one more character of text in front. -/
def push (c : Char) (cut : Cut) : Cut :=
  { cut with head := c :: cut.head }

/-- The cut with one more token in front. -/
def begin (name : List Char) (cut : Cut) : Cut :=
  ⟨[], (name, cut.head) :: cut.tail⟩

def ofSegments : List Segment → Cut
  | [] => ⟨[], []⟩
  | .text c :: rest => (ofSegments rest).push c
  | .token name :: rest => (ofSegments rest).begin name

variable {replace : List Char → List Char}

theorem shape (cut : Cut) :
    cut = ⟨[], []⟩ ∨ (∃ c rest, cut = push c rest) ∨ ∃ name rest, cut = begin name rest := by
  obtain ⟨head, tail⟩ := cut
  cases head with
  | cons c head => exact Or.inr (Or.inl ⟨c, ⟨head, tail⟩, rfl⟩)
  | nil =>
      cases tail with
      | nil => exact Or.inl rfl
      | cons token more => exact Or.inr (Or.inr ⟨token.1, ⟨token.2, more⟩, rfl⟩)

@[simp] theorem render_push (c : Char) (cut : Cut) :
    (cut.push c).render replace = c :: cut.render replace := rfl

@[simp] theorem render_begin (name : List Char) (cut : Cut) :
    (cut.begin name).render replace = replace name ++ cut.render replace := by
  simp only [begin, render, List.flatMap_cons, List.nil_append, List.append_assoc]

theorem render_congr {other : List Char → List Char} {cut : Cut}
    (same : ∀ token ∈ cut.tail, replace token.1 = other token.1) :
    cut.render replace = cut.render other := by
  have texts : cut.tail.map (fun token => replace token.1 ++ token.2) =
      cut.tail.map fun token => other token.1 ++ token.2 :=
    List.map_congr_left fun token member => by rw [same token member]
  rw [render, render, List.flatMap_def, List.flatMap_def, texts]

/-- Pieces are substituted by writing their cut with the texts of its tokens. -/
theorem flatMap_substituted (found : List (String × Json)) (pieces : List Segment) :
    pieces.flatMap (Segment.substituted found) =
      (ofSegments pieces).render fun name => Segment.substituted found (.token name) := by
  induction pieces with
  | nil => rfl
  | cons piece rest ih =>
      rw [List.flatMap_cons, ih]
      cases piece with
      | text c => rfl
      | token name => rw [ofSegments, render_begin]

end Cut

theorem hasToken_cons {c : Char} {text : List Char} :
    HasToken (c :: text) ↔ (c = '$' ∧ StartsName text) ∨ HasToken text := by
  constructor
  · rintro ⟨before, name, behind, same, isName⟩
    cases before with
    | nil =>
        cases name with
        | nil => exact isName.elim
        | cons first rest =>
            cases same
            exact Or.inl ⟨rfl, first, rfl, isName.1⟩
    | cons other before =>
        cases same
        exact Or.inr ⟨before, name, behind, rfl, isName⟩
  · rintro (⟨rfl, next, first, start⟩ | ⟨before, name, behind, rfl, isName⟩)
    · obtain ⟨rest, rfl⟩ := List.head?_eq_some_iff.mp first
      exact ⟨[], [next], rest, rfl, start, by simp⟩
    · exact ⟨c :: before, name, behind, rfl, isName⟩

theorem not_hasToken_nil : ¬ HasToken [] := by
  rintro ⟨before, name, behind, same, _⟩
  cases before <;> cases same

namespace Cut

variable {cut : Cut} {c : Char} {name document behind : List Char}

theorem tokenises_nil : cut.Tokenises [] ↔ cut = ⟨[], []⟩ := by
  constructor
  · intro cuts
    have whole := cuts.whole
    rcases cut.shape with rfl | ⟨c, rest, rfl⟩ | ⟨name, rest, rfl⟩
    · rfl
    · cases whole
    · rw [render_begin] at whole
      cases whole
  · rintro rfl
    exact ⟨rfl, by simp, by simp, not_hasToken_nil, by simp⟩

theorem tokenises_push :
    (cut.push c).Tokenises (c :: document) ↔
      cut.Tokenises document ∧ ¬ (c = '$' ∧ StartsName cut.head) := by
  constructor
  · intro cuts
    have plain := mt hasToken_cons.mpr cuts.headPlain
    rw [not_or] at plain
    exact ⟨⟨List.tail_eq_of_cons_eq cuts.whole, cuts.names, cuts.maximal, plain.2,
      cuts.tailPlain⟩, plain.1⟩
  · rintro ⟨cuts, text⟩
    refine ⟨congrArg (c :: ·) cuts.whole, cuts.names, cuts.maximal, ?_, cuts.tailPlain⟩
    exact mt hasToken_cons.mp (not_or.mpr ⟨text, cuts.headPlain⟩)

theorem tokenises_begin :
    (cut.begin name).Tokenises ('$' :: (name ++ document)) ↔
      IsName name ∧ EndsName cut.head ∧ cut.Tokenises document := by
  constructor
  · intro cuts
    obtain ⟨isName, names⟩ := List.forall_mem_cons.mp cuts.names
    obtain ⟨ends, maximal⟩ := List.forall_mem_cons.mp cuts.maximal
    obtain ⟨headPlain, tailPlain⟩ := List.forall_mem_cons.mp cuts.tailPlain
    have whole := cuts.whole
    rw [render_begin] at whole
    refine ⟨isName, ends, ?_, names, maximal, headPlain, tailPlain⟩
    exact List.append_cancel_left (List.tail_eq_of_cons_eq whole)
  · rintro ⟨isName, ends, cuts⟩
    refine ⟨?_, ?_, ?_, not_hasToken_nil, ?_⟩
    · rw [render_begin, cuts.whole]
      rfl
    · exact List.forall_mem_cons.mpr ⟨isName, cuts.names⟩
    · exact List.forall_mem_cons.mpr ⟨ends, cuts.maximal⟩
    · exact List.forall_mem_cons.mpr ⟨cuts.headPlain, cuts.tailPlain⟩

/-- A cut begins with its first character of text, or with a `$`, or is empty. -/
theorem head?_render (cut : Cut) :
    (cut.render ('$' :: ·)).head? = cut.head.head? ∨
      cut.head = [] ∧ (cut.render ('$' :: ·)).head? = some '$' := by
  rcases cut.shape with rfl | ⟨c, rest, rfl⟩ | ⟨name, rest, rfl⟩
  · exact Or.inl rfl
  · exact Or.inl rfl
  · exact Or.inr ⟨rfl, by rw [render_begin]; rfl⟩

theorem Tokenises.head?_mem {next : Char} (cuts : cut.Tokenises document)
    (first : next ∈ cut.head.head?) : next ∈ document.head? := by
  rw [← cuts.whole]
  rcases cut.head?_render with same | ⟨empty, _⟩
  · exact same ▸ first
  · rw [empty] at first
    cases first

theorem Tokenises.endsName (cuts : cut.Tokenises document) :
    EndsName document ↔ EndsName cut.head := by
  constructor
  · intro ends c first
    exact ends c (cuts.head?_mem first)
  · intro ends c first
    rw [← cuts.whole] at first
    rcases cut.head?_render with same | ⟨_, sign⟩
    · exact ends c (same ▸ first)
    · cases first.symm.trans sign
      rfl

end Cut

theorem IsName.start {name : List Char} (isName : IsName name) :
    ∃ first rest, name = first :: rest ∧ isNameStart first = true := by
  cases name with
  | nil => exact isName.elim
  | cons first rest => exact ⟨first, rest, rfl, isName.1⟩

/-- What goes on as long as a test holds is read back from any text that it does not go on with. -/
theorem takeWhile_append_of_ends {p : Char → Bool} {run behind : List Char}
    (all : ∀ c ∈ run, p c = true) (ends : ∀ c ∈ behind.head?, p c = false) :
    (run ++ behind).takeWhile p = run := by
  have none : behind.takeWhile p = [] := by
    cases behind with
    | nil => rfl
    | cons c behind => exact List.takeWhile_cons_of_neg (by simp [ends c rfl])
  rw [List.takeWhile_append_of_pos all, none, List.append_nil]

theorem dropWhile_append_of_ends {p : Char → Bool} {run behind : List Char}
    (all : ∀ c ∈ run, p c = true) (ends : ∀ c ∈ behind.head?, p c = false) :
    (run ++ behind).dropWhile p = behind := by
  apply @List.append_cancel_left _ run
  calc run ++ (run ++ behind).dropWhile p
      = (run ++ behind).takeWhile p ++ (run ++ behind).dropWhile p := by
        rw [takeWhile_append_of_ends all ends]
    _ = run ++ behind := List.takeWhile_append_dropWhile

theorem IsName.all {name : List Char} (isName : IsName name) : ∀ c ∈ name, isNameRest c = true := by
  obtain ⟨first, rest, rfl, start⟩ := isName.start
  refine List.forall_mem_cons.mpr ⟨?_, isName.2⟩
  rw [isNameRest, start, Bool.true_or]

/-- A name is read back from any text that it does not go on with. -/
theorem IsName.takeWhile_append {name behind : List Char} (isName : IsName name)
    (ends : EndsName behind) :
    (name ++ behind).takeWhile isNameRest = name :=
  takeWhile_append_of_ends isName.all ends

namespace Cut

variable {cut : Cut} {c : Char} {name document behind : List Char}

/-- Where no token begins, a cut goes on with a character of text. -/
theorem tokenises_text (plain : ¬ (c = '$' ∧ StartsName document)) :
    cut.Tokenises (c :: document) ↔ ∃ rest : Cut, cut = rest.push c ∧ rest.Tokenises document := by
  constructor
  · intro cuts
    have whole := cuts.whole
    rcases cut.shape with rfl | ⟨other, rest, rfl⟩ | ⟨name, rest, rfl⟩
    · cases whole
    · cases whole
      exact ⟨rest, rfl, (tokenises_push.mp cuts).1⟩
    · rw [render_begin] at whole
      cases whole
      have isName := (tokenises_begin.mp cuts).1
      cases name with
      | nil => exact isName.elim
      | cons first name => exact absurd ⟨rfl, first, rfl, isName.1⟩ plain
  · rintro ⟨rest, rfl, cuts⟩
    refine tokenises_push.mpr ⟨cuts, fun ⟨sign, next, first, start⟩ => ?_⟩
    exact plain ⟨sign, next, cuts.head?_mem first, start⟩

/-- Where a token begins, a cut goes on with the longest one. -/
theorem tokenises_token (isName : IsName name) (ends : EndsName behind) :
    cut.Tokenises ('$' :: (name ++ behind)) ↔
      ∃ rest : Cut, cut = rest.begin name ∧ rest.Tokenises behind := by
  constructor
  · intro cuts
    have whole := cuts.whole
    rcases cut.shape with rfl | ⟨other, rest, rfl⟩ | ⟨found, rest, rfl⟩
    · cases whole
    · -- A `$` before a name is no text, so the cut cannot go on with it.
      rw [render_push] at whole
      obtain ⟨rfl, same⟩ := List.cons.inj whole
      have plain := (tokenises_push.mp cuts).2
      obtain ⟨first, name, rfl, start⟩ := isName.start
      rcases rest.head?_render with shown | ⟨_, sign⟩
      · rw [same] at shown
        exact absurd ⟨rfl, first, shown.symm, start⟩ plain
      · rw [same] at sign
        cases sign
        cases start
    · -- Neither name goes on with what is behind it, so both end at the same place.
      have same : found ++ rest.render ('$' :: ·) = name ++ behind := by
        rw [render_begin] at whole
        exact List.tail_eq_of_cons_eq whole
      rw [← same] at cuts
      obtain ⟨isFound, endsFound, tokenised⟩ := tokenises_begin.mp cuts
      have read := congrArg (List.takeWhile isNameRest) same
      rw [isFound.takeWhile_append (tokenised.endsName.mpr endsFound),
        isName.takeWhile_append ends] at read
      subst read
      exact ⟨rest, rfl, List.append_cancel_left same ▸ tokenised⟩
  · rintro ⟨rest, rfl, cuts⟩
    exact tokenises_begin.mpr ⟨isName, cuts.endsName.mp ends, cuts⟩

/-- The pieces of a document are its only cut at its tokens. -/
theorem tokenises_iff : cut.Tokenises document ↔ cut = ofSegments (segments document) := by
  induction document using segments.induct generalizing cut with
  | case1 => simpa [segments, ofSegments] using tokenises_nil
  | case2 c =>
      rw [tokenises_text (by simp [StartsName]), segments]
      simp only [tokenises_nil, exists_eq_right, ofSegments]
  | case3 c next rest token ih =>
      obtain ⟨rfl, start⟩ := token
      have isName : IsName (next :: rest.takeWhile isNameRest) :=
        ⟨start, List.all_eq_true.mp List.all_takeWhile⟩
      have ends : EndsName (rest.dropWhile isNameRest) := by
        intro c first
        have stopped := List.head?_dropWhile_not isNameRest rest
        rwa [first] at stopped
      have parts : '$' :: next :: rest = '$' :: ((next :: rest.takeWhile isNameRest) ++
          rest.dropWhile isNameRest) := by
        rw [List.cons_append, List.takeWhile_append_dropWhile]
      rw [segments, if_pos ⟨rfl, start⟩, parts, tokenises_token isName ends]
      simp only [ih, exists_eq_right, ofSegments]
  | case4 c next rest text ih =>
      rw [tokenises_text (by simpa [StartsName] using text), segments, if_neg text]
      simp only [ih, exists_eq_right, ofSegments]

example : ofSegments (segments "$a$$id, $ids2$1".toList) =
    ⟨[], [("a".toList, "$".toList), ("id".toList, ", ".toList), ("ids2".toList, "$1".toList)]⟩ := by
  decide +kernel

end Cut
end CodeFirst.Variables
