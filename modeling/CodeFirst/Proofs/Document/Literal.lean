import CodeFirst.Proofs.Document.Lexeme

/-! What the reader of literals finds, kind by kind. Each is said of any text that comes to the
literal once what means nothing is passed over. -/
namespace CodeFirst

namespace Lexeme

variable {text rest : List Char} {c first : Char} {others word : List Char}

theorem behind?_append (word rest : List Char) : behind? word (word ++ rest) = some rest := by
  induction word with
  | nil => rfl
  | cons c word ih => rw [List.cons_append, behind?, if_pos rfl, ih]

theorem finds_keyword? (first : Char) (others rest : List Char) :
    Finds (keyword? first others (first :: others ++ rest)) () rest := by
  have behind := behind?_append (first :: others) rest
  have length := length_of_behind? behind
  refine ⟨by rw [List.length_cons] at length; omega, ?_⟩
  rw [keyword?]
  split
  · rename_i none
    cases behind.symm.trans none
  · rename_i found
    cases behind.symm.trans found
    rfl

theorem keyword?_eq_none (differs : c ≠ first) : keyword? first others (c :: rest) = none := by
  have behind : behind? (first :: others) (c :: rest) = none := if_neg differs.symm
  rw [keyword?]
  split
  · rfl
  · rename_i found
    cases behind.symm.trans found

theorem string?_eq_none (differs : c ≠ '"') : string? (c :: rest) = none := by
  rw [string?]
  · rintro _ ⟨⟩
    exact differs rfl
  · rintro _ ⟨⟩
    exact differs rfl

theorem name?_eq_none (noName : isNameStart c = false) : name? (c :: rest) = none := by
  rw [name?, if_neg (by simp [noName])]

/-- A name and a colon are read one after the other. -/
theorem finds_key {key value : List Char} (isName : Variables.IsName key)
    (here : skip text = key ++ ':' :: value) :
    Finds (Document.readName? text) (String.ofList key) (':' :: value) ∧
      Finds (Document.mark? ':' (':' :: value)) () value := by
  have ends : Variables.EndsName (':' :: value) := by
    rintro c ⟨⟩
    rfl
  exact ⟨finds_readName? isName ends here, finds_mark? (skip_cons rfl (by decide))⟩

end Lexeme

namespace Literal

open Lexeme Document

variable {text rest behind : List Char} {c : Char} {constant : Bool}

theorem finds_plain?_true (rest : List Char) :
    Finds (plain? ("true".toList ++ rest)) (.boolean true) rest := by
  have found := (finds_keyword? 't' ['r', 'u', 'e'] rest).map fun _ => boolean true
  exact found.or

theorem finds_plain?_false (rest : List Char) :
    Finds (plain? ("false".toList ++ rest)) (.boolean false) rest := by
  have found := (finds_keyword? 'f' ['a', 'l', 's', 'e'] rest).map fun _ => boolean false
  exact .map_none_or (keyword?_eq_none (by decide)) found.or

theorem finds_plain?_null (rest : List Char) :
    Finds (plain? ("null".toList ++ rest)) .null rest := by
  have found := (finds_keyword? 'n' ['u', 'l', 'l'] rest).map fun _ => null
  refine .map_none_or (keyword?_eq_none (by decide)) ?_
  exact .map_none_or (keyword?_eq_none (by decide)) found.or

theorem finds_plain?_string {value : String} (apart : Apart rest) :
    Finds (plain? (Json.quoted value ++ rest)) (.string value) rest := by
  have found := (@finds_string? rest value apart).map Literal.string
  refine .map_none_or (keyword?_eq_none (by decide)) ?_
  refine .map_none_or (keyword?_eq_none (by decide)) ?_
  exact .map_none_or (keyword?_eq_none (by decide)) found.or

theorem isNameStart_of_isDigit (digit : isDigit c = true) : isNameStart c = false := by
  have most := toNat_le_of_isDigit digit
  have upper : ¬ 'A' ≤ c := fun least => by
    have : 65 ≤ c.toNat := least
    omega
  have lower : ¬ 'a' ≤ c := fun least => by
    have : 97 ≤ c.toNat := least
    omega
  have underscore : c ≠ '_' := by
    rintro rfl
    exact absurd most (by decide)
  simp [isNameStart, upper, lower, underscore]

/-- The first character of a numeral. -/
theorem exists_written_cons {n : Numeral} (proper : n.Proper) :
    ∃ c rest, n.written = c :: rest ∧ (c = '-' ∨ isDigit c = true) :=
  (Numeral.spells_written proper).exists_cons

/-- Only a sign and the digits begin a numeral. -/
theorem ne_of_first {other : Char} (first : c = '-' ∨ isDigit c = true)
    (sign : other ≠ '-') (digit : isDigit other = false) : c ≠ other := by
  rintro rfl
  rcases first with rfl | isDigit
  · exact sign rfl
  · cases isDigit.symm.trans digit

theorem isIgnored_of_first (first : c = '-' ∨ isDigit c = true) : isIgnored c = false := by
  have other := fun other => @ne_of_first c other first
  simp only [isIgnored, Bool.or_eq_false_iff, decide_eq_false_iff_not]
  exact ⟨⟨⟨⟨⟨other _ (by decide) rfl, other _ (by decide) rfl⟩, other _ (by decide) rfl⟩,
    other _ (by decide) rfl⟩, other _ (by decide) rfl⟩, other _ (by decide) rfl⟩

theorem finds_plain?_number {n : Numeral} (proper : n.Proper) (apart : Apart rest) :
    Finds (plain? (n.written ++ rest)) (ofNumeral n) rest := by
  have found := (finds_numeral? proper apart).map ofNumeral
  obtain ⟨c, behind, text, first⟩ := exists_written_cons proper
  rw [text, List.cons_append] at found ⊢
  have noName : isNameStart c = false := by
    rcases first with rfl | digit
    · rfl
    · exact isNameStart_of_isDigit digit
  have noQuote : c ≠ '"' := ne_of_first first (by decide) rfl
  have noLetter : ∀ letter, isNameStart letter = true → c ≠ letter := by
    rintro letter start rfl
    cases noName.symm.trans start
  refine .map_none_or (keyword?_eq_none (noLetter 't' rfl)) ?_
  refine .map_none_or (keyword?_eq_none (noLetter 'f' rfl)) ?_
  refine .map_none_or (keyword?_eq_none (noLetter 'n' rfl)) ?_
  refine .map_none_or (string?_eq_none noQuote) ?_
  exact .map_none_or (name?_eq_none noName) found

theorem finds_read?_list {values : List Literal} (here : skip text = '[' :: behind)
    (items : Finds (readItems? constant behind) values rest) :
    Finds (read? constant text) (ofItems values) rest := by
  obtain ⟨less, marked⟩ := finds_mark? here
  obtain ⟨shorter, found⟩ := items
  refine ⟨Nat.lt_trans shorter less, ?_⟩
  rw [read?, marked]
  simp [found]
  rfl

theorem finds_read?_object {fields : List (String × Literal)} (here : skip text = '\x7b' :: behind)
    (inside : Finds (readFields? constant behind) fields rest) :
    Finds (read? constant text) (ofFields fields) rest := by
  obtain ⟨less, marked⟩ := finds_mark? here
  obtain ⟨shorter, found⟩ := inside
  refine ⟨Nat.lt_trans shorter less, ?_⟩
  rw [read?, mark?_eq_none here (by decide), marked]
  simp [found]
  rfl

theorem finds_read?_plain {value : Literal} (here : skip text = c :: behind) (noList : c ≠ '[')
    (noObject : c ≠ '\x7b') (noVariable : c ≠ '$')
    (plain : Finds (plain? (c :: behind)) value rest) :
    Finds (read? constant text) value rest := by
  rw [read?, mark?_eq_none here noList, mark?_eq_none here noObject]
  refine .none_or ?_ (finds_afterIgnored (here ▸ plain))
  rw [readVariable?, mark?_eq_none here noVariable]
  split
  · rfl
  · rfl

theorem finds_readItems?_nil (here : skip text = ']' :: rest) :
    Finds (readItems? constant text) [] rest := by
  obtain ⟨less, marked⟩ := finds_mark? here
  refine ⟨less, ?_⟩
  rw [readItems?, marked]
  rfl

theorem finds_readItems?_cons {item : Literal} {items : List Literal} {left : List Char}
    (here : skip text = c :: left) (noEnd : c ≠ ']')
    (first : Finds (read? constant text) item behind)
    (others : Finds (readItems? constant behind) items rest) :
    Finds (readItems? constant text) (item :: items) rest := by
  obtain ⟨less, found⟩ := first
  obtain ⟨shorter, more⟩ := others
  refine ⟨Nat.lt_trans shorter less, ?_⟩
  rw [readItems?, mark?_eq_none here noEnd, found]
  simp [more]

theorem finds_readFields?_nil (here : skip text = '\x7d' :: rest) :
    Finds (readFields? constant text) [] rest := by
  obtain ⟨less, marked⟩ := finds_mark? here
  refine ⟨less, ?_⟩
  rw [readFields?, marked]
  rfl

theorem finds_readFields?_cons {key : List Char} {field : Literal}
    {fields : List (String × Literal)} {afterColon : List Char}
    (isName : Variables.IsName key) (here : skip text = key ++ ':' :: afterColon)
    (first : Finds (read? constant afterColon) field behind)
    (others : Finds (readFields? constant behind) fields rest) :
    Finds (readFields? constant text) ((String.ofList key, field) :: fields) rest := by
  obtain ⟨⟨lessKey, named⟩, lessColon, colon⟩ := finds_key isName here
  obtain ⟨less, found⟩ := first
  obtain ⟨shorter, more⟩ := others
  refine ⟨by omega, ?_⟩
  obtain ⟨letter, tail, rfl, start⟩ := isName.start
  have noEnd : letter ≠ '\x7d' := by
    rintro rfl
    cases start
  rw [readFields?, mark?_eq_none here noEnd, named]
  simp [colon, found, more]

end Literal

namespace Document

open Lexeme

variable {text rest behind : List Char}

/-- One argument is read off a list, and the others stay. -/
theorem finds_readArgumentList?_cons {key : List Char} {value : Literal}
    {arguments : List (String × Literal)} {afterColon : List Char}
    (isName : Variables.IsName key) (here : skip text = key ++ ':' :: afterColon)
    (first : Finds (Literal.read? false afterColon) value behind)
    (noEnd : mark? ')' behind = none)
    (others : Finds (readArgumentList? behind) arguments rest) :
    Finds (readArgumentList? text) ((String.ofList key, value) :: arguments) rest := by
  obtain ⟨⟨lessKey, named⟩, lessColon, colon⟩ := finds_key isName here
  obtain ⟨less, found⟩ := first
  obtain ⟨shorter, more⟩ := others
  refine ⟨by omega, ?_⟩
  rw [readArgumentList?, named]
  simp [colon, found, noEnd, more]

theorem finds_readArgumentList?_last {key : List Char} {value : Literal} {afterColon : List Char}
    (isName : Variables.IsName key) (here : skip text = key ++ ':' :: afterColon)
    (first : Finds (Literal.read? false afterColon) value behind)
    (last : skip behind = ')' :: rest) :
    Finds (readArgumentList? text) [(String.ofList key, value)] rest := by
  obtain ⟨⟨lessKey, named⟩, lessColon, colon⟩ := finds_key isName here
  obtain ⟨less, found⟩ := first
  obtain ⟨shorter, closed⟩ := finds_mark? last
  refine ⟨by omega, ?_⟩
  rw [readArgumentList?, named]
  simp [colon, found, closed]

end Document

end CodeFirst
