import CodeFirst.Document.Reader
import CodeFirst.Proofs.Number.Text

/-! What the readers of documents find at the head of a text that was written on purpose: a mark, a
name, a number or a string, and behind it the rest of the text as it stands. -/
namespace CodeFirst

/-- A reader found this and left that. -/
def Finds {τ α : Type} {size : Nat} (found : Option (Found τ α size)) (value : α)
    (rest : List τ) : Prop :=
  ∃ shorter, found = some ⟨value, rest, shorter⟩

namespace Finds

variable {τ α β : Type} {size larger : Nat} {found other : Option (Found τ α size)} {value : α}
  {rest : List τ}

theorem map (finds : Finds found value rest) (f : α → β) :
    Finds (found.map (·.map f)) (f value) rest := by
  obtain ⟨shorter, rfl⟩ := finds
  exact ⟨shorter, rfl⟩

theorem widen (finds : Finds found value rest) (h : size ≤ larger) :
    Finds (found.map (·.widen h)) value rest := by
  obtain ⟨shorter, rfl⟩ := finds
  exact ⟨Nat.lt_of_lt_of_le shorter h, rfl⟩

theorem or (finds : Finds found value rest) : Finds (found.or other) value rest := by
  obtain ⟨shorter, rfl⟩ := finds
  exact ⟨shorter, rfl⟩

theorem none_or (absent : found = none) (finds : Finds other value rest) :
    Finds (found.or other) value rest := by
  subst absent
  exact finds

theorem map_none_or {first : Option β} {make : β → Found τ α size} (absent : first = none)
    (finds : Finds other value rest) : Finds ((first.map make).or other) value rest := by
  subst absent
  exact finds

end Finds

namespace Lexeme

variable {text rest : List Char} {c : Char}

/-- No name, number or string goes on with this text. -/
def Apart (text : List Char) : Prop :=
  ∀ c ∈ text.head?, isNameRest c = false ∧ c ≠ '.' ∧ c ≠ '"'

theorem Apart.endsNumber (apart : Apart rest) : Numeral.EndsNumber rest := by
  intro c first
  obtain ⟨name, point, _⟩ := apart c first
  rw [isNameRest, Bool.or_eq_false_iff] at name
  refine ⟨name.2, point, ?_, ?_⟩
  · rintro rfl
    cases name.1
  · rintro rfl
    cases name.1

theorem skip_cons (plain : isIgnored c = false) (noComment : c ≠ '#') :
    skip (c :: rest) = c :: rest := by
  rw [skip, if_neg (by simp [plain]), if_neg noComment]

theorem skip_ignored (ignored : isIgnored c = true) : skip (c :: rest) = skip rest := by
  rw [skip, if_pos ignored]

theorem ne_of_isNameStart {other : Char} (start : isNameStart c = true)
    (noStart : isNameStart other = false) : c ≠ other := by
  rintro rfl
  cases start.symm.trans noStart

theorem isIgnored_of_isNameStart (start : isNameStart c = true) : isIgnored c = false := by
  have other := fun other => @ne_of_isNameStart c other start
  simp only [isIgnored, Bool.or_eq_false_iff, decide_eq_false_iff_not]
  exact ⟨⟨⟨⟨⟨other _ rfl, other _ rfl⟩, other _ rfl⟩, other _ rfl⟩, other _ rfl⟩, other _ rfl⟩

theorem isNameRest_of_isIgnored (ignored : isIgnored c = true) : isNameRest c = false := by
  simp only [isIgnored, Bool.or_eq_true, decide_eq_true_eq] at ignored
  rcases ignored with ((((rfl | rfl) | rfl) | rfl) | rfl) | rfl <;> rfl

theorem skip_name {name : List Char} (isName : Variables.IsName name) (rest : List Char) :
    skip (name ++ rest) = name ++ rest := by
  obtain ⟨first, tail, rfl, start⟩ := isName.start
  exact skip_cons (isIgnored_of_isNameStart start) (ne_of_isNameStart start rfl)

theorem finds_afterIgnored {α : Type} {value : α}
    {read? : (text : List Char) → Option (Found Char α text.length)}
    (finds : Finds (read? (skip text)) value rest) :
    Finds (afterIgnored read? text) value rest :=
  finds.widen (length_skip_le text)

theorem afterIgnored_eq_none {α : Type}
    {read? : (text : List Char) → Option (Found Char α text.length)}
    (absent : read? (skip text) = none) : afterIgnored read? text = none :=
  Option.map_eq_none_iff.mpr absent

theorem finds_mark? (here : skip text = c :: rest) : Finds (Document.mark? c text) () rest := by
  refine finds_afterIgnored ?_
  rw [here]
  exact ⟨length_lt_cons c rest, if_pos rfl⟩

theorem mark?_eq_none {other : Char} (here : skip text = c :: rest) (differs : c ≠ other) :
    Document.mark? other text = none := by
  refine afterIgnored_eq_none ?_
  rw [here]
  exact if_neg differs

theorem finds_name? {name : List Char} (isName : Variables.IsName name)
    (ends : Variables.EndsName rest) :
    Finds (name? (name ++ rest)) (String.ofList name) rest := by
  obtain ⟨first, tail, rfl, start⟩ := isName.start
  have taken := Variables.takeWhile_append_of_ends isName.2 ends
  have left := Variables.dropWhile_append_of_ends isName.2 ends
  rw [List.cons_append]
  refine ⟨by simp only [List.length_append, List.length_cons]; omega, ?_⟩
  rw [name?, if_pos start]
  simp only [taken, left]

/-- A name that was read is as long as it can be. -/
theorem isName_of_finds {value : String} (finds : Finds (name? text) value rest) :
    ∃ name, text = name ++ rest ∧ Variables.IsName name ∧ Variables.EndsName rest ∧
      value = String.ofList name := by
  obtain ⟨shorter, read⟩ := finds
  cases text with
  | nil => cases read
  | cons c tail =>
      rw [name?] at read
      split at read
      · rename_i start
        cases read
        refine ⟨c :: tail.takeWhile isNameRest, ?_, ⟨start, ?_⟩, fun d first => ?_, rfl⟩
        · rw [List.cons_append, List.takeWhile_append_dropWhile]
        · exact List.all_eq_true.mp List.all_takeWhile
        · have stopped := List.head?_dropWhile_not isNameRest tail
          rwa [first] at stopped
      · cases read

theorem finds_readName? {name : List Char} (isName : Variables.IsName name)
    (ends : Variables.EndsName rest) (here : skip text = name ++ rest) :
    Finds (Document.readName? text) (String.ofList name) rest := by
  refine finds_afterIgnored ?_
  rw [here]
  exact finds_name? isName ends

theorem finds_numeral? {n : Numeral} (proper : n.Proper) (apart : Apart rest) :
    Finds (numeral? (n.written ++ rest)) n rest := by
  have scanned := Numeral.scan?_written proper apart.endsNumber
  refine ⟨Numeral.length_of_scan? scanned, ?_⟩
  rw [numeral?]
  split
  · rename_i none
    cases scanned.symm.trans none
  · rename_i other
    cases scanned.symm.trans other
    rw [if_neg]
    cases rest with
    | nil => exact Bool.false_ne_true
    | cons c rest =>
        have name := (apart c rfl).1
        rw [isNameRest, Bool.or_eq_false_iff] at name
        simp [name.1]

theorem finds_line?_escape {letter : Char} {characters tail : List Char}
    (escapes : Json.escaped? letter = some c) (finds : Finds (line? tail) characters rest) :
    Finds (line? ('\\' :: letter :: tail)) (c :: characters) rest := by
  obtain ⟨shorter, found⟩ := finds
  refine ⟨by simp only [List.length_cons]; omega, ?_⟩
  rw [line?, escapes, found]
  · rfl
  -- A `u` would make it a numbered escape, but it stands for no character by itself.
  · rintro a b c d behind rfl
    cases escapes

theorem hexWord?_control : ∀ n < 0x20,
    Json.hexWord? ['0', '0', Json.hexDigit (n / 16), Json.hexDigit (n % 16)] = some (n, []) := by
  decide

theorem finds_line?_control {characters tail : List Char} (control : c.toNat < 0x20)
    (finds : Finds (line? tail) characters rest) :
    Finds (line? ('\\' :: 'u' :: '0' :: '0' :: Json.hexDigit (c.toNat / 16) ::
      Json.hexDigit (c.toNat % 16) :: tail)) (c :: characters) rest := by
  obtain ⟨shorter, found⟩ := finds
  refine ⟨by simp only [List.length_cons]; omega, ?_⟩
  rw [line?, hexWord?_control _ control, found]
  have scalar : ¬ (0xD800 ≤ c.toNat ∧ c.toNat < 0xE000) := by omega
  simp [scalar]

theorem finds_line?_plain {characters tail : List Char} (noQuote : c ≠ '"') (noEscape : c ≠ '\\')
    (inside : isLineEnd c = false) (finds : Finds (line? tail) characters rest) :
    Finds (line? (c :: tail)) (c :: characters) rest := by
  obtain ⟨shorter, found⟩ := finds
  refine ⟨by simp only [List.length_cons]; omega, ?_⟩
  rw [line?, if_neg (by simp [noEscape, inside]), found]
  · rfl
  · exact noQuote
  · exact fun _ _ _ _ _ escape => absurd escape noEscape
  · exact fun _ _ escape => absurd escape noEscape

/-- How a character stands inside quotes. -/
inductive Quotes (c : Char) : List Char → Prop
  | escape {letter : Char} : Json.escaped? letter = some c → Quotes c ['\\', letter]
  | control : c.toNat < 0x20 →
      Quotes c ['\\', 'u', '0', '0', Json.hexDigit (c.toNat / 16), Json.hexDigit (c.toNat % 16)]
  | plain : c ≠ '"' → c ≠ '\\' → isLineEnd c = false → Quotes c [c]

theorem quotes_ite {letter char : Char} {written : List Char}
    (escapes : Json.escaped? letter = some char) (others : c ≠ char → Quotes c written) :
    Quotes c (if c = char then ['\\', letter] else written) := by
  split
  · subst char
    exact .escape escapes
  · exact others ‹_›

theorem quotes_quotedChar (c : Char) : Quotes c (Json.quotedChar c) := by
  refine quotes_ite rfl fun noQuote => ?_
  refine quotes_ite rfl fun noEscape => ?_
  refine quotes_ite rfl fun _ => ?_
  refine quotes_ite rfl fun _ => ?_
  refine quotes_ite rfl fun noLineFeed => ?_
  refine quotes_ite rfl fun noReturn => ?_
  refine quotes_ite rfl fun _ => ?_
  split
  · exact .control ‹_›
  · exact .plain noQuote noEscape (by simp [isLineEnd, noLineFeed, noReturn])

theorem finds_line?_quotes {characters written tail : List Char} (quotes : Quotes c written)
    (finds : Finds (line? tail) characters rest) :
    Finds (line? (written ++ tail)) (c :: characters) rest := by
  cases quotes with
  | escape escapes => exact finds_line?_escape escapes finds
  | control control => exact finds_line?_control control finds
  | plain noQuote noEscape inside => exact finds_line?_plain noQuote noEscape inside finds

/-- What is quoted is read back up to the closing quote. -/
theorem finds_line? (characters : List Char) :
    Finds (line? (characters.flatMap Json.quotedChar ++ '"' :: rest)) characters rest := by
  induction characters with
  | nil => exact ⟨Nat.lt_succ_self _, rfl⟩
  | cons c characters ih =>
      rw [List.flatMap_cons, List.append_assoc]
      exact finds_line?_quotes (quotes_quotedChar c) ih

/-- No block begins with a string that is quoted on one line. -/
theorem noBlock_quoted {characters : List Char}
    (ends : characters = [] → ∀ c ∈ rest.head?, c ≠ '"') (more : List Char) :
    characters.flatMap Json.quotedChar ++ '"' :: rest ≠ '"' :: '"' :: more := by
  cases characters with
  | nil =>
      intro same
      cases same
      exact ends rfl '"' rfl rfl
  | cons c characters =>
      rw [List.flatMap_cons]
      intro same
      have quotes := quotes_quotedChar c
      generalize Json.quotedChar c = written at same quotes
      cases quotes with
      | escape _ => cases same
      | control _ => cases same
      | plain noQuote _ _ => exact noQuote (List.cons.inj same).1

theorem quoted_append (value : String) (rest : List Char) :
    Json.quoted value ++ rest = '"' :: (value.toList.flatMap Json.quotedChar ++ '"' :: rest) := by
  simp [Json.quoted]

theorem finds_string? {value : String} (apart : Apart rest) :
    Finds (string? (Json.quoted value ++ rest)) value rest := by
  obtain ⟨shorter, found⟩ := @finds_line? rest value.toList
  rw [quoted_append]
  refine ⟨Nat.lt_succ_of_lt shorter, ?_⟩
  rw [string?, found]
  · simp only [Option.map_some, String.ofList_toList]
  · exact noBlock_quoted fun _ c first => (apart c first).2.2

end Lexeme

end CodeFirst
