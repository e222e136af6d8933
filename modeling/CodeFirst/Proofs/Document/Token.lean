import CodeFirst.Document.Token
import CodeFirst.Proofs.Document.Literal

/-! Tokens as they are written. A token is read from its text exactly if the text behind it does not go on
with it. -/
namespace CodeFirst.Token

open Lexeme

/-- How a token may be written; strings as JSON quotes them. -/
inductive Spells : Token → List Char → Prop
  | mark {c : Char} : c ∈ marks → Spells (.mark c) [c]
  | spread : Spells .spread ['.', '.', '.']
  | name {text : List Char} : Variables.IsName text → Spells (.name (String.ofList text)) text
  | number {n : Numeral} {text : List Char} :
      n.Spells text → Spells (.number (String.ofList text)) text
  | string (value : String) : Spells (.string value) (Json.quoted value)

/-- The text of a token; that of a block is not told by its value. -/
def written : Token → List Char
  | .mark c => [c]
  | .spread => ['.', '.', '.']
  | .name text => text.toList
  | .number text => text.toList
  | .string value => Json.quoted value
  | .block _ => []

/-- With this character right behind it, the token is another one or none. -/
def goesOn : Token → Char → Bool
  | .mark _, _ => false
  | .spread, _ => false
  | .name _, c => isNameRest c
  | .number _, c => goesOnNumber c
  | .string value, c => value = "" && c = '"'
  | .block _, _ => false

/-- The text does not go on with the token. -/
def Ends (token : Token) (rest : List Char) : Prop :=
  ∀ c ∈ rest.head?, token.goesOn c = false

variable {token : Token} {c : Char} {rest text : List Char} {n : Numeral}

theorem ends_iff (first : c ∈ rest.head?) : token.Ends rest ↔ ¬ token.goesOn c = true := by
  rw [Option.mem_def] at first
  simp [Ends, first]

theorem Spells.eq_written (spells : Spells token text) : text = token.written := by
  cases spells with
  | mark => rfl
  | spread => rfl
  | name => exact String.toList_ofList.symm
  | number => exact String.toList_ofList.symm
  | string => rfl

theorem marks_plain (mark : c ∈ marks) : isNameRest c = false ∧ isIgnored c = false ∧ c ≠ '#' ∧
    c ≠ '.' ∧ c ≠ '-' ∧ c ≠ '"' := by
  have all : marks.all (fun c => !isNameRest c && !isIgnored c && c != '#' && c != '.' && c != '-' &&
      c != '"') = true := by decide
  simpa [and_assoc] using List.all_eq_true.mp all c mark

theorem next?_cons (noPoint : c ≠ '.') (rest : List Char) :
    next? (c :: rest) =
      if c ∈ marks then some ⟨.mark c, rest, length_lt_cons c rest⟩
      else if c = '"' then string? (c :: rest)
      else if isNameStart c then (name? (c :: rest)).map (·.map .name)
      else (number? (c :: rest)).map (·.map .number) := by
  rw [next?]
  rintro behind rfl
  exact absurd rfl noPoint

theorem next?_mark (mark : c ∈ marks) (rest : List Char) :
    next? (c :: rest) = some ⟨.mark c, rest, length_lt_cons c rest⟩ := by
  obtain ⟨_, _, _, noPoint, _⟩ := marks_plain mark
  rw [next?_cons noPoint, if_pos mark]

theorem next?_quote (rest : List Char) : next? ('"' :: rest) = string? ('"' :: rest) := by
  rw [next?_cons (by decide), if_neg (by decide), if_pos rfl]

theorem isNameRest_of_isNameStart (start : isNameStart c = true) : isNameRest c = true := by
  rw [isNameRest, start, Bool.true_or]

theorem next?_name (start : isNameStart c = true) (rest : List Char) :
    next? (c :: rest) = (name? (c :: rest)).map (·.map .name) := by
  have noMark : c ∉ marks := fun mark => by
    cases (isNameRest_of_isNameStart start).symm.trans (marks_plain mark).1
  rw [next?_cons (ne_of_isNameStart start rfl), if_neg noMark,
    if_neg (ne_of_isNameStart start rfl), if_pos start]

theorem next?_number (first : c = '-' ∨ isDigit c = true) (rest : List Char) :
    next? (c :: rest) = (number? (c :: rest)).map (·.map .number) := by
  have noMark : c ∉ marks := fun mark => by
    obtain ⟨noName, _, _, _, noMinus, _⟩ := marks_plain mark
    rcases first with rfl | digit
    · exact noMinus rfl
    · rw [isNameRest, digit, Bool.or_true] at noName
      cases noName
  have noStart : isNameStart c = false := by
    rcases first with rfl | digit
    · rfl
    · exact Literal.isNameStart_of_isDigit digit
  rw [next?_cons (Literal.ne_of_first first (by decide) rfl), if_neg noMark,
    if_neg (Literal.ne_of_first first (by decide) rfl), if_neg (by simp [noStart])]

theorem endsNumber_of_ends {number : String} (ends : (Token.number number).Ends rest) :
    Numeral.EndsNumber rest := by
  intro c first
  have stops := ends c first
  simp only [goesOn, goesOnNumber, isNameRest, Bool.or_eq_false_iff, decide_eq_false_iff_not]
    at stops
  refine ⟨stops.1.2, stops.2, ?_, ?_⟩
  · rintro rfl
    cases stops.1.1
  · rintro rfl
    cases stops.1.1

theorem finds_number? (spells : n.Spells text)
    (ends : (Token.number (String.ofList text)).Ends rest) :
    Finds (number? (text ++ rest)) (String.ofList text) rest := by
  have scanned := spells.scan? (endsNumber_of_ends ends)
  refine ⟨Numeral.length_of_scan? scanned, ?_⟩
  rw [number?]
  split
  · rename_i none
    cases scanned.symm.trans none
  · rename_i other
    cases scanned.symm.trans other
    have stops : rest.head?.any goesOnNumber = false := by
      cases rest with
      | nil => rfl
      | cons c rest => exact ends c rfl
    rw [if_neg (by simp [stops])]
    simp

theorem finds_string? {value : String} (ends : (Token.string value).Ends rest) :
    Finds (string? (Json.quoted value ++ rest)) (.string value) rest := by
  have alone : value.toList = [] → ∀ c ∈ rest.head?, c ≠ '"' := by
    rintro empty c first rfl
    have stops := ends '"' first
    simp [goesOn, String.toList_eq_nil_iff.mp empty] at stops
  have line := (@finds_line? rest value.toList).map (Token.string ∘ String.ofList)
  rw [Function.comp_apply, String.ofList_toList] at line
  obtain ⟨shorter, found⟩ := line.widen (Nat.le_succ _)
  rw [quoted_append]
  refine ⟨shorter, ?_⟩
  rw [string?, ← found, Option.map_map]
  · rfl
  · exact noBlock_quoted alone

/-- A token is read from its text if nothing goes on with it. -/
theorem finds_next? (spells : Spells token text) (ends : token.Ends rest) :
    Finds (next? (text ++ rest)) token rest := by
  cases spells with
  | mark mark => exact ⟨_, next?_mark mark rest⟩
  | spread => exact ⟨_, rfl⟩
  | name isName =>
      have found := (finds_name? isName ends).map Token.name
      obtain ⟨first, tail, rfl, start⟩ := isName.start
      rwa [List.cons_append, ← next?_name start] at found
  | number spells =>
      have found := (finds_number? spells ends).map Token.number
      obtain ⟨first, tail, rfl, start⟩ := spells.exists_cons
      rwa [List.cons_append, ← next?_number start] at found
  | string value =>
      have found := finds_string? ends
      rwa [quoted_append, ← next?_quote, ← quoted_append] at found

theorem spells_of_number? {number : String} (finds : Finds (number? text) number rest) :
    ∃ n spelled, Numeral.Spells n spelled ∧ number = String.ofList spelled ∧
      text = spelled ++ rest ∧ (Token.number number).Ends rest := by
  obtain ⟨shorter, found⟩ := finds
  rw [number?] at found
  split at found
  · cases found
  · rename_i n left scanned
    split at found
    · cases found
    · rename_i ends
      cases found
      obtain ⟨spelled, spells, rfl⟩ := Numeral.spells_of_scan? scanned
      refine ⟨n, spelled, spells, by simp, rfl, fun c first => ?_⟩
      rw [first] at ends
      exact Bool.eq_false_iff.mpr ends

/-- What was read as a token, but for strings, is a text of it that nothing goes on with. -/
theorem spells_of_finds (noQuote : text.head? ≠ some '"') (finds : Finds (next? text) token rest) :
    ∃ written, text = written ++ rest ∧ Spells token written ∧ token.Ends rest := by
  obtain ⟨shorter, found⟩ := finds
  unfold next? at found
  split at found
  · cases found
  · cases found
    exact ⟨['.', '.', '.'], rfl, .spread, fun _ _ => rfl⟩
  · rename_i c behind _
    split at found
    · rename_i mark
      cases found
      exact ⟨[c], rfl, .mark mark, fun _ _ => rfl⟩
    split at found
    · rename_i quote
      exact absurd (congrArg some quote) noQuote
    split at found
    · obtain ⟨name, read, same⟩ := Option.map_eq_some_iff.mp found
      cases same
      obtain ⟨spelled, parts, isName, ends, same⟩ := isName_of_finds ⟨_, read⟩
      refine ⟨spelled, parts, ?_, ends⟩
      rw [same]
      exact .name isName
    · obtain ⟨number, read, same⟩ := Option.map_eq_some_iff.mp found
      cases same
      obtain ⟨n, spelled, spells, same, parts, ends⟩ := spells_of_number? ⟨_, read⟩
      refine ⟨spelled, parts, ?_, ends⟩
      rw [same]
      exact .number spells

/-- A token begins with a character that means something and opens no comment; only strings begin with
a quote. -/
theorem Spells.exists_cons (spells : Spells token text) :
    ∃ c tail, text = c :: tail ∧ isIgnored c = false ∧ c ≠ '#' ∧
      (c = '"' → ∃ value, token = .string value) := by
  cases spells with
  | @mark c mark =>
      obtain ⟨_, plain, noComment, _, _, noQuote⟩ := marks_plain mark
      exact ⟨c, [], rfl, plain, noComment, fun quote => absurd quote noQuote⟩
  | spread => exact ⟨'.', _, rfl, by decide, by decide, nofun⟩
  | name isName =>
      obtain ⟨c, tail, rfl, start⟩ := isName.start
      exact ⟨c, tail, rfl, isIgnored_of_isNameStart start, ne_of_isNameStart start rfl,
        fun quote => absurd quote (ne_of_isNameStart start rfl)⟩
  | number spells =>
      obtain ⟨c, tail, rfl, first⟩ := spells.exists_cons
      have other := fun other => @Literal.ne_of_first c other first
      exact ⟨c, tail, rfl, Literal.isIgnored_of_first first, other '#' (by decide) rfl,
        fun quote => absurd quote (other '"' (by decide) rfl)⟩
  | string value => exact ⟨'"', _, rfl, by decide, by decide, fun _ => ⟨value, rfl⟩⟩

theorem Spells.ne_nil (spells : Spells token text) : text ≠ [] := by
  obtain ⟨c, tail, rfl, _⟩ := spells.exists_cons
  exact List.cons_ne_nil c tail

theorem Spells.skip (spells : Spells token text) (rest : List Char) :
    skip (text ++ rest) = text ++ rest := by
  obtain ⟨c, tail, rfl, plain, noComment, _⟩ := spells.exists_cons
  exact skip_cons plain noComment

theorem quoted_eq_nil {value : String} : Json.quoted value = ['"', '"'] ↔ value = "" := by
  constructor
  · intro same
    rw [Json.quoted, List.cons_append] at same
    have none : value.toList.flatMap Json.quotedChar = [] :=
      List.append_cancel_right (List.cons.inj same).2
    cases characters : value.toList with
    | nil => exact String.toList_eq_nil_iff.mp characters
    | cons c rest =>
        rw [characters, List.flatMap_cons, List.append_eq_nil_iff] at none
        have quotes := quotes_quotedChar c
        rw [none.1] at quotes
        cases quotes
  · rintro rfl
    rfl

/-- What goes on with a token is told by the last character of its text. -/
theorem Spells.goesOn_iff (spells : Spells token text) (last : c ∈ text.getLast?)
    (noPoint : d = '.' → ∀ name, token = .name name → isDigit c = false) :
    token.goesOn d = true ↔ (isNameRest c = true ∧ isNameRest d = true) ∨
      (isDigit c = true ∧ d = '.') ∨ text = ['"', '"'] ∧ d = '"' := by
  cases spells with
  | @mark c mark =>
      cases last
      have noName := (marks_plain mark).1
      have noDigit := noName
      rw [isNameRest, Bool.or_eq_false_iff] at noDigit
      simp [goesOn, noName, noDigit.2]
  | spread =>
      cases last
      simp [goesOn, show isNameRest '.' = false from rfl, show isDigit '.' = false from rfl]
  | @name text isName =>
      have inName := isName.all c (List.mem_of_getLast? last)
      have noQuotes : text ≠ ['"', '"'] := by
        rintro rfl
        cases last
        cases inName
      have noPoint : ¬ (isDigit c = true ∧ d = '.') := by
        rintro ⟨digit, point⟩
        cases digit.symm.trans (noPoint point _ rfl)
      simp [goesOn, inName, noQuotes, noPoint]
  | @number n text spells =>
      have digit := spells.characters.2 c last
      have inName : isNameRest c = true := by rw [isNameRest, digit, Bool.or_true]
      have noQuotes : text ≠ ['"', '"'] := by
        rintro rfl
        cases last
        cases digit
      simp [goesOn, goesOnNumber, inName, digit, noQuotes]
  | string value =>
      have quote : c = '"' := by
        rw [Json.quoted, List.getLast?_concat] at last
        exact (Option.some.inj last).symm
      subst quote
      simp [goesOn, quoted_eq_nil, show isNameRest '"' = false from rfl,
        show isDigit '"' = false from rfl]

theorem Spells.noSign (spells : Spells token text) (noMark : token ≠ .mark '$')
    (noString : ∀ value, token ≠ .string value) : ∀ c ∈ text, c ≠ '$' := by
  cases spells with
  | mark =>
      rintro c member rfl
      exact noMark (congrArg Token.mark (List.mem_singleton.mp member).symm)
  | spread => simp
  | name isName =>
      rintro c member rfl
      cases isName.all _ member
  | number spells =>
      rintro c member rfl
      rcases spells.characters.1 _ member with digit | other
      · cases digit
      · revert other
        decide
  | string value => exact absurd rfl (noString value)

/-- Two quotes and a third one begin a block. -/
theorem not_finds_block (value : String) (left : List Char) :
    ¬ Finds (next? ('"' :: '"' :: '"' :: rest)) (.string value) left := by
  rintro ⟨shorter, found⟩
  rw [next?_quote, string?] at found
  obtain ⟨block, _, same⟩ := Option.map_eq_some_iff.mp found
  cases same

/-- A token that the text behind it goes on with is not read. -/
theorem not_finds_next? (spells : Spells token text) (goesOn : ¬ token.Ends rest)
    (left : List Char) : ¬ Finds (next? (text ++ rest)) token left := by
  intro finds
  obtain ⟨c, tail, rfl, _, _, quoted⟩ := spells.exists_cons
  by_cases quote : c = '"'
  · obtain ⟨value, rfl⟩ := quoted quote
    -- Only the empty string is gone on with, by a third quote.
    obtain ⟨d, first, goes⟩ : ∃ d ∈ rest.head?, (Token.string value).goesOn d = true := by
      simpa [Ends] using goesOn
    simp only [Token.goesOn, Bool.and_eq_true, decide_eq_true_eq] at goes
    obtain ⟨rfl, rfl⟩ := goes
    obtain ⟨more, rfl⟩ := List.head?_eq_some_iff.mp first
    rw [spells.eq_written] at finds
    exact not_finds_block "" left finds
  · -- The token ends where it was read, and so behind the text that it has anyway.
    have noQuote : (c :: tail ++ rest).head? ≠ some '"' := fun same => quote (Option.some.inj same)
    obtain ⟨other, parts, again, ends⟩ := spells_of_finds noQuote finds
    rw [spells.eq_written, again.eq_written] at parts
    rw [List.append_cancel_left parts] at goesOn
    exact goesOn ends

variable {given : String → Option Token} {tokens : List Token} {found : Option Token}

/-- The tokens of a text are those of what is left when all that means nothing is passed over. -/
theorem scanWith?_eq (text : List Char) :
    scanWith? given text =
      if skip text = [] then some []
      else (nextWith? given (skip text)).bind fun found =>
        (scanWith? given found.rest).map (found.value :: ·) := by
  rw [scanWith?]
  by_cases empty : skip text = []
  · rw [if_pos empty, if_pos (List.isEmpty_iff.mpr empty)]
  · rw [if_neg empty, if_neg (mt List.isEmpty_iff.mp empty)]
    simp only [afterIgnored, Option.bind_eq_bind]
    cases nextWith? given (skip text) with
    | none => rfl
    | some found =>
        change (scanWith? given found.rest).bind _ = (scanWith? given found.rest).map _
        cases scanWith? given found.rest <;> rfl

theorem scanWith?_of_skip {other : List Char} (same : skip text = skip other) :
    scanWith? given text = scanWith? given other := by
  rw [scanWith?_eq text, scanWith?_eq other, same]

theorem scanWith?_nil : scanWith? given [] = some [] := by
  rw [scanWith?_eq, skip, if_pos rfl]

theorem scanWith?_ignored (ignored : isIgnored c = true) (rest : List Char) :
    scanWith? given (c :: rest) = scanWith? given rest :=
  scanWith?_of_skip (skip_ignored ignored)

theorem scanWith?_of_finds (plain : skip text = text) (nonempty : text ≠ [])
    (finds : Finds (nextWith? given text) token rest) :
    scanWith? given text = (scanWith? given rest).map (token :: ·) := by
  obtain ⟨shorter, found⟩ := finds
  rw [scanWith?_eq, plain, if_neg nonempty, found]
  rfl

theorem scanWith?_of_ends (spells : Spells token text) (ends : token.Ends rest)
    (plain : nextWith? given (text ++ rest) = next? (text ++ rest)) :
    scanWith? given (text ++ rest) = (scanWith? given rest).map (token :: ·) := by
  have finds := finds_next? spells ends
  rw [← plain] at finds
  exact scanWith?_of_finds (spells.skip rest) (List.append_ne_nil_of_left_ne_nil spells.ne_nil rest)
    finds

theorem nextWith?_of_noReference (none : reference? text = none) :
    nextWith? given text = next? text := by
  rw [nextWith?, none]
  rfl

theorem nextWith?_none (text : List Char) : nextWith? (fun _ => none) text = next? text := by
  rw [nextWith?]
  cases reference? text <;> rfl

theorem scan?_of_ends (spells : Spells token text) (ends : token.Ends rest) :
    scan? (text ++ rest) = (scan? rest).map (token :: ·) :=
  scanWith?_of_ends spells ends (nextWith?_none _)

/-- A sign is a token wherever no variable is given for it. -/
theorem scanWith?_sign (plain : nextWith? given ('$' :: rest) = next? ('$' :: rest)) :
    scanWith? given ('$' :: rest) = (scanWith? given rest).map (.mark '$' :: ·) :=
  @scanWith?_of_ends (.mark '$') rest ['$'] given (.mark (by decide)) (fun _ _ => rfl) plain

theorem scan?_sign (rest : List Char) :
    scan? ('$' :: rest) = (scan? rest).map (.mark '$' :: ·) :=
  scanWith?_sign (nextWith?_none _)

theorem exists_next_of_scan? (kept : skip text = text) (nonempty : text ≠ [])
    (scanned : scan? text = some tokens) :
    ∃ token rest others, Finds (next? text) token rest ∧ scan? rest = some others ∧
      tokens = token :: others := by
  rw [scan?, scanWith?_eq, kept, if_neg nonempty, nextWith?_none] at scanned
  obtain ⟨found, read, same⟩ := Option.bind_eq_some_iff.mp scanned
  obtain ⟨others, more, rfl⟩ := Option.map_eq_some_iff.mp same
  exact ⟨found.value, found.rest, others, ⟨found.shorter, read⟩, more, rfl⟩

/-- A token comes first in the tokens of a text if it is written there and nothing goes on with it. -/
theorem scan?_append (spells : Spells token text) :
    scan? (text ++ rest) = some (token :: tokens) ↔ token.Ends rest ∧ scan? rest = some tokens := by
  by_cases ends : token.Ends rest
  · rw [scan?_of_ends spells ends]
    simp [ends]
  · refine iff_of_false (fun scanned => ?_) fun ⟨ends', _⟩ => ends ends'
    obtain ⟨first, left, others, finds, _, same⟩ := exists_next_of_scan? (spells.skip rest)
      (List.append_ne_nil_of_left_ne_nil spells.ne_nil rest) scanned
    cases same
    exact not_finds_next? spells ends left finds

section References

variable {name : List Char}

theorem finds_reference? (isName : Variables.IsName name) (ends : Variables.EndsName rest) :
    Finds (reference? ('$' :: (name ++ rest))) (String.ofList name) rest :=
  (finds_name? isName ends).widen (Nat.le_succ _)

theorem finds_nextWith? (isName : Variables.IsName name) (ends : Variables.EndsName rest)
    (some : given (String.ofList name) = some token) :
    Finds (nextWith? given ('$' :: (name ++ rest))) token rest := by
  obtain ⟨shorter, found⟩ := finds_reference? isName ends
  refine ⟨shorter, ?_⟩
  rw [nextWith?, found, Option.bind_some, some]
  rfl

theorem nextWith?_of_absent (isName : Variables.IsName name) (ends : Variables.EndsName rest)
    (none : given (String.ofList name) = none) :
    nextWith? given ('$' :: (name ++ rest)) = next? ('$' :: (name ++ rest)) := by
  obtain ⟨shorter, found⟩ := finds_reference? isName ends
  rw [nextWith?, found, Option.bind_some, none]
  rfl

theorem reference?_eq_none (isName : Variables.IsName name) (rest : List Char) :
    reference? (name ++ rest) = none := by
  obtain ⟨first, tail, rfl, start⟩ := isName.start
  rw [List.cons_append, reference?]
  rintro behind ⟨⟩
  cases start

end References

theorem isName_of_reference? {value : String} (finds : Finds (reference? text) value rest) :
    ∃ name, text = '$' :: (name ++ rest) ∧ Variables.IsName name ∧ Variables.EndsName rest ∧
      value = String.ofList name := by
  obtain ⟨shorter, read⟩ := finds
  unfold reference? at read
  split at read
  · obtain ⟨found, named, same⟩ := Option.map_eq_some_iff.mp read
    cases same
    obtain ⟨name, parts, isName⟩ := isName_of_finds ⟨_, named⟩
    exact ⟨name, congrArg ('$' :: ·) parts, isName⟩
  · cases read

/-- A text of tokens, of which none is a string, and of what means nothing between them. A sign right
before a name goes with it. -/
inductive Lexed : List Char → Prop
  | nil : Lexed []
  | ignored {c : Char} {rest : List Char} :
      isIgnored c = true → Lexed rest → Lexed (c :: rest)
  | token {token : Token} {text rest : List Char} : Spells token text → token.Ends rest →
      (∀ value, token ≠ .string value) → reference? (text ++ rest) = none →
      Lexed rest → Lexed (text ++ rest)
  | reference {name rest : List Char} : Variables.IsName name → Variables.EndsName rest →
      Lexed rest → Lexed ('$' :: (name ++ rest))

theorem lexed_of_scan? {text : List Char} {tokens : List Token}
    (plain : ∀ c ∈ text, c ≠ '"' ∧ c ≠ '#') (scanned : scan? text = some tokens) : Lexed text := by
  cases text with
  | nil => exact .nil
  | cons c rest =>
      obtain ⟨⟨noQuote, noComment⟩, others⟩ := List.forall_mem_cons.mp plain
      by_cases ignored : isIgnored c = true
      · rw [scan?, scanWith?_ignored ignored] at scanned
        exact .ignored ignored (lexed_of_scan? others scanned)
      cases read : reference? (c :: rest) with
      | some found =>
          obtain ⟨value, behind, shorter⟩ := found
          obtain ⟨name, parts, isName, endsName, _⟩ := isName_of_reference? ⟨shorter, read⟩
          obtain ⟨rfl, rfl⟩ := List.cons.inj parts
          rw [scan?_sign, scan?_of_ends (.name isName) endsName] at scanned
          obtain ⟨_, scanned, _⟩ := Option.map_eq_some_iff.mp scanned
          obtain ⟨_, scanned, _⟩ := Option.map_eq_some_iff.mp scanned
          refine .reference isName endsName (lexed_of_scan? (fun d member => ?_) scanned)
          exact others d (List.mem_append_right name member)
      | none =>
          have kept : skip (c :: rest) = c :: rest := skip_cons (by simpa using ignored) noComment
          obtain ⟨token, left, more, finds, scanned, _⟩ :=
            exists_next_of_scan? kept (List.cons_ne_nil c rest) scanned
          obtain ⟨text, parts, spells, ends⟩ := spells_of_finds (by simpa using noQuote) finds
          obtain ⟨shorter, _⟩ := finds
          rw [parts] at plain read ⊢
          have noString : ∀ value, token ≠ .string value := by
            rintro value rfl
            rw [spells.eq_written] at plain
            exact (plain '"' (by simp [written, Json.quoted])).1 rfl
          exact .token spells ends noString read
            (lexed_of_scan? (fun d member => plain d (List.mem_append_right text member)) scanned)
termination_by text.length

end CodeFirst.Token
