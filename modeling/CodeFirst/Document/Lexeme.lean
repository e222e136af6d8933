import CodeFirst.Json.Reader
import CodeFirst.Variables

/-!
The smallest parts of query documents: names, numbers and strings, and the text between them that
means nothing. Every reader here looks at the very head of a text.
-/

namespace CodeFirst.Lexeme

/-- Blanks, commas and byte order marks mean nothing. -/
def isIgnored (c : Char) : Bool :=
  c = ' ' || c = ',' || c = '\t' || c = '\n' || c = '\r' || c = '\ufeff'

def isLineEnd (c : Char) : Bool :=
  c = '\n' || c = '\r'

theorem length_dropWhile_lt_cons (p : Char → Bool) (c : Char) (rest : List Char) :
    (rest.dropWhile p).length < (c :: rest).length :=
  Nat.lt_succ_of_le (List.dropWhile_suffix p).length_le

/-- The text behind what means nothing: ignored characters, and comments up to the ends of their
lines. -/
def skip : List Char → List Char
  | [] => []
  | c :: rest =>
    if isIgnored c then skip rest
    else if c = '#' then skip (rest.dropWhile fun c => !isLineEnd c)
    else c :: rest
termination_by text => text.length
decreasing_by
  · exact Nat.lt_succ_self _
  · exact length_dropWhile_lt_cons _ _ _

theorem length_skip_le (text : List Char) : (skip text).length ≤ text.length := by
  fun_induction skip text with
  | case1 => exact Nat.le_refl _
  | case2 c rest _ ih => exact Nat.le_succ_of_le ih
  | case3 rest _ ih =>
    exact Nat.le_of_lt (Nat.lt_of_le_of_lt ih (length_dropWhile_lt_cons _ _ _))
  | case4 => exact Nat.le_refl _

def name? (text : List Char) : Option (Found Char String text.length) :=
  match text with
  | [] => none
  | c :: rest =>
    if isNameStart c then
      some ⟨String.ofList (c :: rest.takeWhile isNameRest), rest.dropWhile isNameRest,
        length_dropWhile_lt_cons _ _ _⟩
    else none

/-- A numeral with no name right behind it. -/
def numeral? (text : List Char) : Option (Found Char Numeral text.length) :=
  match scanned : Numeral.scan? text with
  | none => none
  | some (numeral, rest) =>
    if rest.head?.any isNameStart then none
    else some ⟨numeral, rest, Numeral.length_of_scan? scanned⟩

/-- The characters of a string up to its closing quote, on one line. -/
def line? (text : List Char) : Option (Found Char (List Char) text.length) :=
  match text with
  | [] => none
  | '"' :: rest => some ⟨[], rest, Nat.lt_succ_self _⟩
  | '\\' :: 'u' :: a :: b :: c :: d :: rest => do
    let (code, _) ← Json.hexWord? [a, b, c, d]
    if 0xD800 ≤ code ∧ code < 0xE000 then none
    else do
      let tail ← line? rest
      some ⟨Char.ofNat code :: tail.value, tail.rest, Nat.lt_add_right 6 tail.shorter⟩
  | '\\' :: letter :: rest => do
    let char ← Json.escaped? letter
    let tail ← line? rest
    some ⟨char :: tail.value, tail.rest, Nat.lt_add_right 2 tail.shorter⟩
  | c :: rest =>
    if isLineEnd c ∨ c = '\\' then none
    else do
      let tail ← line? rest
      some ⟨c :: tail.value, tail.rest, Nat.lt_succ_of_lt tail.shorter⟩

/-- The raw text of a block string up to its three closing quotes. -/
def block? (text : List Char) : Option (Found Char (List Char) text.length) :=
  match text with
  | [] => none
  | '"' :: '"' :: '"' :: rest => some ⟨[], rest, by simp only [List.length_cons]; omega⟩
  | '\\' :: '"' :: '"' :: '"' :: rest => do
    let tail ← block? rest
    some ⟨'\\' :: '"' :: '"' :: '"' :: tail.value, tail.rest, by
      have := tail.shorter
      simp only [List.length_cons]
      omega⟩
  | c :: rest => do
    let tail ← block? rest
    some ⟨c :: tail.value, tail.rest, Nat.lt_succ_of_lt tail.shorter⟩

def lines : List Char → List (List Char)
  | [] => [[]]
  | '\r' :: '\n' :: rest => [] :: lines rest
  | c :: rest =>
    if isLineEnd c then [] :: lines rest
    else
      match lines rest with
      | [] => [[c]]
      | line :: others => (c :: line) :: others

def isIndent (c : Char) : Bool :=
  c = ' ' || c = '\t'

/-- The value of a block string: the indent that all lines but the first have in common is dropped,
and so are blank lines at both ends. -/
def blockValue (raw : List Char) : List Char :=
  let all := lines raw
  let indents := (all.drop 1).filterMap fun line =>
    if line.all isIndent then none else some (line.takeWhile isIndent).length
  let common := indents.min?.getD 0
  let trimmed := all.take 1 ++ (all.drop 1).map fun line =>
    if common ≤ line.length then line.drop common else line
  let blank := fun (line : List Char) => line.all isIndent
  let kept := ((trimmed.dropWhile blank).reverse.dropWhile blank).reverse
  List.intercalate ['\n'] kept

/-- A string: a block between three quotes on each side, else one line between quotes. Three quotes
that nothing closes are an empty string and the quote of the next. -/
def string? (text : List Char) : Option (Found Char String text.length) :=
  match text with
  | '"' :: '"' :: '"' :: rest =>
    match block? rest with
    | some found =>
      some ⟨String.ofList (blockValue found.value), found.rest, by
        have := found.shorter
        simp only [List.length_cons]
        omega⟩
    | none => some ⟨"", '"' :: rest, by simp only [List.length_cons]; omega⟩
  | '"' :: rest =>
    (line? rest).map fun found =>
      ⟨String.ofList found.value, found.rest, Nat.lt_succ_of_lt found.shorter⟩
  | _ => none

/-- What stands behind a word; the word may run on into more letters. -/
def behind? : List Char → List Char → Option (List Char)
  | [], text => some text
  | c :: word, d :: text => if c = d then behind? word text else none
  | _ :: _, [] => none

theorem length_of_behind? {word text rest : List Char} (h : behind? word text = some rest) :
    rest.length + word.length = text.length := by
  fun_induction behind? word text with
  | case1 => cases h; rfl
  | case2 c word text ih =>
    have := ih h
    simp only [List.length_cons]
    omega
  | case3 => cases h
  | case4 => cases h

/-- A word of the language, which needs no blank behind it. -/
def keyword? (first : Char) (others : List Char) (text : List Char) :
    Option (Found Char Unit text.length) :=
  match found : behind? (first :: others) text with
  | none => none
  | some rest => some ⟨(), rest, by
      have := length_of_behind? found
      simp only [List.length_cons] at this
      omega⟩

def afterIgnored {α : Type} (read? : (text : List Char) → Option (Found Char α text.length))
    (text : List Char) : Option (Found Char α text.length) :=
  (read? (skip text)).map fun found => found.widen (length_skip_le text)

end CodeFirst.Lexeme
