import CodeFirst.Json

/-!
Reading JSON text. Readers consume the head of a list; arrays and objects nest up to a given depth.
-/

namespace CodeFirst

/-- What a reader found at the head of a list of `size` items, and the shorter list behind it. -/
structure Found (τ α : Type) (size : Nat) where
  value : α
  rest : List τ
  shorter : rest.length < size

theorem length_lt_cons {τ : Type} (item : τ) (rest : List τ) :
    rest.length < (item :: rest).length :=
  Nat.lt_succ_self _

namespace Found

variable {τ α β : Type} {size : Nat}

def map (f : α → β) (found : Found τ α size) : Found τ β size :=
  ⟨f found.value, found.rest, found.shorter⟩

def widen (found : Found τ α size) {larger : Nat} (h : size ≤ larger) : Found τ α larger :=
  ⟨found.value, found.rest, Nat.lt_of_lt_of_le found.shorter h⟩

end Found

namespace Json

def isBlank (c : Char) : Bool :=
  c = ' ' || c = '\n' || c = '\t' || c = '\r'

def skipBlanks (text : List Char) : List Char :=
  text.dropWhile isBlank

theorem length_skipBlanks_le (text : List Char) : (skipBlanks text).length ≤ text.length :=
  (List.dropWhile_suffix isBlank).length_le

/-- The value of four hexadecimal digits at the head of a text. -/
def hexWord? : List Char → Option (Nat × List Char)
  | a :: b :: c :: d :: rest => do
    let w ← hexDigit? a
    let x ← hexDigit? b
    let y ← hexDigit? c
    let z ← hexDigit? d
    some (((w * 16 + x) * 16 + y) * 16 + z, rest)
  | _ => none
where
  hexDigit? (c : Char) : Option Nat :=
    if '0' ≤ c ∧ c ≤ '9' then some (c.toNat - '0'.toNat)
    else if 'a' ≤ c ∧ c ≤ 'f' then some (c.toNat - 'a'.toNat + 10)
    else if 'A' ≤ c ∧ c ≤ 'F' then some (c.toNat - 'A'.toNat + 10)
    else none

theorem length_of_hexWord? {text rest : List Char} {n : Nat} (h : hexWord? text = some (n, rest)) :
    rest.length < text.length := by
  unfold hexWord? at h
  split at h
  · simp only [Option.bind_eq_bind, Option.bind_eq_some_iff] at h
    obtain ⟨_, _, _, _, _, _, _, _, h⟩ := h
    cases h
    simp only [List.length_cons]
    omega
  · cases h

/-- The character of an escape other than one by number. -/
def escaped? : Char → Option Char
  | '"' => some '"'
  | '\\' => some '\\'
  | '/' => some '/'
  | 'b' => some '\x08'
  | 'f' => some '\x0c'
  | 'n' => some '\n'
  | 'r' => some '\r'
  | 't' => some '\t'
  | _ => none

/-- The character of one escape by number, or of a pair of them that stands for one character;
half a pair is refused. -/
def numbered? (text : List Char) : Option (Found Char Char text.length) :=
  match first : hexWord? text with
  | none => none
  | some (high, rest) =>
    if 0xD800 ≤ high ∧ high < 0xDC00 then
      match rest, first with
      | '\\' :: 'u' :: after, first =>
        match second : hexWord? after with
        | some (low, rest') =>
          if 0xDC00 ≤ low ∧ low < 0xE000 then
            some ⟨Char.ofNat (0x10000 + (high - 0xD800) * 0x400 + (low - 0xDC00)), rest', by
              have := length_of_hexWord? first
              have := length_of_hexWord? second
              simp only [List.length_cons] at *
              omega⟩
          else none
        | none => none
      | _, _ => none
    else if 0xDC00 ≤ high ∧ high < 0xE000 then none
    else some ⟨Char.ofNat high, rest, length_of_hexWord? first⟩

/-- The characters of a string up to its closing quote. -/
def readQuoted? (text : List Char) : Option (Found Char (List Char) text.length) :=
  match text with
  | [] => none
  | '"' :: rest => some ⟨[], rest, by simp⟩
  | '\\' :: 'u' :: rest => do
    let char ← numbered? rest
    have := char.shorter
    let tail ← readQuoted? char.rest
    some ⟨char.value :: tail.value, tail.rest, by
      have := tail.shorter
      simp only [List.length_cons]
      omega⟩
  | '\\' :: mark :: rest => do
    let char ← escaped? mark
    let tail ← readQuoted? rest
    some ⟨char :: tail.value, tail.rest, by
      have := tail.shorter
      simp only [List.length_cons]
      omega⟩
  | c :: rest =>
    if c.toNat < 0x20 ∨ c = '\\' then none
    else do
      let tail ← readQuoted? rest
      some ⟨c :: tail.value, tail.rest, by
        have := tail.shorter
        simp only [List.length_cons]
        omega⟩
termination_by text.length
decreasing_by all_goals (simp only [List.length_cons]; omega)

def readNumber? (text : List Char) : Option (Found Char Number text.length) :=
  match scanned : Numeral.scan? text with
  | none => none
  | some (numeral, rest) =>
    numeral.number?.map fun number => ⟨number, rest, Numeral.length_of_scan? scanned⟩

/-- A value that is neither a string, an array nor an object. -/
def readScalar? (text : List Char) : Option (Found Char Json text.length) :=
  match text with
  | 'n' :: 'u' :: 'l' :: 'l' :: rest =>
    some ⟨.null, rest, by simp only [List.length_cons]; omega⟩
  | 't' :: 'r' :: 'u' :: 'e' :: rest =>
    some ⟨.boolean true, rest, by simp only [List.length_cons]; omega⟩
  | 'f' :: 'a' :: 'l' :: 's' :: 'e' :: rest =>
    some ⟨.boolean false, rest, by simp only [List.length_cons]; omega⟩
  | text => (readNumber? text).map fun found => found.map .number

mutual

/-- A value behind blanks, with at most `depth` arrays and objects around each other. -/
def readValue? (depth : Nat) (text : List Char) : Option (Found Char Json text.length) :=
  match head : skipBlanks text with
  | [] => none
  | '"' :: rest => do
    let found ← readQuoted? rest
    some ⟨.string (String.ofList found.value), found.rest, by
      have := found.shorter
      have := length_skipBlanks_le text
      simp only [head, List.length_cons] at this
      omega⟩
  | '[' :: rest =>
    match depth with
    | 0 => none
    | depth + 1 =>
      have bound : rest.length < text.length := by
        have := length_skipBlanks_le text
        simp only [head, List.length_cons] at this
        omega
      match afterOpening : skipBlanks rest with
      | ']' :: after => some ⟨.array [], after, by
          have := length_skipBlanks_le rest
          simp only [afterOpening, List.length_cons] at this
          omega⟩
      | _ => do
        let found ← readItems? depth rest
        some ⟨.array found.value, found.rest, by
          have := found.shorter
          omega⟩
  | '\x7b' :: rest =>
    match depth with
    | 0 => none
    | depth + 1 =>
      have bound : rest.length < text.length := by
        have := length_skipBlanks_le text
        simp only [head, List.length_cons] at this
        omega
      match afterOpening : skipBlanks rest with
      | '\x7d' :: after => some ⟨.object [], after, by
          have := length_skipBlanks_le rest
          simp only [afterOpening, List.length_cons] at this
          omega⟩
      | _ => do
        let found ← readMembers? depth rest
        some ⟨ofMembers found.value, found.rest, by
          have := found.shorter
          omega⟩
  | _ =>
    (readScalar? (skipBlanks text)).map fun found => found.widen (length_skipBlanks_le text)
termination_by (depth, 0)

def readItems? (depth : Nat) (text : List Char) : Option (Found Char (List Json) text.length) := do
  let item ← readValue? depth text
  match after : skipBlanks item.rest with
  | ']' :: rest => some ⟨[item.value], rest, by
      have := length_skipBlanks_le item.rest
      have := item.shorter
      simp only [after, List.length_cons] at *
      omega⟩
  | ',' :: rest =>
    have bound : rest.length < text.length := by
      have := length_skipBlanks_le item.rest
      have := item.shorter
      simp only [after, List.length_cons] at *
      omega
    let items ← readItems? depth rest
    some ⟨item.value :: items.value, items.rest, Nat.lt_trans items.shorter bound⟩
  | _ => none
termination_by (depth, text.length + 1)

def readMembers? (depth : Nat) (text : List Char) :
    Option (Found Char (List (String × Json)) text.length) :=
  match opening : skipBlanks text with
  | '"' :: afterQuote => do
    let key ← readQuoted? afterQuote
    match colon : skipBlanks key.rest with
    | ':' :: afterColon =>
      have nearer : afterColon.length < text.length := by
        have := length_skipBlanks_le text
        have := length_skipBlanks_le key.rest
        have := key.shorter
        simp only [opening, colon, List.length_cons] at *
        omega
      let value ← readValue? depth afterColon
      match after : skipBlanks value.rest with
      | '\x7d' :: rest => some ⟨[(String.ofList key.value, value.value)], rest, by
          have := length_skipBlanks_le value.rest
          have := value.shorter
          simp only [after, List.length_cons] at *
          omega⟩
      | ',' :: rest =>
        have bound : rest.length < text.length := by
          have := length_skipBlanks_le value.rest
          have := value.shorter
          simp only [after, List.length_cons] at *
          omega
        let members ← readMembers? depth rest
        some ⟨(String.ofList key.value, value.value) :: members.value, members.rest,
          Nat.lt_trans members.shorter bound⟩
      | _ => none
    | _ => none
  | _ => none
termination_by (depth, text.length + 1)

end

/-- Arrays and objects nest at most this deep. -/
def depthLimit : Nat := 127

/-- The value of a whole text; nothing but blanks may stand around it. -/
def read? (text : String) : Option Json := do
  let found ← readValue? depthLimit text.toList
  if (skipBlanks found.rest).isEmpty then some found.value else none

end Json

end CodeFirst
