import CodeFirst.Document.Lexeme

/-!
The tokens of query documents. Each is as long as it can be, and what means nothing stands between
them. A text that runs into the end of a number has no tokens, and neither has one that goes on behind
two quotes with a third one but no block.
-/

namespace CodeFirst

inductive Token where
  | mark (c : Char)
  | spread
  | name (text : String)
  /-- As it is written. -/
  | number (text : String)
  | string (value : String)
  | block (value : String)
deriving DecidableEq, Inhabited

namespace Token

open Lexeme

def marks : List Char :=
  ['!', '$', '&', '(', ')', ':', '=', '@', '[', ']', '\x7b', '|', '\x7d']

/-- A number goes on with digits and with a point, and no name may stand right behind it. -/
def goesOnNumber (c : Char) : Bool :=
  isNameRest c || c = '.'

def number? (text : List Char) : Option (Found Char String text.length) :=
  match scanned : Numeral.scan? text with
  | none => none
  | some (_, rest) =>
    if rest.head?.any goesOnNumber then none
    else some ⟨String.ofList (text.take (text.length - rest.length)), rest,
      Numeral.length_of_scan? scanned⟩

/-- A string on one line, or a block of lines; three quotes always begin a block. -/
def string? (text : List Char) : Option (Found Char Token text.length) :=
  match text with
  | '"' :: '"' :: '"' :: rest =>
    (block? rest).map fun found =>
      ⟨.block (String.ofList (blockValue found.value)), found.rest, Nat.lt_add_right 3 found.shorter⟩
  | '"' :: rest =>
    (line? rest).map fun found =>
      (found.map (.string ∘ String.ofList)).widen (Nat.le_succ rest.length)
  | _ => none

/-- The token at the head of a text. -/
def next? (text : List Char) : Option (Found Char Token text.length) :=
  match text with
  | [] => none
  | '.' :: '.' :: '.' :: rest => some ⟨.spread, rest, by simp only [List.length_cons]; omega⟩
  | c :: rest =>
    if c ∈ marks then some ⟨.mark c, rest, length_lt_cons c rest⟩
    else if c = '"' then string? (c :: rest)
    else if isNameStart c then (name? (c :: rest)).map (·.map .name)
    else (number? (c :: rest)).map (·.map .number)

/-- The name of a variable, right behind its sign. -/
def reference? (text : List Char) : Option (Found Char String text.length) :=
  match text with
  | '$' :: rest => (name? rest).map (·.widen (Nat.le_succ rest.length))
  | _ => none

/-- The token at the head of a text, where one token is given for each of some variables. -/
def nextWith? (given : String → Option Token) (text : List Char) :
    Option (Found Char Token text.length) :=
  ((reference? text).bind fun found =>
    (given found.value).map fun token => found.map fun _ => token).or (next? text)

/-- The tokens of a text, with the one that is given for a variable in its place. -/
def scanWith? (given : String → Option Token) (text : List Char) : Option (List Token) :=
  if (skip text).isEmpty then some []
  else do
    let found ← afterIgnored (nextWith? given) text
    let tokens ← scanWith? given found.rest
    some (found.value :: tokens)
termination_by text.length
decreasing_by exact found.shorter

/-- The tokens of a text as it stands. -/
def scan? (text : List Char) : Option (List Token) :=
  scanWith? (fun _ => none) text

end Token

end CodeFirst
