import CodeFirst.Document
import CodeFirst.Document.Lexeme

/-!
Reading of query documents. Every reader passes over what means nothing, takes what stands behind
it, and gives the shorter text that follows. Words of the language need no blank behind them, and
types of variables and type conditions hold no comments.
-/

namespace CodeFirst

namespace Document

open Lexeme

def mark? (c : Char) : (text : List Char) → Option (Found Char Unit text.length) :=
  afterIgnored fun text =>
    match text with
    | [] => none
    | d :: rest => if d = c then some ⟨(), rest, length_lt_cons d rest⟩ else none

def readName? : (text : List Char) → Option (Found Char String text.length) :=
  afterIgnored name?

end Document

namespace Literal

open Lexeme Document

/-- A number, a string or a word: whatever begins like a constant of the language is one, and what
follows it is left. -/
def plain? (text : List Char) : Option (Found Char Literal text.length) :=
  ((keyword? 't' ['r', 'u', 'e'] text).map (·.map fun _ => .boolean true)).or
    (((keyword? 'f' ['a', 'l', 's', 'e'] text).map (·.map fun _ => .boolean false)).or
      (((keyword? 'n' ['u', 'l', 'l'] text).map (·.map fun _ => .null)).or
        (((string? text).map (·.map .string)).or
          (((name? text).map (·.map .word)).or ((numeral? text).map (·.map ofNumeral))))))

/-- A variable behind its sign; a constant holds none. -/
def readVariable? (constant : Bool) (text : List Char) : Option (Found Char Literal text.length) :=
  if constant then none
  else do
    let sign ← mark? '$' text
    let name ← readName? sign.rest
    some ((name.map .variable).widen (Nat.le_of_lt sign.shorter))

mutual

def read? (constant : Bool) (text : List Char) : Option (Found Char Literal text.length) :=
  match mark? '[' text with
  | some bracket => do
    have := bracket.shorter
    let items ← readItems? constant bracket.rest
    some ((items.map ofItems).widen (Nat.le_of_lt bracket.shorter))
  | none =>
    match mark? '\x7b' text with
    | some brace => do
      have := brace.shorter
      let fields ← readFields? constant brace.rest
      some ((fields.map ofFields).widen (Nat.le_of_lt brace.shorter))
    | none => (readVariable? constant text).or (afterIgnored plain? text)
termination_by (text.length, 0)

def readItems? (constant : Bool) (text : List Char) :
    Option (Found Char (List Literal) text.length) :=
  match mark? ']' text with
  | some bracket => some (bracket.map fun _ => [])
  | none => do
    let item ← read? constant text
    have := item.shorter
    let items ← readItems? constant item.rest
    some ⟨item.value :: items.value, items.rest, Nat.lt_trans items.shorter item.shorter⟩
termination_by (text.length, 1)

def readFields? (constant : Bool) (text : List Char) :
    Option (Found Char (List (String × Literal)) text.length) :=
  match mark? '\x7d' text with
  | some brace => some (brace.map fun _ => [])
  | none => do
    let key ← readName? text
    let colon ← mark? ':' key.rest
    have := key.shorter
    have := colon.shorter
    let field ← read? constant colon.rest
    have := field.shorter
    let fields ← readFields? constant field.rest
    some ⟨(key.value, field.value) :: fields.value, fields.rest, by
      have := fields.shorter
      omega⟩
termination_by (text.length, 1)

end

end Literal

namespace Document

open Lexeme

/-- The arguments behind an opening parenthesis, at least one, and the closing parenthesis. -/
def readArgumentList? (text : List Char) :
    Option (Found Char (List (String × Literal)) text.length) := do
  let name ← readName? text
  let colon ← mark? ':' name.rest
  let value ← Literal.read? false colon.rest
  have := name.shorter
  have := colon.shorter
  have := value.shorter
  match mark? ')' value.rest with
  | some closing => some ⟨[(name.value, value.value)], closing.rest, by
      have := closing.shorter
      omega⟩
  | none =>
    let others ← readArgumentList? value.rest
    some ⟨(name.value, value.value) :: others.value, others.rest, by
      have := others.shorter
      omega⟩
termination_by text.length

/-- What may or may not stand at the head of a text, and the rest, which is no longer. -/
structure Optional (α : Type) (size : Nat) where
  value : α
  rest : List Char
  notLonger : rest.length ≤ size

/-- Arguments in parentheses, or none. -/
def readArguments? (text : List Char) :
    Option (Optional (List (String × Literal)) text.length) :=
  match mark? '(' text with
  | some opening => do
    let arguments ← readArgumentList? opening.rest
    some ⟨arguments.value, arguments.rest,
      Nat.le_of_lt (Nat.lt_trans arguments.shorter opening.shorter)⟩
  | none => some ⟨[], text, Nat.le_refl _⟩

/-- Directives, any number. -/
def readDirectives? (text : List Char) : Option (Optional (List Directive) text.length) :=
  match mark? '@' text with
  | some sign => do
    let name ← readName? sign.rest
    let arguments ← readArguments? name.rest
    have := sign.shorter
    have := name.shorter
    have := arguments.notLonger
    let others ← readDirectives? arguments.rest
    some ⟨⟨name.value, arguments.value⟩ :: others.value, others.rest, by
      have := others.notLonger
      omega⟩
  | none => some ⟨[], text, Nat.le_refl _⟩
termination_by text.length

/-- The name of a field, behind a label if there is one. -/
def readLabel? (text : List Char) : Option (Found Char (Option String × String) text.length) := do
  let first ← readName? text
  match mark? ':' first.rest with
  | some colon =>
    let name ← readName? colon.rest
    some ((name.map fun name => (some first.value, name)).widen
      (Nat.le_of_lt (Nat.lt_trans colon.shorter first.shorter)))
  | none => some (first.map fun name => (none, name))

def dots? : (text : List Char) → Option (Found Char Unit text.length) :=
  afterIgnored (keyword? '.' ['.', '.'])

/-- The type behind the word `on`, with nothing but ignored characters between them. -/
def condition? : (text : List Char) → Option (Found Char String text.length) :=
  afterIgnored fun text => do
    let on ← keyword? 'o' ['n'] text
    match on.rest with
    | [] => none
    | c :: _ =>
      if isIgnored c then do
        let name ← name? (on.rest.dropWhile isIgnored)
        some (name.widen (Nat.le_trans (List.dropWhile_suffix isIgnored).length_le
          (Nat.le_of_lt on.shorter)))
      else none

mutual

/-- A field, a spread or an inline fragment. -/
def readSelection? (text : List Char) : Option (Found Char Selection text.length) :=
  match dots? text with
  | some dots =>
    have := dots.shorter
    match condition? dots.rest with
    | some condition => do
      let directives ← readDirectives? condition.rest
      have := condition.shorter
      have := directives.notLonger
      let selections ← readSelections? directives.rest
      some ⟨.inline (some condition.value) directives.value selections.value, selections.rest, by
        have := selections.shorter
        omega⟩
    | none =>
      match readName? dots.rest with
      | some name => do
        let directives ← readDirectives? name.rest
        some ⟨.spread name.value directives.value, directives.rest, by
          have := name.shorter
          have := directives.notLonger
          omega⟩
      | none => do
        let directives ← readDirectives? dots.rest
        have := directives.notLonger
        let selections ← readSelections? directives.rest
        some ⟨.inline none directives.value selections.value, selections.rest, by
          have := selections.shorter
          omega⟩
  | none => do
    let head ← readLabel? text
    let arguments ← readArguments? head.rest
    let directives ← readDirectives? arguments.rest
    have := head.shorter
    have := arguments.notLonger
    have := directives.notLonger
    match mark? '\x7b' directives.rest with
    | some _ => do
      let selections ← readSelections? directives.rest
      some ⟨.field head.value.1 head.value.2 arguments.value directives.value selections.value,
        selections.rest, by
          have := selections.shorter
          omega⟩
    | none =>
      some ⟨.field head.value.1 head.value.2 arguments.value directives.value [],
        directives.rest, by omega⟩
termination_by (text.length, 0)

def readSelections? (text : List Char) : Option (Found Char (List Selection) text.length) :=
  match mark? '\x7b' text with
  | some brace => do
    have := brace.shorter
    let selections ← readSelectionList? brace.rest
    some (selections.widen (Nat.le_of_lt brace.shorter))
  | none => none
termination_by (text.length, 0)

def readSelectionList? (text : List Char) :
    Option (Found Char (List Selection) text.length) := do
  let selection ← readSelection? text
  have := selection.shorter
  match mark? '\x7d' selection.rest with
  | some brace => some ⟨[selection.value], brace.rest, Nat.lt_trans brace.shorter selection.shorter⟩
  | none =>
    let others ← readSelectionList? selection.rest
    some ⟨selection.value :: others.value, others.rest,
      Nat.lt_trans others.shorter selection.shorter⟩
termination_by (text.length, 1)

end

/-- A type with its non-null mark, if one stands right behind it. -/
def withMark {size : Nat} (type : Found Char TypeRef size) : Found Char TypeRef size :=
  match after : type.rest with
  | '!' :: rest => ⟨.nonNull type.value, rest, by
      have := type.shorter
      simp only [after, List.length_cons] at this
      omega⟩
  | _ => type

/-- The type of a variable, in which nothing is ignored. -/
def type? (text : List Char) : Option (Found Char TypeRef text.length) :=
  match text with
  | '[' :: rest => do
    let item ← type? rest
    match after : item.rest with
    | ']' :: behind => some (withMark ⟨.list item.value, behind, by
        have := item.shorter
        simp only [after, List.length_cons] at *
        omega⟩)
    | _ => none
  | text => (name? text).map fun name => withMark (name.map .named)

/-- The default of a variable, a constant, or none. -/
def readDefault? (text : List Char) : Option (Optional (Option Literal) text.length) :=
  match mark? '=' text with
  | some sign => do
    let literal ← Literal.read? true sign.rest
    some ⟨some literal.value, literal.rest,
      Nat.le_of_lt (Nat.lt_trans literal.shorter sign.shorter)⟩
  | none => some ⟨none, text, Nat.le_refl _⟩

/-- The variables behind an opening parenthesis, any number, and the closing parenthesis. -/
def readVariableList? (text : List Char) :
    Option (Found Char (List VariableDefinition) text.length) :=
  match mark? ')' text with
  | some closing => some (closing.map fun _ => [])
  | none => do
    let sign ← mark? '$' text
    let name ← readName? sign.rest
    let colon ← mark? ':' name.rest
    let type ← afterIgnored type? colon.rest
    let directives ← readDirectives? type.rest
    let default ← readDefault? directives.rest
    have := sign.shorter
    have := name.shorter
    have := colon.shorter
    have := type.shorter
    have := directives.notLonger
    have := default.notLonger
    let others ← readVariableList? default.rest
    some ⟨⟨name.value, type.value, directives.value, default.value⟩ :: others.value, others.rest, by
      have := others.shorter
      omega⟩
termination_by text.length

/-- The variables of an operation in parentheses, or none. -/
def readVariables? (text : List Char) :
    Option (Optional (List VariableDefinition) text.length) :=
  match mark? '(' text with
  | some opening => do
    let definitions ← readVariableList? opening.rest
    some ⟨definitions.value, definitions.rest,
      Nat.le_of_lt (Nat.lt_trans definitions.shorter opening.shorter)⟩
  | none => some ⟨[], text, Nat.le_refl _⟩

def readOptionalName (text : List Char) : Optional (Option String) text.length :=
  match readName? text with
  | some name => ⟨some name.value, name.rest, Nat.le_of_lt name.shorter⟩
  | none => ⟨none, text, Nat.le_refl _⟩

inductive Definition where
  | operation (operation : Operation)
  | fragment (name : String) (fragment : Fragment)

def readOperation? (kind : OperationKind) (text : List Char) :
    Option (Found Char Definition text.length) := do
  let name := readOptionalName text
  let definitions ← readVariables? name.rest
  let directives ← readDirectives? definitions.rest
  let selections ← readSelections? directives.rest
  some ⟨.operation ⟨kind, name.value, definitions.value, directives.value, selections.value⟩,
    selections.rest, by
      have := name.notLonger
      have := definitions.notLonger
      have := directives.notLonger
      have := selections.shorter
      omega⟩

def readFragment? (text : List Char) : Option (Found Char Definition text.length) := do
  let name ← readName? text
  let condition ← condition? name.rest
  let directives ← readDirectives? condition.rest
  let selections ← readSelections? directives.rest
  some ⟨.fragment name.value ⟨condition.value, directives.value, selections.value⟩,
    selections.rest, by
      have := name.shorter
      have := condition.shorter
      have := directives.notLonger
      have := selections.shorter
      omega⟩

def operationKind? : (text : List Char) → Option (Found Char OperationKind text.length) :=
  afterIgnored fun text =>
    ((keyword? 'q' ['u', 'e', 'r', 'y'] text).map (·.map fun _ => .query)).or
      (((keyword? 'm' ['u', 't', 'a', 't', 'i', 'o', 'n'] text).map (·.map fun _ => .mutation)).or
        ((keyword? 's' ['u', 'b', 's', 'c', 'r', 'i', 'p', 't', 'i', 'o', 'n'] text).map
          (·.map fun _ => .subscription)))

/-- A definition; an operation that only queries needs neither keyword nor name. -/
def readDefinition? (text : List Char) : Option (Found Char Definition text.length) :=
  match operationKind? text with
  | some kind => do
    let operation ← readOperation? kind.value kind.rest
    some (operation.widen (Nat.le_of_lt kind.shorter))
  | none =>
    match afterIgnored (keyword? 'f' ['r', 'a', 'g', 'm', 'e', 'n', 't']) text with
    | some keyword => do
      let fragment ← readFragment? keyword.rest
      some (fragment.widen (Nat.le_of_lt keyword.shorter))
    | none => do
      let selections ← readSelections? text
      some (selections.map fun selections => .operation ⟨.query, none, [], [], selections⟩)

/-- All definitions of a document, at least one. -/
def readDefinitions? (text : List Char) : Option (List Definition) := do
  let first ← readDefinition? text
  have := first.shorter
  if (skip first.rest).isEmpty then some [first.value]
  else
    let others ← readDefinitions? first.rest
    some (first.value :: others)
termination_by text.length

end Document

end CodeFirst
