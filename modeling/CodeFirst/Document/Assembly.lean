import CodeFirst.Document.Reader

/-!
Documents from the definitions of a text, or why a text is none. A text that is not well formed is
refused as a whole; of all else the first in the order of the text counts, and only then whether the
definitions go together.
-/

namespace CodeFirst

inductive ReadError where
  | malformed
  /-- A number is beyond the doubles. -/
  | overflow
  | nestsTooDeep
  /-- One of them has no name. -/
  | severalOperations
  | operationTwice (name : String)
  | fragmentTwice (name : String)
  | noOperation
deriving DecidableEq

def ReadError.message : ReadError → String
  | .malformed => "The document is not well formed"
  | .overflow => "A number of the document is out of range"
  | .nestsTooDeep => "recursion limit exceeded."
  | .severalOperations => "document contains multiple operations"
  | .operationTwice name => "operation " ++ name ++ " is defined twice"
  | .fragmentTwice name => "fragment " ++ name ++ " is defined twice"
  | .noOperation => "document does not contain an operation"

/-- Why the arguments of a field and the directives behind them are refused. -/
def Directive.refusal? (arguments : List (String × Literal)) (directives : List Directive) :
    Option ReadError :=
  if (arguments ++ directives.flatMap (·.arguments)).any (·.2.overflows) then some .overflow
  else none

namespace Selection

/-- Selections may nest this deep within those of an operation or fragment as it is written. -/
def writtenLimit : Nat := 64

mutual

/-- Why a selection is refused that is nested to a depth. -/
def refusal? (depth : Nat) : Selection → Option ReadError
  | .field _ _ arguments directives selections =>
    (Directive.refusal? arguments directives).or
      (if selections.isEmpty then none
      else if depth < writtenLimit then firstRefusal? (depth + 1) selections
      else some .nestsTooDeep)
  | .spread _ directives => Directive.refusal? [] directives
  | .inline _ directives selections =>
    (Directive.refusal? [] directives).or
      (if depth < writtenLimit then firstRefusal? (depth + 1) selections
      else some .nestsTooDeep)

def firstRefusal? (depth : Nat) : List Selection → Option ReadError
  | [] => none
  | selection :: rest => (refusal? depth selection).or (firstRefusal? depth rest)

end

end Selection

def VariableDefinition.refusal? (definition : VariableDefinition) : Option ReadError :=
  (Directive.refusal? [] definition.directives).or
    (if definition.default.any Literal.overflows then some .overflow else none)

namespace Document

/-- Why a definition is refused: for the first in the order of its text. -/
def Definition.refusal? : Definition → Option ReadError
  | .operation read =>
    ((read.definitions.findSome? VariableDefinition.refusal?).or
      (Directive.refusal? [] read.directives)).or
      (Selection.firstRefusal? 0 read.selections)
  | .fragment _ read =>
    (Directive.refusal? [] read.directives).or
      (Selection.firstRefusal? 0 read.selections)

/-- What stands against an operation of a name behind others: without a name it must be the only
one, and no name may stand for two. -/
def clash? (operations : List Operation) (name : Option String) : Option ReadError :=
  match name with
  | none => if operations.isEmpty then none else some .severalOperations
  | some name =>
    if operations.any (·.name = none) then some .severalOperations
    else if operations.any (·.name = some name) then some (.operationTwice name)
    else none

def add (document : Document) : Definition → Except ReadError Document
  | .operation operation =>
    match clash? document.operations operation.name with
    | some error => .error error
    | none => .ok { document with operations := document.operations ++ [operation] }
  | .fragment name fragment =>
    if (document.fragments.lookup name).isSome then .error (.fragmentTwice name)
    else .ok { document with fragments := document.fragments ++ [(name, fragment)] }

/-- The document of a text, which must hold an operation. -/
def read (text : String) : Except ReadError Document := do
  let some definitions := readDefinitions? text.toList | throw .malformed
  if let some refusal := definitions.findSome? Definition.refusal? then throw refusal
  let document ← definitions.foldlM add ⟨[], []⟩
  if document.operations.isEmpty then throw .noOperation
  return document

end Document

end CodeFirst
