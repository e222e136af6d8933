import CodeFirst.Document.Validation
import CodeFirst.Execution

/-!
A session answers documents against a schema. Variables are written into the text of a document
before it is read.
-/

namespace CodeFirst

inductive SessionError where
  | execution (messages : List String)
  | badVariables (message : String)
  | decode (error : DecodeError)
  | breakdown (cause : Breakdown)

namespace SessionError

/-- What a document that is not run means for its session. -/
def ofDocument : DocumentError → SessionError
  | .breakdown cause => .breakdown cause
  | error => .execution error.messages

def code : SessionError → String
  | .execution _ => "EXECUTION_FAILED"
  | .badVariables _ => "INVALID_VARIABLES"
  | .decode _ => "DECODE_FAILED"
  | .breakdown _ => "BREAKDOWN"

def messages : SessionError → List String
  | .execution messages => messages
  | .badVariables _ => []
  | .decode _ => []
  | .breakdown _ => []

def message : SessionError → String
  | .execution messages => String.intercalate "\n" messages
  | .badVariables message => "Invalid variables: " ++ message
  | .decode error => "Failed to decode result: " ++ error.message
  | .breakdown cause => cause.message

end SessionError

namespace Variables

/-- The document with its variables written out; without variables it stays as it is. -/
def substituteIn (document : String) : Option Json → Except SessionError String
  | none => .ok document
  | some given =>
    match substitute document given with
    | .ok text => .ok text
    | .error kind =>
      .error (.badVariables ("expected an object of variables, got " ++ kind))

end Variables

namespace Schema

variable {σ ρ : Type}

/-- Answers a document. Any error makes the whole answer an error, but the state of the resolvers
stays as the calls left it. -/
def execute (schema : Schema ρ) (call : Caller σ ρ) (document : String) (given : Option Json)
    (state : σ) : Except SessionError Json × σ :=
  match Variables.substituteIn document given with
  | .error error => (.error error, state)
  | .ok text =>
    match Validation.accept schema text with
    | .error error => (.error (.ofDocument error), state)
    | .ok operation =>
      match Validation.rootOf schema.served operation.kind with
      | none => (.error (.execution [(Violation.noRoot operation.kind).message]), state)
      | some root =>
        match Execution.run schema call root operation state with
        | (.error cause, progress) => (.error (.breakdown cause), progress.state)
        | (.ok data, progress) =>
          if progress.errors.isEmpty then (.ok data, progress.state)
          else (.error (.execution (progress.errors.map FieldError.message)), progress.state)

/-- Answers a document with data of a shape. -/
def executeAs (schema : Schema ρ) (call : Caller σ ρ) (shape : Shape) (document : String)
    (given : Option Json) (state : σ) : Except SessionError Json × σ :=
  match schema.execute call document given state with
  | (.error error, after) => (.error error, after)
  | (.ok data, after) =>
    match shape.decode data with
    | .ok value => (.ok value, after)
    | .error error => (.error (.decode error), after)

end Schema

end CodeFirst
