import CodeFirst.Declaration.Error
import CodeFirst.Injector

/-!
Why a schema is not compiled, and all causes for which declarations come to nothing.
-/

namespace CodeFirst

inductive CompileError where
  | inputAsOutput (name : String)
  | outputAsInput (name : String)
  | unhandledScalar (name : String)
  | noQueryFields
  | typeWithoutField (name : String)
  | noResolver (owner kind field : String)
  | argumentGap (owner method : String) (index : Nat)
deriving DecidableEq, Inhabited

namespace CompileError

/-- A fault of the library rather than of the declarations. -/
def isInternal : CompileError → Bool
  | .unhandledScalar _ => true
  | _ => false

def code : CompileError → String
  | .inputAsOutput _ => "INPUT_AS_OUTPUT"
  | .outputAsInput _ => "OUTPUT_AS_INPUT"
  | .unhandledScalar _ => "UNHANDLED_SCALAR"
  | .noQueryFields => "NO_QUERY_FIELDS_FOUND"
  | .typeWithoutField _ => "TYPE_NO_FIELD_DECORATOR"
  | .noResolver .. => "RESOLVER_NO_DECORATOR"
  | .argumentGap .. => "ARGUMENT_INDEX_GAP"

def message : CompileError → String
  | .inputAsOutput name => "Input type '" ++ name ++ "' used as return"
  | .outputAsInput name => "Output type '" ++ name ++ "' used as input"
  | .unhandledScalar name => "Unhandled scalar type - " ++ name
  | .noQueryFields => "No query fields found"
  | .typeWithoutField name =>
    "[" ++ name ++ "]: does not declare any field; but is referenced by a resolver"
  | .noResolver owner kind field =>
    "No resolver bound to '" ++ owner ++ "' for " ++ kind ++ " '" ++ field ++ "'"
  | .argumentGap owner method index =>
    owner ++ " > " ++ method ++ ": no argument declared at index " ++ toString index

end CompileError

/-- Any cause for which a declaration, a construction or a compilation fails. -/
inductive Fault where
  | declaration (error : DeclarationError)
  | injection (error : InjectionError)
  | compilation (error : CompileError)
deriving DecidableEq

namespace Fault

def isInternal : Fault → Bool
  | .compilation error => error.isInternal
  | _ => false

def code : Fault → String
  | .declaration error => error.code
  | .injection error => error.code
  | .compilation error => error.code

def message : Fault → String
  | .declaration error => error.message
  | .injection error => error.message
  | .compilation error => error.message

end Fault

end CodeFirst
