import CodeFirst.Declaration.Error

/-!
Checking and normalising of declarations: a declaration becomes the record to keep, or the first
rule that it breaks.
-/

namespace CodeFirst

/-- A type name with the canonical spelling of scalars, and whether it names a composite type. -/
def classify (name : String) : String × Bool :=
  match Scalar.canonicalName? name with
  | some canonical => (canonical, false)
  | none => (name, true)

/-- These introspected names agree with every declared type. -/
def isExempt (introspected : String) : Bool :=
  introspected = "Boolean" || introspected = "Number"

/-- An introspected name agrees with a declared element type: a composite type with the same name, a
scalar with any name that the catalog maps to the same canonical one. -/
def agrees (introspected declared : String) : Bool :=
  let (type, isCustom) := classify declared
  let reflected := if isCustom then some introspected else Scalar.canonicalName? introspected
  isExempt introspected || reflected = some type

namespace FieldDeclaration

def caller (declaration : FieldDeclaration) : String :=
  DeclarationError.caller declaration.owner declaration.member

def known (introspect : Introspector) (declaration : FieldDeclaration) : Option Introspected :=
  declaration.introspected.or (introspect (.member declaration.owner declaration.member))

/-- The type to keep: the given one, or for a property the name that introspection knows. -/
def type? (known : Option Introspected) (declaration : FieldDeclaration) :
    Except DeclarationError DeclaredType :=
  match declaration.returns with
  | some declared => .ok declared
  | none =>
    if declaration.memberKind = .method then .error (.methodWithoutType declaration.caller)
    else
      match known with
      | some (.named name) => .ok (.named name)
      | some .list => .error (.arrayWithoutType declaration.caller)
      | some .untyped => .error (.unknownType declaration.caller)
      | none => .error (.unknownType declaration.caller)

/-- The options to keep: nothing comes back from a field of no type, so it is nullable. -/
def options? (declaration : FieldDeclaration) (element : String) : FieldOptions :=
  let options := declaration.options.getD {}
  if Scalar.ofName? element = some .void then { options with nullable := some true } else options

/-- The field to keep for an accepted declaration of a type. -/
def field (declaration : FieldDeclaration) (kind : FieldKind) (declared : DeclaredType) :
    Field where
  owner := declaration.owner
  name := declaration.member
  type := (classify declared.element).1
  isArray := declared.isList
  isMethod := declaration.memberKind = .method
  isCustom := (classify declared.element).2
  hasResolver := kind ≠ .plain
  kind := kind
  options := declaration.options? declared.element

/-- Checks a declaration. An operation must be a method; the type must be given or known; what is
known of it by name must agree. -/
def process (introspect : Introspector) (declaration : FieldDeclaration) (kind : FieldKind) :
    Except DeclarationError Field := do
  if kind ≠ .plain ∧ declaration.memberKind ≠ .method then
    throw (.operationOnProperty declaration.caller declaration.memberKind.word kind.word)
  let known := declaration.known introspect
  let declared ← declaration.type? known
  match known with
  | some (.named name) =>
    if agrees name declared.element then return declaration.field kind declared
    else throw (.typeMismatch declaration.caller declaration.memberKind.word name declared.element)
  | _ => return declaration.field kind declared

end FieldDeclaration

namespace ArgumentDeclaration

/-- The type of an argument: the given one, or the name that introspection knows. -/
def type? (introspect : Introspector) (declaration : ArgumentDeclaration) (name : String) :
    Except DeclarationError String :=
  let caller := DeclarationError.argumentCaller declaration.owner declaration.method name
  match declaration.type with
  | some given => .ok given
  | none =>
    match introspect (.parameter declaration.owner declaration.method declaration.index) with
    | some (.named known) => .ok known
    | some .list => .error (.unknownType caller)
    | some .untyped => .error (.unknownType caller)
    | none => .error (.argumentWithoutType caller)

/-- Checks a declaration. An argument must have a name, and its type must be given or known. -/
def process (introspect : Introspector) (declaration : ArgumentDeclaration) :
    Except DeclarationError Argument := do
  let name := declaration.name.getD ""
  if name = "" then
    throw (.unnamedArgument declaration.owner declaration.method declaration.index)
  let type ← declaration.type? introspect name
  return {
    owner := declaration.owner
    method := declaration.method
    name := name
    type := (classify type).1
    isCustom := (classify type).2
    index := declaration.index }

end ArgumentDeclaration

end CodeFirst
