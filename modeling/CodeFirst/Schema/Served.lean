import CodeFirst.Schema.Check
import CodeFirst.Schema.TypeForm

/-!
The types of a schema as documents see them, built-in types included. Documents know types by their
texts alone.
-/

namespace CodeFirst

structure ServedInput where
  type : TypeForm
  description : Option String := none
  /-- The text of the default. -/
  default : Option String := none

def ServedInput.isRequired (input : ServedInput) : Bool :=
  input.type.isNonNull && input.default.isNone

structure ServedField where
  type : TypeForm
  description : Option String := none
  arguments : Keyed ServedInput := []

inductive ServedKind where
  | scalar
  /-- The words of an enumeration, with their descriptions. -/
  | enumeration (words : Keyed String)
  | object (fields : Keyed ServedField)
  | input (fields : Keyed ServedInput)

structure ServedType where
  description : Option String := none
  kind : ServedKind

structure Served where
  queryRoot : String
  mutationRoot : Option String
  types : Keyed ServedType

namespace ServedType

/-- The types that a type mentions: those of its fields and of their arguments. -/
def mentioned (type : ServedType) : List TypeForm :=
  match type.kind with
  | .scalar => []
  | .enumeration _ => []
  | .object fields =>
    fields.flatMap fun (_, field) =>
      field.type :: (Keyed.values field.arguments).map (·.type)
  | .input fields => (Keyed.values fields).map (·.type)

end ServedType

namespace Served

/-- The constants of a scalar. Integers are those of a signed word of 64 bits, which end below
`2 ^ 63`, and may be identifiers. -/
def scalarHolds (scalar : String) : Value → Bool
  | .number (.integer value _) =>
    scalar = "Float" || ((scalar = "Int" || scalar = "ID") && value < 9223372036854775808)
  | .number (.double ..) => scalar = "Float"
  | .string _ => scalar = "String" || scalar = "ID"
  | .boolean _ => scalar = "Boolean"
  | _ => false

variable (served : Served)

def knows (name : String) : Bool :=
  (served.types.lookup name).isSome

/-- The name, if there is a type of this name. -/
def known? (name : String) : Option String :=
  if served.knows name then some name else none

def kind? (name : String) : Option ServedKind :=
  (served.types.lookup name).map (·.kind)

/-- Scalars and enumerations have no fields to select. -/
def isLeaf (name : String) : Bool :=
  match served.kind? name with
  | some .scalar => true
  | some (.enumeration _) => true
  | _ => false

def objectFields? (name : String) : Option (Keyed ServedField) :=
  match served.kind? name with
  | some (.object fields) => some fields
  | _ => none

def isObject (name : String) : Bool :=
  (served.objectFields? name).isSome

def fieldNames (name : String) : List String :=
  ((served.objectFields? name).map Keyed.names).getD []

def field? (type field : String) : Option ServedField :=
  (served.objectFields? type).bind (·.lookup field)

/-- Adds to the reached types those that are pending and known, and all that these lead to, depth
first. -/
def reach (reached : List String) : List TypeForm → Except Breakdown (List String)
  | [] => .ok reached
  | form :: rest =>
    match form.base with
    | .error cause => .error cause
    | .ok name =>
      if _ : name ∈ reached then reach reached rest
      else
        match _found : served.types.lookup name with
        | none => reach reached rest
        | some type => reach (reached ++ [name]) (type.mentioned ++ rest)
termination_by pending => ((served.types.outside reached).length, pending.length)
decreasing_by
  · exact .right _ (by simp)
  · exact .right _ (by simp)
  · exact .left _ _
      (Keyed.outside_length_lt _found (by assumption) (by simp) (by simp +contextual))

def reachable : Except Breakdown (List String) :=
  served.reach [] ((served.queryRoot :: served.mutationRoot.toList).map .named)

end Served

end CodeFirst
