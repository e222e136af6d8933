import CodeFirst.Document
import CodeFirst.Schema.Served

/-!
Whether a constant fits an input type, and if not where and why. Where a type is met that is not
known or cannot be read, neither can be told.
-/

namespace CodeFirst

inductive Misfit.Reason where
  | expected (type : String)
  | unknownWord (word type : String)
  | missingField (field type : String)
  | unknownField (field type : String)
deriving DecidableEq

/-- A constant that does not fit, at a path of names and positions. -/
structure Misfit where
  path : List String
  reason : Misfit.Reason
deriving DecidableEq

namespace Misfit

def Reason.text : Reason → String
  | .expected type => "expected type \"" ++ type ++ "\""
  | .unknownWord word type =>
    "enumeration type \"" ++ type ++ "\" does not contain the value \"" ++ word ++ "\""
  | .missingField field type =>
    "field \"" ++ field ++ "\" of type \"" ++ type ++ "\" is required but not provided"
  | .unknownField field type => "unknown field \"" ++ field ++ "\" of type \"" ++ type ++ "\""

def text (misfit : Misfit) : String :=
  "\"" ++ String.intercalate "." misfit.path ++ "\", " ++ misfit.reason.text

end Misfit

/-- What stands against a constant: it does not fit, or what it should fit cannot be told. -/
inductive Objection where
  | misfit (misfit : Misfit)
  | breakdown (cause : Breakdown)
deriving DecidableEq

namespace Served

/-- Why a constant is none of the words of an enumeration; a string may stand for a word. -/
def wordMisfit? (type : String) (words : Keyed String) : Value → Option Misfit.Reason
  | .word word => if (words.lookup word).isSome then none else some (.unknownWord word type)
  | .string word => if (words.lookup word).isSome then none else some (.unknownWord word type)
  | _ => some (.expected type)

theorem sizeOf_lt_of_lookup {fields : List (String × Value)} {key : String} {value : Value}
    (h : fields.lookup key = some value) : sizeOf value < sizeOf fields := by
  induction fields with
  | nil => simp at h
  | cons head tail ih =>
    obtain ⟨other, item⟩ := head
    simp only [List.lookup_cons] at h
    split at h
    · cases h
      simp only [List.cons.sizeOf_spec, Prod.mk.sizeOf_spec]
      omega
    · have := ih h
      simp only [List.cons.sizeOf_spec]
      omega

def firstObjection : List (Option Objection) → Option Objection
  | [] => none
  | some objection :: _ => some objection
  | none :: rest => firstObjection rest

/-- The first objection to a constant of a type. Null fits every type but a non-null one, even one
that is not known; what is no list is taken as the one element of a list; what is no object fits
every input object. -/
def objection? (served : Served) (path : List String) (type : TypeForm) (value : Value) :
    Option Objection :=
  match type, value with
  | .torn behind, _ => some (.breakdown (.torn behind))
  | .nonNull _ inner, .null => some (.misfit ⟨path, .expected inner.text⟩)
  | .nonNull _ inner, value => objection? served path inner value
  | _, .null => none
  | .list _ item, .list values =>
    firstObjection (values.attach.zipIdx.map fun (⟨value, _⟩, index) =>
      objection? served (path ++ [toString index]) item value)
  | .list _ item, value => objection? served path item value
  | .named name, value =>
    match served.kind? name, value with
    | none, _ => some (.breakdown (.unknownToFit name))
    | some .scalar, value =>
      if scalarHolds name value then none else some (.misfit ⟨path, .expected name⟩)
    | some (.enumeration words), value =>
      (wordMisfit? name words value).map fun reason => .misfit ⟨path, reason⟩
    | some (.input declared), .object fields =>
      (firstObjection (declared.map fun (key, field) =>
        match _found : fields.lookup key with
        | some value => objection? served (path ++ [key]) field.type value
        | none =>
          (field.type.breakdown?.map .breakdown).or
            (if field.isRequired then some (.misfit ⟨path, .missingField key field.type.text⟩)
            else none))).or
        ((fields.find? fun field => (declared.lookup field.1).isNone).map fun field =>
          .misfit ⟨path, .unknownField field.1 name⟩)
    | _, _ => none
termination_by (sizeOf value, sizeOf type)
decreasing_by
  · exact .right _ (by simp only [TypeForm.nonNull.sizeOf_spec]; omega)
  · exact .left _ _ (Nat.lt_trans (List.sizeOf_lt_of_mem ‹_ ∈ values›) (by simp))
  · exact .right _ (by simp only [TypeForm.list.sizeOf_spec]; omega)
  · exact .left _ _ (Nat.lt_trans (sizeOf_lt_of_lookup _found) (by simp))

def inputFields? (served : Served) (name : String) : Option (Keyed ServedInput) :=
  match served.kind? name with
  | some (.input fields) => some fields
  | _ => none

mutual

/-- What the types of a literal and of its parts break down at. The type of a part is read whether
the part fits or not; what has a part that is a variable is read like any other. -/
def breakdown? (served : Served) (type : TypeForm) : Literal → Option Breakdown
  | .list items =>
    match type.unmarked with
    | .list _ item => itemsBreakdown? served item items
    | form => form.breakdown?
  | .object fields =>
    match type.unmarked with
    | .named name => fieldsBreakdown? served ((served.inputFields? name).getD []) fields
    | form => form.breakdown?
  | .variable _ => type.breakdown?
  | .null => type.breakdown?
  | .boolean _ => type.breakdown?
  | .number _ => type.breakdown?
  | .string _ => type.breakdown?
  | .word _ => type.breakdown?
  | .overflow => type.breakdown?

def itemsBreakdown? (served : Served) (type : TypeForm) : List Literal → Option Breakdown
  | [] => none
  | item :: rest => (breakdown? served type item).or (itemsBreakdown? served type rest)

def fieldsBreakdown? (served : Served) (declared : Keyed ServedInput) :
    List (String × Literal) → Option Breakdown
  | [] => none
  | (key, field) :: rest =>
    (match declared.lookup key with
      | some input => breakdown? served input.type field
      | none => none).or (fieldsBreakdown? served declared rest)

end

end Served

end CodeFirst
