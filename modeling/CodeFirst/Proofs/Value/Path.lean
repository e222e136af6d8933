import CodeFirst.Proofs.Value.Json
import Mathlib.Data.List.Induction

/-! Paths into data. What a path comes to among resolved values is what it finds in the JSON that
they were made of: lists are resolved to the last element, however deep they are nested, and members
when their key is asked for. -/
namespace CodeFirst

/-- One step into data: to the member of a key, or to a position of a list. -/
inductive Access where
  | key (name : String)
  | position (index : Nat)

namespace Access

def isPosition : Access → Bool
  | .key _ => false
  | .position _ => true

/-- Takes the steps of a path one after the other, as long as there is something to step from. -/
def follow {δ : Type} (access? : δ → Access → Option δ) (start : Option δ) (path : List Access) :
    Option δ :=
  path.foldl (fun found access => found.bind (access? · access)) start

variable {δ : Type} {access? : δ → Access → Option δ} {start : Option δ} {first : δ}
  {path : List Access}

theorem follow_concat (access : Access) :
    follow access? start (path ++ [access]) =
      (follow access? start path).bind (access? · access) := by
  unfold follow
  rw [List.foldl_concat]

theorem follow_cons (access : Access) :
    follow access? (some first) (access :: path) = follow access? (access? first access) path := rfl

theorem follow_none (path : List Access) : follow access? none path = none := by
  induction path with
  | nil => rfl
  | cons access rest ih => exact ih

/-- A path leads nowhere exactly if the first steps of it lead to something from which the next does
not go on. -/
theorem follow_eq_none :
    follow access? (some first) path = none ↔
      ∃ before access after parent, path = before ++ access :: after ∧
        follow access? (some first) before = some parent ∧ access? parent access = none := by
  induction path generalizing first with
  | nil =>
      constructor
      · intro lost
        cases lost
      · rintro ⟨before, access, after, parent, same, -⟩
        cases before <;> cases same
  | cons access rest ih =>
      rw [follow_cons]
      cases next : access? first access with
      | none =>
          rw [follow_none]
          exact iff_of_true rfl ⟨[], access, rest, first, rfl, rfl, next⟩
      | some second =>
          rw [ih]
          constructor
          · rintro ⟨before, other, after, parent, rfl, found, lost⟩
            refine ⟨access :: before, other, after, parent, rfl, ?_, lost⟩
            rw [follow_cons, next]
            exact found
          · rintro ⟨before, other, after, parent, same, found, lost⟩
            cases before with
            | nil =>
                cases same
                cases found
                cases next.symm.trans lost
            | cons head before =>
                cases same
                rw [follow_cons, next] at found
                exact ⟨before, other, after, parent, rfl, found, lost⟩

end Access

namespace Json

def access? : Json → Access → Option Json
  | .object members, .key name => members.lookup name
  | .array items, .position index => items[index]?
  | _, _ => none

/-- What a path finds in JSON. -/
def at? (json : Json) (path : List Access) : Option Json :=
  Access.follow access? (some json) path

/-- Why a step finds nothing. -/
inductive Misses : Json → Access → Prop
  | keyMissing {members name} : name ∉ Keyed.names members → Misses (.object members) (.key name)
  | noObject {parent name} : (∀ members, parent ≠ .object members) → Misses parent (.key name)
  | positionMissing {items index} : items.length ≤ index →
      Misses (.array items) (.position index)
  | noList {parent index} : (∀ items, parent ≠ .array items) → Misses parent (.position index)

theorem access?_eq_none {parent : Json} {access : Access} :
    parent.access? access = none ↔ parent.Misses access := by
  constructor
  · intro lost
    cases access with
    | key name =>
        cases parent with
        | object members => exact .keyMissing (Keyed.lookup_eq_none.mp lost)
        | _ => exact .noObject nofun
    | position index =>
        cases parent with
        | array items => exact .positionMissing (List.getElem?_eq_none_iff.mp lost)
        | _ => exact .noList nofun
  · intro misses
    cases misses with
    | keyMissing absent => exact Keyed.lookup_eq_none.mpr absent
    | noObject other =>
        cases parent with
        | object members => exact absurd rfl (other members)
        | _ => rfl
    | positionMissing beyond => exact List.getElem?_eq_none_iff.mpr beyond
    | noList other =>
        cases parent with
        | array items => exact absurd rfl (other items)
        | _ => rfl

/-- A path finds nothing exactly if there is a step on it that misses. -/
theorem at?_eq_none {json : Json} {path : List Access} :
    json.at? path = none ↔ ∃ before access after parent, path = before ++ access :: after ∧
      json.at? before = some parent ∧ parent.Misses access := by
  simp only [at?, Access.follow_eq_none, access?_eq_none]

end Json

namespace FieldValue

/-- One step among resolved values. A member is resolved when it is taken out of its parent; an
element of a list already is. -/
def access? (parent : FieldValue) : Access → Option FieldValue
  | .key name => (parent.member? name).bind ofValue?
  | .position index =>
    match parent with
    | .list items => items[index]?
    | .value _ => none

/-- What a path comes to from what JSON resolves to. -/
def at? (json : Json) (path : List Access) : Option FieldValue :=
  Access.follow access? (ofValue? (Value.ofJson json)) path

theorem at?_concat (json : Json) (path : List Access) (access : Access) :
    at? json (path ++ [access]) = (at? json path).bind (·.access? access) :=
  Access.follow_concat access

/-- JSON as an element of a list, where null is a value too. -/
def element (json : Json) : FieldValue :=
  (ofValue? (Value.ofJson json)).getD (.value .null)

/-- JSON at the end of a path: as an element if the path ends at a position of a list. -/
def shown (path : List Access) (json : Json) : Option FieldValue :=
  if path.getLast?.any Access.isPosition then some (element json) else ofValue? (Value.ofJson json)

theorem shown_key (path : List Access) (name : String) (json : Json) :
    shown (path ++ [.key name]) json = ofValue? (Value.ofJson json) := by
  unfold shown
  rw [List.getLast?_concat]
  rfl

theorem shown_position (path : List Access) (index : Nat) (json : Json) :
    shown (path ++ [.position index]) json = some (element json) := by
  unfold shown
  rw [List.getLast?_concat]
  rfl

theorem ofItems_eq (items : List Json) : ofItems (Value.ofItems items) = items.map element := by
  induction items with
  | nil => rfl
  | cons item rest ih => exact congrArg (List.cons (element item)) ih

theorem ofMembers_eq (members : Keyed Json) :
    Value.ofMembers members = members.map fun member => (member.1, Value.ofJson member.2) := by
  induction members with
  | nil => rfl
  | cons member rest ih => exact congrArg (List.cons _) ih

theorem ofValue?_array (items : List Json) :
    ofValue? (Value.ofJson (.array items)) = some (.list (items.map element)) := by
  rw [← ofItems_eq]
  rfl

theorem ofValue?_object (members : Keyed Json) :
    ofValue? (Value.ofJson (.object members)) =
      some (.value (.object (members.map fun member => (member.1, Value.ofJson member.2)))) := by
  rw [← ofMembers_eq]
  rfl

theorem ofValue?_number (amount : Number) :
    ofValue? (Value.ofJson (.number amount)) = some (.value (.number amount)) := by
  rw [Value.ofJson, Value.ofNumber_eq]
  rfl

theorem ofValue?_eq_none {json : Json} : ofValue? (Value.ofJson json) = none ↔ json = .null := by
  cases json with
  | null => exact iff_of_true rfl rfl
  | number amount => simp [ofValue?_number]
  | boolean flag => simp [Value.ofJson, ofValue?]
  | string text => simp [Value.ofJson, ofValue?]
  | array items => simp [Value.ofJson, ofValue?]
  | object members => simp [Value.ofJson, ofValue?]

theorem ofValue?_eq_list {json : Json} {values : List FieldValue} :
    ofValue? (Value.ofJson json) = some (.list values) ↔
      ∃ items, json = .array items ∧ items.map element = values := by
  cases json with
  | array items => simp [ofValue?_array]
  | number amount => simp [ofValue?_number]
  | null => simp [Value.ofJson, ofValue?]
  | boolean flag => simp [Value.ofJson, ofValue?]
  | string text => simp [Value.ofJson, ofValue?]
  | object members => simp [Value.ofJson, ofValue?]

theorem ofValue?_ne_null (value : Value) : ofValue? value ≠ some (.value .null) := by
  cases value <;> exact nofun

/-- No list is resolved to one value. -/
theorem ofValue?_ne_list (value : Value) (inner : List Value) :
    ofValue? value ≠ some (.value (.list inner)) := by
  cases value <;> exact nofun

/-- From null no step goes on, so it makes no difference whether it is a value. -/
theorem access?_getD (found : Option FieldValue) (access : Access) :
    (found.getD (.value .null)).access? access = found.bind (·.access? access) := by
  cases found with
  | some parent => rfl
  | none => cases access <;> rfl

theorem access?_shown (path : List Access) (json : Json) (access : Access) :
    (shown path json).bind (·.access? access) =
      (ofValue? (Value.ofJson json)).bind (·.access? access) := by
  unfold shown
  split
  · exact access?_getD _ access
  · rfl

/-- A step from resolved JSON comes to what it finds in the JSON. -/
theorem access?_ofJson (path : List Access) (json : Json) (access : Access) :
    (ofValue? (Value.ofJson json)).bind (·.access? access) =
      (json.access? access).bind (shown (path ++ [access])) := by
  cases json with
  | null => cases access <;> rfl
  | boolean flag => cases access <;> rfl
  | number amount =>
      rw [ofValue?_number]
      cases access <;> rfl
  | string text => cases access <;> rfl
  | array items =>
      rw [ofValue?_array]
      cases access with
      | key name => rfl
      | position index =>
          simp only [Option.bind_some, access?, Json.access?, List.getElem?_map]
          cases items[index]? with
          | none => rfl
          | some item => exact (shown_position path index item).symm
  | object members =>
      rw [ofValue?_object]
      cases access with
      | position index => rfl
      | key name =>
          simp only [Option.bind_some, access?, member?, Json.access?, Keyed.lookup_map]
          cases members.lookup name with
          | none => rfl
          | some value => exact (shown_key path name value).symm

/-- A path comes to what it finds in the JSON. -/
theorem at?_eq (json : Json) (path : List Access) :
    at? json path = (json.at? path).bind (shown path) := by
  induction path using List.reverseRecOn with
  | nil => rfl
  | append_singleton path access ih =>
      calc at? json (path ++ [access])
          = (at? json path).bind (·.access? access) := at?_concat json path access
        _ = (json.at? path).bind fun found => (shown path found).bind (·.access? access) := by
          rw [ih, Option.bind_assoc]
        _ = (json.at? path).bind fun found =>
            (found.access? access).bind (shown (path ++ [access])) := by
          simp only [access?_shown, access?_ofJson path]
        _ = (json.at? (path ++ [access])).bind (shown (path ++ [access])) := by
          rw [Json.at?, Json.at?, Access.follow_concat, Option.bind_assoc]

/-- The null in a list of lists is a value, and beyond it there is none. -/
example : let rows : Json := .array [.array [], .array [.null, .boolean true]]
    at? (.object [("rows", rows)]) [.key "rows", .position 1, .position 0] = some (.value .null) ∧
      at? (.object [("rows", rows)]) [.key "rows", .position 1, .position 0, .key "id"] = none := by
  exact ⟨rfl, rfl⟩

end FieldValue

end CodeFirst
