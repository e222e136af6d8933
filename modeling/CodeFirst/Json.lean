import CodeFirst.Number

/-!
JSON values. The members of an object are kept in the order of their keys.
-/

namespace CodeFirst

inductive Json where
  | null
  | boolean (value : Bool)
  | number (value : Number)
  | string (value : String)
  | array (items : List Json)
  | object (members : List (String × Json))
deriving Inhabited, BEq

namespace Json

/-- Puts a member into members that ascend by key; a member of the same key gives way. -/
def insertMember (key : String) (value : Json) : List (String × Json) → List (String × Json)
  | [] => [(key, value)]
  | (other, old) :: rest =>
    if key < other then (key, value) :: (other, old) :: rest
    else if other < key then (other, old) :: insertMember key value rest
    else (key, value) :: rest

/-- The object of given members: ascending keys, and of members of one key the last. -/
def ofMembers (members : List (String × Json)) : Json :=
  .object (members.foldl (fun kept member => insertMember member.1 member.2 kept) [])

/-- An integer as JSON; one beyond 64 bits is the nearest double, one beyond the doubles is null. -/
def ofInt (value : Int) : Json :=
  match Number.ofInt? value with
  | some found => .number found
  | none =>
    match (Binary64.ofRatio? (value < 0) value.natAbs 1).bind Number.ofDouble? with
    | some found => .number found
    | none => .null

/-- A double as JSON; infinities and what is not a number are null. -/
def ofDouble (value : Binary64) : Json :=
  match Number.ofDouble? value with
  | some found => .number found
  | none => .null

mutual

/-- The keys of every object in the value ascend strictly. -/
def Ordered : Json → Prop
  | .null => True
  | .boolean _ => True
  | .number _ => True
  | .string _ => True
  | .array items => OrderedItems items
  | .object members => (members.map (·.1)).Pairwise (· < ·) ∧ OrderedMembers members

def OrderedItems : List Json → Prop
  | [] => True
  | item :: rest => Ordered item ∧ OrderedItems rest

def OrderedMembers : List (String × Json) → Prop
  | [] => True
  | (_, value) :: rest => Ordered value ∧ OrderedMembers rest

end

end Json

end CodeFirst
