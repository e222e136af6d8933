import CodeFirst.Json

/-!
Merging of answers to one question: objects by key, arrays of objects item by item, and of anything
else the first stays.
-/

namespace CodeFirst.Json

mutual

def merge (kept : Json) : Json → Json
  | .object added =>
    match kept with
    | .object members => .object (mergeMembers members added)
    | other => other
  | .array added =>
    match kept with
    | .array items => .array (mergeItems items added)
    | other => other
  | .null => kept
  | .boolean _ => kept
  | .number _ => kept
  | .string _ => kept

def mergeMembers (kept : List (String × Json)) : List (String × Json) → List (String × Json)
  | [] => kept
  | (key, value) :: rest =>
    let merged := match kept.lookup key with
      | some old => merge old value
      | none => value
    mergeMembers (insertMember key merged kept) rest

/-- Merges objects in one place; items without a partner, and all other items, stay as they are. -/
def mergeItems (kept : List Json) : List Json → List Json
  | [] => kept
  | item :: rest =>
    match kept with
    | [] => []
    | .object members :: others => merge (.object members) item :: mergeItems others rest
    | other :: others => other :: mergeItems others rest

end

/-- The object of entries in order, where entries of one key are merged. -/
def ofEntries (entries : List (String × Json)) : Json :=
  .object (mergeMembers [] entries)

end CodeFirst.Json
