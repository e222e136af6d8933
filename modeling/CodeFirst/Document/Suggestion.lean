/-!
Suggestions for a name that is not known: declared names that differ in few bytes.
-/

namespace CodeFirst.Suggestion

/-- The next row in the table of distances, behind its first cell: `diagonal` and `left` are the
cells before the one to fill, in the row above and in this row. -/
def nextCells (byte : UInt8) : Nat → Nat → List UInt8 → List Nat → List Nat
  | diagonal, left, other :: others, above :: row =>
    let cell := min (min above left + 1) (if other = byte then diagonal else diagonal + 1)
    cell :: nextCells byte above cell others row
  | _, _, _, _ => []

def nextRow (word : List UInt8) (byte : UInt8) : List Nat → List Nat
  | [] => []
  | first :: row => (first + 1) :: nextCells byte first (first + 1) word row

/-- The least number of bytes to insert, drop or change on the way from one word to the other. -/
def distance (word other : List UInt8) : Nat :=
  let start := List.range (word.length + 1)
  (other.foldl (fun row byte => nextRow word byte row) start).getLast?.getD 0

/-- The declared names closer to a name than half of the longer of the two, the nearest first. -/
def near (name : String) (declared : List String) : List String :=
  let bytes := name.toUTF8.toList
  let candidates := declared.filterMap fun other =>
    let gap := distance bytes other.toUTF8.toList
    let limit := max (name.utf8ByteSize / 2) (max (other.utf8ByteSize / 2) 1)
    if gap < limit then some (gap, other) else none
  (candidates.mergeSort fun left right => left.1 ≤ right.1).map (·.2)

def sentence (names : List String) : String :=
  if names = [] then ""
  else
    " Did you mean " ++ String.intercalate ", " (names.map fun name => "\"" ++ name ++ "\"") ++ "?"

end CodeFirst.Suggestion
