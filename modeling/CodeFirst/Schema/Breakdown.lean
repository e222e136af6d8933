import CodeFirst.Text.Dump

/-!
What ends the answering of a document at once, so that not even a list of errors is left.
-/

namespace CodeFirst

inductive Breakdown where
  /-- No type has the name of a type to describe. -/
  | unknownToDescribe (name : String)
  /-- No type has the name of a type that a constant should fit. -/
  | unknownToFit (name : String)
  /-- The last byte of the text of a type cannot be dropped, since the text does not end with a
  character of one byte. This is the text behind its bracket. -/
  | torn (behind : String)
deriving DecidableEq

namespace Breakdown

/-- Where the last of so many bytes begins, as a word of 64 bits, which goes round below zero. -/
def lastByte (size : Nat) : Nat :=
  if size = 0 then 18446744073709551615 else size - 1

def message : Breakdown → String
  | .unknownToDescribe name => "Type '" ++ name ++ "' not found!"
  | .unknownToFit name => "Type `" ++ name ++ "` not defined"
  | .torn behind =>
    let size := behind.utf8ByteSize
    "end byte index " ++ toString (lastByte size) ++
      match behind.toList.getLast? with
      | none => " is out of bounds for string of length 0"
      | some last =>
        " is not a char boundary; it is inside '" ++ String.ofList (Text.shownChar last) ++
          "' (bytes " ++ toString (size - last.utf8Size) ++ ".." ++ toString size ++ " of string)"

end Breakdown

end CodeFirst
