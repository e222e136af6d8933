import CodeFirst.Json.Literal

/-!
Substitution of variables: a token `$name` in a document gives way to the literal of a leaf of the
variables. The document is read once, so inserted text is never substituted again.
-/

namespace CodeFirst

def isNameStart (c : Char) : Bool :=
  ('A' ≤ c && c ≤ 'Z') || ('a' ≤ c && c ≤ 'z') || c = '_'

def isNameRest (c : Char) : Bool :=
  isNameStart c || isDigit c

namespace Variables

/-- A piece of a document: one character of its text, or a token, which is a `$` with the whole
name behind it. -/
inductive Segment where
  | text (c : Char)
  | token (name : List Char)
deriving DecidableEq

def segments : List Char → List Segment
  | [] => []
  | [c] => [.text c]
  | c :: next :: rest =>
    if c = '$' ∧ isNameStart next = true then
      .token (next :: rest.takeWhile isNameRest) :: segments (rest.dropWhile isNameRest)
    else .text c :: segments (next :: rest)
termination_by document => document.length
decreasing_by
  · have := (List.dropWhile_suffix isNameRest (l := rest)).length_le
    simp only [List.length_cons]
    omega
  · simp

mutual

/-- The leaves at and below a value that stands under a key. -/
def leavesUnder (key : String) : Json → List (String × Json)
  | .object members => leaves members
  | .null => [(key, .null)]
  | .boolean value => [(key, .boolean value)]
  | .number value => [(key, .number value)]
  | .string value => [(key, .string value)]
  | .array items => [(key, .array items)]

/-- The values that are no objects, each under its own key, depth first. -/
def leaves : List (String × Json) → List (String × Json)
  | [] => []
  | (key, value) :: rest => leavesUnder key value ++ leaves rest

end

/-- The text of a piece: the literal of the first leaf under the name of a token, if there is
one. -/
def Segment.substituted (leaves : List (String × Json)) : Segment → List Char
  | .text c => [c]
  | .token name =>
    match leaves.lookup (String.ofList name) with
    | some leaf => leaf.literal.toList
    | none => '$' :: name

def kind : Json → String
  | .null => "null"
  | .boolean _ => "boolean"
  | .number _ => "number"
  | .string _ => "string"
  | .array _ => "array"
  | .object _ => "object"

/-- The document with every token that has a leaf replaced; variables must be an object, else their
kind is given. A document is not read if there is no leaf. -/
def substitute (document : String) : Json → Except String String
  | .object members =>
    match leaves members with
    | [] => .ok document
    | found => .ok (String.ofList ((segments document.toList).flatMap (Segment.substituted found)))
  | other => .error (kind other)

end Variables

end CodeFirst
