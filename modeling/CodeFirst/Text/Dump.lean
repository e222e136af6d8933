import CodeFirst.Text.Hidden

/-!
The text in which data is shown to developers: names of structures with their fields, constructors
with their arguments, quoted strings, lists and maps.
-/

namespace CodeFirst.Text

/-- One character inside quotes: quote, backslash, four controls by letter, and hidden characters by
number. -/
def shownChar (c : Char) : List Char :=
  if c = '"' then ['\\', '"']
  else if c = '\\' then ['\\', '\\']
  else if c = '\n' then ['\\', 'n']
  else if c = '\t' then ['\\', 't']
  else if c = '\r' then ['\\', 'r']
  else if c = '\x00' then ['\\', '0']
  else if isHidden c then '\\' :: 'u' :: '\x7b' :: Nat.toDigits 16 c.toNat ++ ['\x7d']
  else [c]

def shown (value : String) : String :=
  String.ofList ('"' :: value.toList.flatMap shownChar ++ ['"'])

inductive Dump where
  /-- A word or number, shown as it is. -/
  | word (text : String)
  | string (value : String)
  | call (constructor : String) (argument : Dump)
  /-- A structure; an `open` one has fields that are not shown. -/
  | structure (name : String) (fields : List (String × Dump)) (isOpen : Bool)
  | list (items : List Dump)
  | map (entries : List (String × Dump))

namespace Dump

def bool (value : Bool) : Dump :=
  .word (if value then "true" else "false")

def number (value : Nat) : Dump :=
  .word (String.ofList (Nat.toDigits 10 value))

def strings (values : List String) : Dump :=
  .list (values.map .string)

def option {α : Type} (dump : α → Dump) : Option α → Dump
  | none => .word "None"
  | some value => .call "Some" (dump value)

/-- The parts between braces, or a bare pair of braces if there are none. -/
def braced (parts : List String) : String :=
  if parts = [] then "\x7b\x7d" else "\x7b" ++ String.intercalate ", " parts ++ "\x7d"

def structureText (name : String) (parts : List String) (isOpen : Bool) : String :=
  let shownParts := if isOpen then parts ++ [".."] else parts
  if shownParts = [] then name
  else name ++ " \x7b " ++ String.intercalate ", " shownParts ++ " \x7d"

mutual

def text : Dump → String
  | .word text => text
  | .string value => shown value
  | .call constructor argument => constructor ++ "(" ++ text argument ++ ")"
  | .structure name fields isOpen => structureText name (fieldTexts fields) isOpen
  | .list items => "[" ++ String.intercalate ", " (itemTexts items) ++ "]"
  | .map entries => braced (entryTexts entries)

def fieldTexts : List (String × Dump) → List String
  | [] => []
  | (name, value) :: rest => (name ++ ": " ++ text value) :: fieldTexts rest

def itemTexts : List Dump → List String
  | [] => []
  | item :: rest => text item :: itemTexts rest

def entryTexts : List (String × Dump) → List String
  | [] => []
  | (key, value) :: rest => (shown key ++ ": " ++ text value) :: entryTexts rest

end

end Dump

end CodeFirst.Text
