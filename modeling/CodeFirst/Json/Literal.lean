import CodeFirst.Json

/-!
JSON values written out: as the compact text of data, and as literals of query documents.
-/

namespace CodeFirst.Json

def hexDigit (n : Nat) : Char :=
  if n < 10 then Char.ofNat ('0'.toNat + n) else Char.ofNat ('a'.toNat + (n - 10))

/-- A character inside quotes: quote, backslash and the characters below the blank are escaped. -/
def quotedChar (c : Char) : List Char :=
  if c = '"' then ['\\', '"']
  else if c = '\\' then ['\\', '\\']
  else if c = '\x08' then ['\\', 'b']
  else if c = '\x0c' then ['\\', 'f']
  else if c = '\n' then ['\\', 'n']
  else if c = '\r' then ['\\', 'r']
  else if c = '\t' then ['\\', 't']
  else if c.toNat < 0x20 then
    ['\\', 'u', '0', '0', hexDigit (c.toNat / 16), hexDigit (c.toNat % 16)]
  else [c]

def quoted (value : String) : List Char :=
  '"' :: value.toList.flatMap quotedChar ++ ['"']

mutual

/-- The text of a value, without blanks. -/
def text : Json → String
  | .null => "null"
  | .boolean true => "true"
  | .boolean false => "false"
  | .number value => value.text
  | .string value => String.ofList (quoted value)
  | .array items => "[" ++ String.intercalate "," (itemTexts items) ++ "]"
  | .object members => "\x7b" ++ String.intercalate "," (memberTexts members) ++ "\x7d"

def itemTexts : List Json → List String
  | [] => []
  | item :: rest => text item :: itemTexts rest

def memberTexts : List (String × Json) → List String
  | [] => []
  | (key, value) :: rest =>
    (String.ofList (quoted key) ++ ":" ++ text value) :: memberTexts rest

end

mutual

/-- The literal of a value. Strings are quoted as in JSON, whose escapes documents read the same
way; keys stand bare. -/
def literal : Json → String
  | .null => "null"
  | .boolean true => "true"
  | .boolean false => "false"
  | .number value => value.text
  | .string value => String.ofList (quoted value)
  | .array items => "[" ++ String.intercalate ", " (itemLiterals items) ++ "]"
  | .object members => "\x7b " ++ String.intercalate ", " (memberLiterals members) ++ " \x7d"

def itemLiterals : List Json → List String
  | [] => []
  | item :: rest => literal item :: itemLiterals rest

def memberLiterals : List (String × Json) → List String
  | [] => []
  | (key, value) :: rest => (key ++ ": " ++ literal value) :: memberLiterals rest

end

end CodeFirst.Json
