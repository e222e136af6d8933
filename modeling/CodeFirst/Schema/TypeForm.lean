import CodeFirst.Schema.Breakdown

/-!
Types as texts. What a text means is told by its ends alone, whatever a type may be named, and the
ends are bytes.
-/

namespace CodeFirst

inductive TypeForm where
  | named (name : String)
  | nonNull (text : String) (inner : TypeForm)
  | list (text : String) (item : TypeForm)
  /-- A bracket and a text behind it whose last byte cannot be dropped. -/
  | torn (behind : String)
deriving DecidableEq, Inhabited

namespace TypeForm

def text : TypeForm → String
  | .named name => name
  | .nonNull text _ => text
  | .list text _ => text
  | .torn behind => "[" ++ behind

def breakdown? : TypeForm → Option Breakdown
  | .torn behind => some (.torn behind)
  | _ => none

def base : TypeForm → Except Breakdown String
  | .named name => .ok name
  | .nonNull _ inner => inner.base
  | .list _ item => item.base
  | .torn behind => .error (.torn behind)

/-- What a mark at the end is about, or the form itself. -/
def unmarked : TypeForm → TypeForm
  | .nonNull _ inner => inner
  | form => form

def isNonNull : TypeForm → Bool
  | .nonNull _ _ => true
  | _ => false

/-- Whether neither the type nor what its marks are about is a list. -/
def isSingle : TypeForm → Bool
  | .named _ => true
  | .nonNull _ inner => inner.isSingle
  | .list _ _ => false
  | .torn _ => false

/-- Reads a text: an exclamation mark at its end goes first, then a bracket in front of it, with
which the last byte goes too. -/
def ofChars : List Char → TypeForm
  | [] => .named ""
  | c :: rest =>
    let text := String.ofList (c :: rest)
    if (c :: rest).getLast? = some '!' then .nonNull text (ofChars (c :: rest).dropLast)
    else if c = '[' then
      if rest.getLast?.any (·.utf8Size = 1) then .list text (ofChars rest.dropLast)
      else .torn (String.ofList rest)
    else .named text
termination_by text => text.length
decreasing_by
  · simp only [List.length_dropLast, List.length_cons]
    omega
  · simp only [List.length_dropLast, List.length_cons]
    omega

def read (text : String) : TypeForm :=
  ofChars text.toList

end TypeForm

end CodeFirst
