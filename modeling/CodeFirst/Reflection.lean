import CodeFirst.Declaration

/-!
What a type of the host program reveals: scalars by name, lists as lists without their element,
and nothing of untyped data.
-/

namespace CodeFirst

inductive HostType where
  | text
  | integer
  | floating
  | truth
  | unit
  | untyped
  | structure (name : String)
  | reference (target : HostType)
  | optional (content : HostType)
  | sequence (item : HostType)
deriving DecidableEq

namespace HostType

/-- References and options reveal what they hold. -/
def reveal : HostType → Introspected
  | .text => .named "String"
  | .integer => .named "Int"
  | .floating => .named "Float"
  | .truth => .named "Boolean"
  | .unit => .named "Void"
  | .untyped => .untyped
  | .structure name => .named name
  | .reference target => reveal target
  | .optional content => reveal content
  | .sequence _ => .list

def structures : List String := ["User"]

def ofWord? (word : String) : Option HostType :=
  if word = "String" ∨ word = "str" then some .text
  else if word ∈ ["i8", "i16", "i32", "i64", "isize", "u8", "u16", "u32", "u64", "usize"] then
    some .integer
  else if word = "f32" ∨ word = "f64" then some .floating
  else if word = "bool" then some .truth
  else if word = "()" then some .unit
  else if word = "serde_json::Value" then some .untyped
  else if word ∈ structures then some (.structure word)
  else none

/-- What stands between an opening text and a closing text. -/
def between? (opening closing : List Char) (written : List Char) : Option (List Char) :=
  if opening.isPrefixOf written ∧ closing.isSuffixOf written ∧
      opening.length + closing.length ≤ written.length then
    some ((written.drop opening.length).take (written.length - opening.length - closing.length))
  else none

theorem length_of_between? {opening closing written inner : List Char}
    (h : between? opening closing written = some inner) (nonempty : opening ≠ []) :
    inner.length < written.length := by
  have := List.length_pos_iff.mpr nonempty
  unfold between? at h
  split at h
  · cases h
    simp only [List.length_take, List.length_drop]
    omega
  · cases h

/-- Reads the notation of types: `&T`, `Option<T>`, `Vec<T>`, `[T]` and words. -/
def ofWritten? (written : List Char) : Option HostType :=
  match _found : between? ['&'] [] written with
  | some target => (ofWritten? target).map .reference
  | none =>
    match _found : between? "Option<".toList ['>'] written with
    | some content => (ofWritten? content).map .optional
    | none =>
      match _found : between? "Vec<".toList ['>'] written with
      | some item => (ofWritten? item).map .sequence
      | none =>
        match _found : between? ['['] [']'] written with
        | some item => (ofWritten? item).map .sequence
        | none => ofWord? (String.ofList written)
termination_by written.length
decreasing_by
  · exact length_of_between? _found (by simp)
  · exact length_of_between? _found (by simp)
  · exact length_of_between? _found (by simp)
  · exact length_of_between? _found (by simp)

end HostType

end CodeFirst
