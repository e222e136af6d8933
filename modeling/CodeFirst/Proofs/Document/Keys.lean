import CodeFirst.Document.Reader
import CodeFirst.Proofs.Keyed
import CodeFirst.Proofs.Variables.Tokens

/-! The keys in literals. Whatever the text, an object that is read has names as keys. -/
namespace CodeFirst

open Lexeme Document

theorem isName_of_name? {text : List Char} {found : Found Char String text.length}
    (read : name? text = some found) : Variables.IsName found.value.toList := by
  cases text with
  | nil => cases read
  | cons c rest =>
      rw [name?] at read
      split at read
      · rename_i start
        cases read
        rw [String.toList_ofList]
        exact ⟨start, List.all_eq_true.mp List.all_takeWhile⟩
      · cases read

theorem isName_of_readName? {text : List Char} {found : Found Char String text.length}
    (read : readName? text = some found) : Variables.IsName found.value.toList := by
  obtain ⟨name, here, rfl⟩ := Option.map_eq_some_iff.mp read
  have isName := isName_of_name? here
  exact isName

namespace Literal

mutual

def Named : Literal → Prop
  | .variable _ => True
  | .null => True
  | .boolean _ => True
  | .number _ => True
  | .string _ => True
  | .word _ => True
  | .list items => NamedItems items
  | .object fields => NamedFields fields
  | .overflow => True

def NamedItems : List Literal → Prop
  | [] => True
  | item :: rest => Named item ∧ NamedItems rest

def NamedFields : List (String × Literal) → Prop
  | [] => True
  | (key, field) :: rest => Variables.IsName key.toList ∧ Named field ∧ NamedFields rest

end

variable {constant : Bool} {text : List Char} {items : List Literal}
  {fields : List (String × Literal)}

theorem named_ofItems (named : NamedItems items) : (ofItems items).Named := by
  rw [ofItems]
  split
  · trivial
  · exact named

theorem namedFields_iff :
    NamedFields fields ↔
      ∀ field ∈ fields, Variables.IsName field.1.toList ∧ field.2.Named := by
  induction fields with
  | nil => simp [NamedFields]
  | cons field fields ih =>
      rw [NamedFields, ih, List.forall_mem_cons, and_assoc]

theorem named_ofFields (named : NamedFields fields) : (ofFields fields).Named := by
  rw [ofFields]
  split
  · trivial
  · refine namedFields_iff.mpr fun field member => ?_
    rcases Keyed.mem_putAll member with among | none
    · exact namedFields_iff.mp named field among
    · cases none

theorem named_ofNumeral (numeral : Numeral) : (ofNumeral numeral).Named := by
  rw [ofNumeral]
  cases numeral.number? with
  | none => trivial
  | some number => trivial

/-- What the first of two readers found is named as what is made of anything that it finds. -/
theorem named_or {β : Type} {first : Option (Found Char β text.length)} {make : β → Literal}
    {other : Option (Found Char Literal text.length)} {found : Found Char Literal text.length}
    (read : (first.map (·.map make)).or other = some found) (named : ∀ value, (make value).Named)
    (others : other = some found → found.value.Named) : found.value.Named := by
  rcases Option.or_eq_some_iff.mp read with read | ⟨_, read⟩
  · obtain ⟨_, _, rfl⟩ := Option.map_eq_some_iff.mp read
    exact named _
  · exact others read

theorem named_plain? {found : Found Char Literal text.length} (read : plain? text = some found) :
    found.value.Named := by
  refine named_or read (fun _ => trivial) fun read => ?_
  refine named_or read (fun _ => trivial) fun read => ?_
  refine named_or read (fun _ => trivial) fun read => ?_
  refine named_or read (fun _ => trivial) fun read => ?_
  refine named_or read (fun _ => trivial) fun read => ?_
  obtain ⟨numeral, _, rfl⟩ := Option.map_eq_some_iff.mp read
  exact named_ofNumeral numeral.value

theorem named_readVariable? {found : Found Char Literal text.length}
    (read : readVariable? constant text = some found) : found.value.Named := by
  rw [readVariable?] at read
  split at read
  · cases read
  · obtain ⟨sign, _, read⟩ := Option.bind_eq_some_iff.mp read
    obtain ⟨name, _, same⟩ := Option.bind_eq_some_iff.mp read
    cases same
    trivial

mutual

theorem named_read? {text : List Char} {found : Found Char Literal text.length}
    (read : read? constant text = some found) : found.value.Named := by
  rw [read?] at read
  split at read
  · rename_i bracket _
    obtain ⟨items, inside, same⟩ := Option.bind_eq_some_iff.mp read
    cases same
    have := bracket.shorter
    exact named_ofItems (named_readItems? inside)
  split at read
  · rename_i brace _
    obtain ⟨fields, inside, same⟩ := Option.bind_eq_some_iff.mp read
    cases same
    have := brace.shorter
    exact named_ofFields (named_readFields? inside)
  · rcases Option.or_eq_some_iff.mp read with read | ⟨_, read⟩
    · exact named_readVariable? read
    · obtain ⟨plain, here, rfl⟩ := Option.map_eq_some_iff.mp read
      have named := named_plain? here
      exact named
termination_by (text.length, 0)

theorem named_readItems? {text : List Char} {found : Found Char (List Literal) text.length}
    (read : readItems? constant text = some found) : NamedItems found.value := by
  rw [readItems?] at read
  split at read
  · cases read
    trivial
  · obtain ⟨item, first, read⟩ := Option.bind_eq_some_iff.mp read
    obtain ⟨items, later, same⟩ := Option.bind_eq_some_iff.mp read
    cases same
    have := item.shorter
    exact ⟨named_read? first, named_readItems? later⟩
termination_by (text.length, 1)

theorem named_readFields? {text : List Char}
    {found : Found Char (List (String × Literal)) text.length}
    (read : readFields? constant text = some found) : NamedFields found.value := by
  rw [readFields?] at read
  split at read
  · cases read
    trivial
  · obtain ⟨key, named, read⟩ := Option.bind_eq_some_iff.mp read
    obtain ⟨colon, _, read⟩ := Option.bind_eq_some_iff.mp read
    obtain ⟨field, first, read⟩ := Option.bind_eq_some_iff.mp read
    obtain ⟨fields, later, same⟩ := Option.bind_eq_some_iff.mp read
    cases same
    have := key.shorter
    have := colon.shorter
    have := field.shorter
    exact ⟨isName_of_readName? named, named_read? first, named_readFields? later⟩
termination_by (text.length, 1)

end

end Literal

end CodeFirst
