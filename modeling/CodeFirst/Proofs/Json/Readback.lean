import CodeFirst.Proofs.Json.Literal
import CodeFirst.Proofs.Value.Json

/-! Literals read back. The literal of a value without doubles, whose keys are names, is one constant from
its first character to its last, and the constant means the same JSON again. -/
namespace CodeFirst

def Number.IsInteger : Number → Prop
  | .integer .. => True
  | .double .. => False

/-- Integers are read back as they are. -/
theorem Number.Reread.eq_of_isInteger {number read : Number} (reread : number.Reread read)
    (integer : number.IsInteger) : read = number := by
  cases number with
  | integer value fits => exact reread
  | double value finite => exact integer.elim

namespace Json

mutual

/-- The numbers in the value are integers. -/
def Integral : Json → Prop
  | .null => True
  | .boolean _ => True
  | .number amount => amount.IsInteger
  | .string _ => True
  | .array items => IntegralItems items
  | .object members => IntegralMembers members

def IntegralItems : List Json → Prop
  | [] => True
  | item :: rest => Integral item ∧ IntegralItems rest

def IntegralMembers : List (String × Json) → Prop
  | [] => True
  | (_, value) :: rest => Integral value ∧ IntegralMembers rest

end

mutual

/-- A constant that mirrors integers, and no doubles, has the value that the JSON is passed on as. -/
theorem Mirrors.constant? : {value : Json} → {constant : Literal} → Mirrors value constant →
    value.Integral → constant.constant? = some (Value.ofJson value)
  | _, _, .null, _ => rfl
  | _, _, .boolean _, _ => rfl
  | _, _, .number reread, integral => by
      rw [reread.eq_of_isInteger integral, Value.ofJson, Value.ofNumber_eq]
      rfl
  | _, _, .string _, _ => rfl
  | _, _, .array items, integral =>
      congrArg (Option.map Value.list) (items.itemValues? integral)
  | _, _, .object members, integral =>
      congrArg (Option.map Value.object) (members.fieldValues? integral)

theorem MirrorItems.itemValues? : {items : List Json} → {constants : List Literal} →
    MirrorItems items constants → IntegralItems items →
    Literal.itemValues? (fun _ => none) constants = some (Value.ofItems items)
  | _, _, .nil, _ => rfl
  | _, _, .cons first others, integral => by
      have value := first.constant? integral.1
      rw [Literal.constant?] at value
      rw [Literal.itemValues?, value, others.itemValues? integral.2]
      rfl

theorem MirrorMembers.fieldValues? : {members : List (String × Json)} →
    {fields : List (String × Literal)} → MirrorMembers members fields → IntegralMembers members →
    Literal.fieldValues? (fun _ => none) fields = some (Value.ofMembers members)
  | _, _, .nil, _ => rfl
  | _, _, .cons first others, integral => by
      have value := first.constant? integral.1
      rw [Literal.constant?] at value
      rw [Literal.fieldValues?, value, others.fieldValues? integral.2]
      rfl

end

/-- The whole literal is read as one constant, whose value is the JSON that was written. -/
theorem readBack_literal {value : Json} (ordered : value.Ordered) (named : value.NamedKeys)
    (integral : value.Integral) :
    ∃ constant, Finds (Literal.read? true value.literal.toList) constant [] ∧
      constant.constant? = some (Value.ofJson value) ∧ (Value.ofJson value).toJson = value := by
  obtain ⟨constant, mirrors, standing⟩ := finds_literal value ordered named
  have here : Lexeme.skip value.literal.toList = value.literal.toList ++ [] := by
    simpa using value.skip_literal []
  exact ⟨constant, standing true _ [] here nofun, mirrors.constant? integral,
    Value.toJson_ofJson value ordered⟩

/-- What is at the edges: the least and the greatest integer, nothing inside of brackets, and
characters that strings must escape or need not. -/
def extremes : Json :=
  .array [.null, .boolean false, .array [], .object [], .string "",
    .object [("_", .number (.integer (-9223372036854775808) (by decide))),
      ("null", .array [.number (.integer 18446744073709551615 (by decide))]),
      ("text", .string "\"\\/\x00\x1f\x7f\n\u2028😀")]]

theorem readBack_extremes : (extremes.Ordered ∧ extremes.NamedKeys ∧ extremes.Integral) ∧
    ∃ constant, Finds (Literal.read? true extremes.literal.toList) constant [] ∧
      constant.constant? = some (Value.ofJson extremes) ∧
      (Value.ofJson extremes).toJson = extremes := by
  have ordered : extremes.Ordered := by
    simp only [extremes, Ordered, OrderedMembers, OrderedItems]
    decide +kernel
  have named : extremes.NamedKeys := by
    simp only [extremes, NamedKeys, NamedItems, NamedMembers]
    decide +kernel
  have integral : extremes.Integral := by
    simp only [extremes, Integral, IntegralItems, IntegralMembers, Number.IsInteger]
    decide
  exact ⟨⟨ordered, named, integral⟩, readBack_literal ordered named integral⟩

end Json

end CodeFirst
