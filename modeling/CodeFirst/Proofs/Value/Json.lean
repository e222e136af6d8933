import CodeFirst.Proofs.Json.Ordered
import CodeFirst.Value

/-! JSON as values of the query language. A value copies the JSON that it is made of place by place,
with every number as it is, and the passage there and back changes nothing. -/
namespace CodeFirst

namespace Number

variable {number : Number}

theorem ofSigned_of_signed? {word : Int64} (found : number.signed? = some word) :
    ofSigned word = number := by
  cases number with
  | integer value fits =>
      rw [signed?] at found
      split at found
      · rename_i inside
        cases found
        have same := Int64.toInt_ofInt_of_le inside.1 inside.2
        simp only [ofSigned, same]
      · cases found
  | double value finite => cases found

theorem ofUnsigned_of_unsigned? {word : UInt64} (found : number.unsigned? = some word) :
    ofUnsigned word = number := by
  cases number with
  | integer value fits =>
      rw [unsigned?] at found
      split at found
      · rename_i positive
        cases found
        have below : value.toNat < 2 ^ 64 := by
          have := fits.2
          omega
        have same : ((UInt64.ofNat value.toNat).toNat : Int) = value := by
          rw [UInt64.toNat_ofNat', Nat.mod_eq_of_lt below]
          exact Int.toNat_of_nonneg positive
        simp only [ofUnsigned, same]
      · cases found
  | double value finite => cases found

/-- What is no word is a double: integers from zero up are unsigned words, and those below are
signed ones. -/
theorem exists_double (notSigned : number.signed? = none) (notUnsigned : number.unsigned? = none) :
    ∃ value finite, number = .double value finite := by
  cases number with
  | integer value fits =>
      exfalso
      rw [unsigned?] at notUnsigned
      split at notUnsigned
      · cases notUnsigned
      · rename_i negative
        have inside : -9223372036854775808 ≤ value ∧ value < 9223372036854775808 := by
          have := fits.1
          omega
        rw [signed?, if_pos inside] at notSigned
        cases notSigned
  | double value finite => exact ⟨value, finite, rfl⟩

end Number

namespace Value

/-- A number stays what it is: null, which is for numbers that are neither words nor finite doubles,
is never reached. -/
theorem ofNumber_eq (number : Number) : ofNumber number = .number number := by
  unfold ofNumber
  split
  · rename_i signed found
    rw [Number.ofSigned_of_signed? found]
  · rename_i notSigned
    split
    · rename_i unsigned found
      rw [Number.ofUnsigned_of_unsigned? found]
    · rename_i notUnsigned
      obtain ⟨value, finite, rfl⟩ := Number.exists_double notSigned notUnsigned
      have kept : (Number.double value finite).double?.bind Number.ofDouble? =
          some (.double value finite) := dif_pos finite
      rw [kept]

mutual

/-- A value that is put together as JSON is, with the same scalars in the same places. -/
inductive Copies : Json → Value → Prop
  | null : Copies .null .null
  | boolean (flag : Bool) : Copies (.boolean flag) (.boolean flag)
  | number (amount : Number) : Copies (.number amount) (.number amount)
  | string (text : String) : Copies (.string text) (.string text)
  | array {items values} : CopiesItems items values → Copies (.array items) (.list values)
  | object {members fields} : CopiesMembers members fields →
      Copies (.object members) (.object fields)

inductive CopiesItems : List Json → List Value → Prop
  | nil : CopiesItems [] []
  | cons {item value items values} : Copies item value → CopiesItems items values →
      CopiesItems (item :: items) (value :: values)

inductive CopiesMembers : Keyed Json → Keyed Value → Prop
  | nil : CopiesMembers [] []
  | cons {key item value members fields} : Copies item value → CopiesMembers members fields →
      CopiesMembers ((key, item) :: members) ((key, value) :: fields)

end

mutual

theorem copies_ofJson : (json : Json) → Copies json (ofJson json)
  | .null => .null
  | .boolean flag => .boolean flag
  | .number amount => by
      rw [ofJson, ofNumber_eq]
      exact .number amount
  | .string text => .string text
  | .array items => .array (copiesItems_ofItems items)
  | .object members => .object (copiesMembers_ofMembers members)

theorem copiesItems_ofItems : (items : List Json) → CopiesItems items (ofItems items)
  | [] => .nil
  | item :: rest => .cons (copies_ofJson item) (copiesItems_ofItems rest)

theorem copiesMembers_ofMembers : (members : Keyed Json) →
    CopiesMembers members (ofMembers members)
  | [] => .nil
  | (_, value) :: rest => .cons (copies_ofJson value) (copiesMembers_ofMembers rest)

end

mutual

theorem Copies.eq_ofJson : {json : Json} → {value : Value} → Copies json value →
    ofJson json = value
  | _, _, .null => rfl
  | _, _, .boolean _ => rfl
  | _, _, .number amount => ofNumber_eq amount
  | _, _, .string _ => rfl
  | _, _, .array items => congrArg list items.eq_ofItems
  | _, _, .object members => congrArg object members.eq_ofMembers

theorem CopiesItems.eq_ofItems : {items : List Json} → {values : List Value} →
    CopiesItems items values → ofItems items = values
  | _, _, .nil => rfl
  | _, _, .cons first others => congrArg₂ List.cons first.eq_ofJson others.eq_ofItems

theorem CopiesMembers.eq_ofMembers : {members : Keyed Json} → {fields : Keyed Value} →
    CopiesMembers members fields → ofMembers members = fields
  | _, _, .nil => rfl
  | _, _, .cons first others =>
      congrArg₂ List.cons (congrArg (Prod.mk _) first.eq_ofJson) others.eq_ofMembers

end

mutual

/-- Keys that ascend already stay in their order. -/
theorem Copies.toJson_eq : {json : Json} → {value : Value} → Copies json value → json.Ordered →
    value.toJson = json
  | _, _, .null, _ => rfl
  | _, _, .boolean _, _ => rfl
  | _, _, .number _, _ => rfl
  | _, _, .string _, _ => rfl
  | _, _, .array items, ordered => congrArg Json.array (items.toItems_eq ordered)
  | _, _, .object members, ordered => by
      rw [toJson, members.toMembers_eq ordered.2]
      exact Json.ofMembers_of_ascending ordered.1

theorem CopiesItems.toItems_eq : {items : List Json} → {values : List Value} →
    CopiesItems items values → Json.OrderedItems items → toItems values = items
  | _, _, .nil, _ => rfl
  | _, _, .cons first others, ordered =>
      congrArg₂ List.cons (first.toJson_eq ordered.1) (others.toItems_eq ordered.2)

theorem CopiesMembers.toMembers_eq : {members : Keyed Json} → {fields : Keyed Value} →
    CopiesMembers members fields → Json.OrderedMembers members → toMembers fields = members
  | _, _, .nil, _ => rfl
  | _, _, .cons first others, ordered =>
      congrArg₂ List.cons (congrArg (Prod.mk _) (first.toJson_eq ordered.1))
        (others.toMembers_eq ordered.2)

end

theorem toJson_ofJson (json : Json) (ordered : json.Ordered) : (ofJson json).toJson = json :=
  (copies_ofJson json).toJson_eq ordered

/-- What the passage of JSON into a value keeps, which is everything. -/
structure Faithful (json : Json) : Prop where
  copied : ∀ value, ofJson json = value ↔ Copies json value
  back : (ofJson json).toJson = json
  unmistaken : ∀ other : Json, other.Ordered → ofJson other = ofJson json → other = json

theorem faithful_ofJson {json : Json} (ordered : json.Ordered) : Faithful json := by
  constructor
  case copied =>
    intro value
    constructor
    · rintro rfl
      exact copies_ofJson json
    · exact Copies.eq_ofJson
  case back => exact toJson_ofJson json ordered
  case unmistaken =>
    intro other otherOrdered same
    calc other = (ofJson other).toJson := (toJson_ofJson other otherOrdered).symm
      _ = (ofJson json).toJson := congrArg toJson same
      _ = json := toJson_ofJson json ordered

/-- Numbers of every kind, the ends of both ranges of words among them, under keys that need not be
names. -/
def amounts : Json :=
  .object [("", .array [.number (.ofSigned (-9223372036854775808)),
      .number (.ofUnsigned 18446744073709551615), .array []]),
    ("$ 1", .number (.ofSigned 9223372036854775807)),
    ("1.0", .number (.double ⟨0x3ff0000000000000⟩ (by decide))),
    ("\x7b", .object [("-0.0", .number (.double ⟨0x8000000000000000⟩ (by decide))),
      ("1e308", .null)])]

theorem faithful_amounts : amounts.Ordered ∧ Faithful amounts := by
  have ordered : amounts.Ordered := by
    simp only [amounts, Json.Ordered, Json.OrderedMembers, Json.OrderedItems]
    decide +kernel
  exact ⟨ordered, faithful_ofJson ordered⟩

end Value

end CodeFirst
