import CodeFirst.Proofs.Document.Keys
import CodeFirst.Proofs.Document.Literal
import CodeFirst.Proofs.Json.Ordered

/-! Values as literals. The literal of a value whose keys are names is read back, whole and no further,
as the constant that mirrors the value; no constant mirrors any other value. -/
namespace CodeFirst.Json

open Lexeme

mutual

/-- The keys of every object in the value are names of query documents. -/
def NamedKeys : Json → Prop
  | .null => True
  | .boolean _ => True
  | .number _ => True
  | .string _ => True
  | .array items => NamedItems items
  | .object members => NamedMembers members

def NamedItems : List Json → Prop
  | [] => True
  | item :: rest => NamedKeys item ∧ NamedItems rest

def NamedMembers : List (String × Json) → Prop
  | [] => True
  | (key, value) :: rest =>
    Variables.IsName key.toList ∧ NamedKeys value ∧ NamedMembers rest

end

mutual

/-- The constant has the shape of the value, its keys, and its values but for the last places of
doubles. -/
inductive Mirrors : Json → Literal → Prop
  | null : Mirrors .null .null
  | boolean (value : Bool) : Mirrors (.boolean value) (.boolean value)
  | number {number read : Number} : number.Reread read → Mirrors (.number number) (.number read)
  | string (value : String) : Mirrors (.string value) (.string value)
  | array {items constants} : MirrorItems items constants → Mirrors (.array items) (.list constants)
  | object {members fields} :
      MirrorMembers members fields → Mirrors (.object members) (.object fields)

inductive MirrorItems : List Json → List Literal → Prop
  | nil : MirrorItems [] []
  | cons {item constant items constants} : Mirrors item constant → MirrorItems items constants →
      MirrorItems (item :: items) (constant :: constants)

inductive MirrorMembers : List (String × Json) → List (String × Literal) → Prop
  | nil : MirrorMembers [] []
  | cons {key value constant members fields} : Mirrors value constant →
      MirrorMembers members fields →
      MirrorMembers ((key, value) :: members) ((key, constant) :: fields)

end

variable {value : Json} {items : List Json} {members : List (String × Json)}
  {constant : Literal} {constants : List Literal} {fields : List (String × Literal)}
  {text rest : List Char} {flag : Bool}

theorem Mirrors.not_overflows (mirrors : Mirrors value constant) : constant.overflows = false := by
  cases mirrors <;> rfl

theorem MirrorItems.ofItems (mirrors : MirrorItems items constants) :
    Literal.ofItems constants = .list constants := by
  have none : constants.any Literal.overflows = false := by
    induction constants generalizing items with
    | nil => rfl
    | cons constant constants ih =>
        cases mirrors with
        | cons first others => rw [List.any_cons, first.not_overflows, ih others, Bool.false_or]
  rw [Literal.ofItems, none]
  rfl

theorem MirrorMembers.names (mirrors : MirrorMembers members fields) :
    Keyed.names fields = Keyed.names members := by
  induction members generalizing fields with
  | nil =>
      cases mirrors
      rfl
  | cons head members ih =>
      cases mirrors with
      | cons _ others => exact congrArg (_ :: ·) (ih others)

theorem MirrorMembers.ofFields (mirrors : MirrorMembers members fields)
    (ascending : (members.map (·.1)).Pairwise (· < ·)) :
    Literal.ofFields fields = .object fields := by
  have none : fields.any (·.2.overflows) = false := by
    clear ascending
    induction fields generalizing members with
    | nil => rfl
    | cons field fields ih =>
        cases mirrors with
        | cons first others => rw [List.any_cons, first.not_overflows, ih others, Bool.false_or]
  have distinct : (Keyed.names ([] ++ fields)).Nodup := by
    rw [List.nil_append, mirrors.names]
    exact ascending.imp fun less => String.ne_of_lt less
  rw [Literal.ofFields, none, Keyed.ofList, Keyed.putAll_of_nodup distinct]
  rfl

theorem toList_literal_array (items : List Json) (rest : List Char) :
    (array items).literal.toList ++ rest =
      '[' :: ((String.intercalate ", " (itemLiterals items)).toList ++ ']' :: rest) := by
  rw [literal, String.toList_append, String.toList_append, List.append_assoc, List.append_assoc]
  rfl

theorem toList_literal_object (members : List (String × Json)) (rest : List Char) :
    (object members).literal.toList ++ rest =
      '\x7b' :: ' ' :: ((String.intercalate ", " (memberLiterals members)).toList ++
        ' ' :: '\x7d' :: rest) := by
  rw [literal, String.toList_append, String.toList_append, List.append_assoc, List.append_assoc]
  rfl

/-- A literal begins with a character that means something and closes nothing. -/
theorem exists_literal_cons (value : Json) :
    ∃ c behind, value.literal.toList = c :: behind ∧
      isIgnored c = false ∧ c ≠ '#' ∧ c ≠ ']' := by
  cases value with
  | null => exact ⟨_, _, rfl, by decide⟩
  | boolean value => cases value <;> exact ⟨_, _, rfl, by decide⟩
  | string value => exact ⟨_, _, String.toList_ofList, by decide⟩
  | array items =>
      have text := toList_literal_array items []
      rw [List.append_nil] at text
      exact ⟨_, _, text, by decide⟩
  | object members =>
      have text := toList_literal_object members []
      rw [List.append_nil] at text
      exact ⟨_, _, text, by decide⟩
  | number amount =>
      obtain ⟨n, proper, text, _⟩ := amount.text_read
      obtain ⟨c, behind, written, first⟩ := Literal.exists_written_cons proper
      refine ⟨c, behind, by rw [literal, text, written], ?_⟩
      exact ⟨Literal.isIgnored_of_first first, Literal.ne_of_first first (by decide) rfl,
        Literal.ne_of_first first (by decide) rfl⟩

theorem skip_literal (value : Json) (rest : List Char) :
    skip (value.literal.toList ++ rest) = value.literal.toList ++ rest := by
  obtain ⟨c, behind, text, plain, noComment, _⟩ := value.exists_literal_cons
  rw [text]
  exact skip_cons plain noComment

/-- What stands behind the first of some texts, up to and with a tail. -/
def behindFirst : List String → List Char → List Char
  | [], tail => tail
  | others, tail => ',' :: ' ' :: ((String.intercalate ", " others).toList ++ tail)

theorem intercalate_append (first : String) (others : List String) (tail : List Char) :
    (String.intercalate ", " (first :: others)).toList ++ tail =
      first.toList ++ behindFirst others tail := by
  cases others with
  | nil => rw [String.intercalate_singleton, behindFirst]
  | cons second others =>
      rw [String.intercalate_cons_cons, String.toList_append, String.toList_append,
        List.append_assoc, List.append_assoc]
      rfl

theorem skip_behindFirst (others : List String) (tail : List Char) :
    skip (behindFirst others tail) = skip ((String.intercalate ", " others).toList ++ tail) := by
  cases others with
  | nil => rfl
  | cons second others =>
      rw [behindFirst, skip_ignored rfl, skip_ignored rfl]
      exact nofun

theorem apart_behindFirst (others : List String) {tail : List Char} (apart : Apart tail) :
    Apart (behindFirst others tail) := by
  cases others with
  | nil => exact apart
  | cons second others =>
      rintro c ⟨⟩
      decide

mutual

/-- The literal of a value is read back from any text that nothing goes on with. -/
theorem finds_literal : (value : Json) → value.Ordered → value.NamedKeys →
    ∃ constant, Mirrors value constant ∧ ∀ flag text rest,
      skip text = value.literal.toList ++ rest → Apart rest →
        Finds (Literal.read? flag text) constant rest
  | .null, _, _ => by
      refine ⟨_, .null, fun flag text rest here _ => ?_⟩
      exact Literal.finds_read?_plain here (by decide) (by decide) (by decide)
        (Literal.finds_plain?_null rest)
  | .boolean true, _, _ => by
      refine ⟨_, .boolean true, fun flag text rest here _ => ?_⟩
      exact Literal.finds_read?_plain here (by decide) (by decide) (by decide)
        (Literal.finds_plain?_true rest)
  | .boolean false, _, _ => by
      refine ⟨_, .boolean false, fun flag text rest here _ => ?_⟩
      exact Literal.finds_read?_plain here (by decide) (by decide) (by decide)
        (Literal.finds_plain?_false rest)
  | .number amount, _, _ => by
      obtain ⟨n, proper, written, read, found, reread⟩ := amount.text_read
      refine ⟨_, .number reread, fun flag text rest here apart => ?_⟩
      have plain := Literal.finds_plain?_number proper apart
      rw [literal, written] at here
      rw [Literal.ofNumeral, found] at plain
      obtain ⟨c, behind, same, first⟩ := Literal.exists_written_cons proper
      rw [same] at here plain
      have other := fun other => @Literal.ne_of_first c other first
      exact Literal.finds_read?_plain here (other _ (by decide) rfl) (other _ (by decide) rfl)
        (other _ (by decide) rfl) plain
  | .string value, _, _ => by
      refine ⟨_, .string value, fun flag text rest here apart => ?_⟩
      rw [literal, String.toList_ofList] at here
      exact Literal.finds_read?_plain here (by decide) (by decide) (by decide)
        (Literal.finds_plain?_string apart)
  | .array items, ordered, named => by
      obtain ⟨constants, mirrors, found⟩ := finds_items items ordered named
      refine ⟨_, .array mirrors, fun flag text rest here _ => ?_⟩
      rw [toList_literal_array] at here
      have read := Literal.finds_read?_list here (found flag _ rest rfl)
      rwa [mirrors.ofItems] at read
  | .object members, ordered, named => by
      obtain ⟨fields, mirrors, found⟩ := finds_members members ordered.2 named
      refine ⟨_, .object mirrors, fun flag text rest here _ => ?_⟩
      rw [toList_literal_object] at here
      have read := Literal.finds_read?_object here (found flag _ rest (skip_ignored rfl))
      rwa [mirrors.ofFields ordered.1] at read

theorem finds_items : (items : List Json) → OrderedItems items → NamedItems items →
    ∃ constants, MirrorItems items constants ∧ ∀ flag text rest,
      skip text = skip ((String.intercalate ", " (itemLiterals items)).toList ++ ']' :: rest) →
        Finds (Literal.readItems? flag text) constants rest
  | [], _, _ =>
      ⟨[], .nil, fun _ _ _ here =>
        Literal.finds_readItems?_nil (here.trans (skip_cons rfl (by decide)))⟩
  | item :: items, ordered, named => by
      obtain ⟨constant, mirrors, first⟩ := finds_literal item ordered.1 named.1
      obtain ⟨constants, others, behind⟩ := finds_items items ordered.2 named.2
      refine ⟨constant :: constants, .cons mirrors others, fun flag text rest here => ?_⟩
      rw [itemLiterals, intercalate_append, skip_literal] at here
      have apart : Apart (behindFirst (itemLiterals items) (']' :: rest)) :=
        apart_behindFirst _ (by rintro c ⟨⟩; decide)
      -- The list goes on, for no literal begins with its closing bracket.
      obtain ⟨c, left, shown, _, _, noEnd⟩ := item.exists_literal_cons
      have begins := here
      rw [shown, List.cons_append] at begins
      exact Literal.finds_readItems?_cons begins noEnd (first flag text _ here apart)
        (behind flag _ rest (skip_behindFirst _ _))

theorem finds_members : (members : List (String × Json)) → OrderedMembers members →
    NamedMembers members →
    ∃ fields, MirrorMembers members fields ∧ ∀ flag text rest,
      skip text = skip ((String.intercalate ", " (memberLiterals members)).toList ++
        ' ' :: '\x7d' :: rest) →
        Finds (Literal.readFields? flag text) fields rest
  | [], _, _ =>
      ⟨[], .nil, fun _ _ _ here => Literal.finds_readFields?_nil
        (here.trans ((skip_ignored rfl).trans (skip_cons rfl (by decide))))⟩
  | (key, value) :: members, ordered, named => by
      obtain ⟨constant, mirrors, first⟩ := finds_literal value ordered.1 named.2.1
      obtain ⟨fields, others, behind⟩ := finds_members members ordered.2 named.2.2
      refine ⟨(key, constant) :: fields, .cons mirrors others, fun flag text rest here => ?_⟩
      have apart : Apart (behindFirst (memberLiterals members) (' ' :: '\x7d' :: rest)) :=
        apart_behindFirst _ (by rintro c ⟨⟩; decide)
      rw [memberLiterals, intercalate_append, String.toList_append, String.toList_append,
        List.append_assoc, List.append_assoc, skip_name named.1] at here
      have field := first flag (' ' :: _) _ ((skip_ignored rfl).trans (skip_literal value _)) apart
      have read := Literal.finds_readFields?_cons named.1 here field
        (behind flag _ rest (skip_behindFirst _ _))
      rwa [String.ofList_toList] at read

end

theorem finds_integer {amount : Int} {fits : FitsWord amount}
    (here : skip text = Number.integerText amount ++ rest) (apart : Apart rest) :
    Finds (Literal.read? flag text) (.number (.integer amount fits)) rest := by
  obtain ⟨constant, mirrors, found⟩ :=
    finds_literal (.number (.integer amount fits)) trivial trivial
  cases mirrors with
  | number reread =>
      cases reread
      refine found flag text rest ?_ apart
      rw [literal, Number.text, String.toList_ofList]
      exact here

mutual

theorem Mirrors.namedKeys : {value : Json} → {constant : Literal} → Mirrors value constant →
    constant.Named → value.NamedKeys
  | _, _, .null, _ => trivial
  | _, _, .boolean _, _ => trivial
  | _, _, .number _, _ => trivial
  | _, _, .string _, _ => trivial
  | _, _, .array items, named => items.namedItems named
  | _, _, .object members, named => members.namedMembers named

theorem MirrorItems.namedItems : {items : List Json} → {constants : List Literal} →
    MirrorItems items constants → Literal.NamedItems constants → NamedItems items
  | _, _, .nil, _ => trivial
  | _, _, .cons first others, named => ⟨first.namedKeys named.1, others.namedItems named.2⟩

theorem MirrorMembers.namedMembers : {members : List (String × Json)} →
    {fields : List (String × Literal)} → MirrorMembers members fields →
    Literal.NamedFields fields → NamedMembers members
  | _, _, .nil, _ => trivial
  | _, _, .cons first others, named =>
      ⟨named.1, first.namedKeys named.2.1, others.namedMembers named.2.2⟩

end

end CodeFirst.Json
