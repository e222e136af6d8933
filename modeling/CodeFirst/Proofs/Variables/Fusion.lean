import CodeFirst.Proofs.Document.Token
import CodeFirst.Proofs.Json.Literal
import CodeFirst.Proofs.Variables.Substitution
import Mathlib.Data.List.Chain

/-! The tokens of a substituted document. They are those of the document, with the token of a leaf in
place of each variable, exactly if no leaf runs into what stands beside it. -/
namespace CodeFirst

namespace Json

/-- The value holds no other. -/
def IsScalar : Json → Prop
  | .array _ => False
  | .object _ => False
  | _ => True

/-- The only token of the literal. -/
def token? (value : Json) : Option Token :=
  match Token.scan? value.literal.toList with
  | some [token] => some token
  | _ => none

/-- The literal of the value is a token that begins with no point, and ends in a digit only if it is a
number. -/
structure Renders (value : Json) (token : Token) : Prop where
  spells : token.Spells value.literal.toList
  start : value.literal.toList.head? ≠ some '.'
  ending : ∀ c ∈ value.literal.toList.getLast?, ∀ name, token = .name name → isDigit c = false

variable {value : Json} {token : Token}

theorem Renders.scan? (renders : Renders value token) :
    Token.scan? value.literal.toList = some [token] := by
  have scanned : Token.scan? (value.literal.toList ++ []) = some [token] :=
    (Token.scan?_append renders.spells).mpr ⟨nofun, Token.scanWith?_nil⟩
  rwa [List.append_nil] at scanned

theorem Renders.token?_eq (renders : Renders value token) : value.token? = some token := by
  rw [token?, renders.scan?]

theorem renders_name {text : String} (same : value.literal = text)
    (isName : Variables.IsName text.toList)
    (ending : text.toList.getLast?.any isDigit = false) : Renders value (.name text) := by
  subst same
  have spells := Token.Spells.name isName
  rw [String.ofList_toList] at spells
  refine ⟨spells, fun start => ?_, fun c last _ _ => (Option.any_eq_false _ _).mp ending c last⟩
  obtain ⟨first, rest, text, isStart⟩ := isName.start
  rw [text] at start
  cases start
  cases isStart

/-- The literal of a scalar is one token. -/
theorem exists_renders (scalar : value.IsScalar) : ∃ token, Renders value token := by
  cases value with
  | null => exact ⟨_, @renders_name _ "null" rfl (by decide) (by decide)⟩
  | boolean value =>
      cases value with
      | true => exact ⟨_, @renders_name _ "true" rfl (by decide) (by decide)⟩
      | false => exact ⟨_, @renders_name _ "false" rfl (by decide) (by decide)⟩
  | number amount =>
      obtain ⟨n, proper, text, _⟩ := amount.text_read
      have spells := Numeral.spells_written proper
      refine ⟨.number (String.ofList n.written), ?_, ?_, fun _ _ _ => nofun⟩
      · rw [literal, text]
        exact .number spells
      · obtain ⟨c, rest, written, first⟩ := spells.exists_cons
        rw [literal, text, written]
        rintro ⟨⟩
        rcases first with other | digit
        · cases other
        · cases digit
  | string value =>
      have text : (string value).literal.toList = quoted value := String.toList_ofList
      refine ⟨.string value, ?_, ?_, fun _ _ _ => nofun⟩
      · rw [text]
        exact .string value
      · rw [text]
        nofun
  | array items => exact scalar.elim
  | object members => exact scalar.elim

end Json

namespace Variables

/-- A leaf stands in place of the piece. -/
def Segment.IsReplaced (found : Keyed Json) : Segment → Prop
  | .text _ => False
  | .token name => (found.lookup (String.ofList name)).isSome = true

/-- Nothing borders the pieces off from each other: a leaf makes one word with what stands beside it, or
is a number before a point, or an empty string before a quote. -/
def RunsInto (found : Keyed Json) (left right : Segment) : Prop :=
  ∃ c ∈ (left.substituted found).getLast?, ∃ d ∈ (right.substituted found).head?,
    ((left.IsReplaced found ∨ right.IsReplaced found) ∧
      isNameRest c = true ∧ isNameRest d = true) ∨
    (left.IsReplaced found ∧ isDigit c = true ∧ d = '.') ∨
    left.substituted found = ['"', '"'] ∧ d = '"'

instance (found : Keyed Json) : DecidablePred (Segment.IsReplaced found)
  | .text _ => inferInstanceAs (Decidable False)
  | .token name => inferInstanceAs (Decidable ((found.lookup (String.ofList name)).isSome = true))

instance (found : Keyed Json) (left right : Segment) : Decidable (RunsInto found left right) :=
  @Option.decidableExistsMem _ _ (fun _ => @Option.decidableExistsMem _ _ (fun _ => inferInstance) _) _

/-- No piece runs into the next one. -/
def Bordered (found : Keyed Json) (pieces : List Segment) : Prop :=
  pieces.IsChain fun left right => ¬ RunsInto found left right

instance (found : Keyed Json) (pieces : List Segment) : Decidable (Bordered found pieces) :=
  inferInstanceAs (Decidable (pieces.IsChain _))

/-- The text of a document with the leaves in place. -/
def replaced (found : Keyed Json) (text : List Char) : List Char :=
  (segments text).flatMap (Segment.substituted found)

/-- The token of the leaf of a variable. -/
def given (members : Keyed Json) (name : String) : Option Token :=
  ((leaves members).lookup name).bind Json.token?

variable {found members : Keyed Json} {token : Token} {name text rest : List Char} {leaf : Json}
  {c : Char} {piece before : Segment}

theorem segments_text (plain : ¬ (c = '$' ∧ StartsName rest)) :
    segments (c :: rest) = .text c :: segments rest := by
  cases rest with
  | nil => rw [segments, segments]
  | cons next rest =>
      rw [segments, if_neg]
      rintro ⟨sign, start⟩
      exact plain ⟨sign, next, rfl, start⟩

theorem segments_token (isName : IsName name) (ends : EndsName rest) :
    segments ('$' :: (name ++ rest)) = .token name :: segments rest := by
  obtain ⟨first, tail, rfl, start⟩ := isName.start
  rw [List.cons_append, segments, if_pos ⟨rfl, start⟩, takeWhile_append_of_ends isName.2 ends,
    dropWhile_append_of_ends isName.2 ends]

theorem segments_append (plain : ∀ c ∈ text, c ≠ '$') :
    segments (text ++ rest) = text.map .text ++ segments rest := by
  induction text with
  | nil => rfl
  | cons c text ih =>
      obtain ⟨noSign, others⟩ := List.forall_mem_cons.mp plain
      rw [List.cons_append, segments_text fun ⟨sign, _⟩ => noSign sign, ih others]
      rfl

/-- The text of a token that is no reference is cut into its characters. -/
theorem segments_spelled (spells : token.Spells text) (noString : ∀ value, token ≠ .string value)
    (noReference : Token.reference? (text ++ rest) = none) :
    segments (text ++ rest) = text.map .text ++ segments rest := by
  by_cases sign : token = .mark '$'
  · subst sign
    obtain rfl := spells.eq_written
    refine segments_text ?_
    rintro ⟨_, next, first, start⟩
    obtain ⟨tail, rfl⟩ := List.head?_eq_some_iff.mp first
    simp [Token.written, Token.reference?, Lexeme.name?, start] at noReference
  · exact segments_append (spells.noSign sign noString)

theorem substituted_token (inserted : found.lookup (String.ofList name) = some leaf) :
    Segment.substituted found (.token name) = leaf.literal.toList := by
  rw [Segment.substituted, inserted]

theorem substituted_ne_nil (found : Keyed Json) (piece : Segment) :
    piece.substituted found ≠ [] := by
  cases piece with
  | text c => exact List.cons_ne_nil c []
  | token name =>
      rw [Segment.substituted]
      split
      · rename_i leaf _
        obtain ⟨c, behind, text, _⟩ := leaf.exists_literal_cons
        rw [text]
        exact List.cons_ne_nil c behind
      · exact List.cons_ne_nil '$' name

theorem exists_last (found : Keyed Json) (piece : Segment) :
    ∃ c, c ∈ (piece.substituted found).getLast? :=
  ⟨_, List.getLast?_eq_some_getLast (substituted_ne_nil found piece)⟩

theorem exists_first (found : Keyed Json) (piece : Segment) :
    ∃ c, c ∈ (piece.substituted found).head? :=
  ⟨_, List.head?_eq_some_head (substituted_ne_nil found piece)⟩

theorem ends_replaced :
    token.Ends (replaced found rest) ↔
      ∀ piece ∈ (segments rest).head?, token.Ends (piece.substituted found) := by
  rw [replaced]
  cases segments rest with
  | nil => exact ⟨nofun, nofun⟩
  | cons piece pieces =>
      obtain ⟨c, behind, text⟩ := List.exists_cons_of_ne_nil (substituted_ne_nil found piece)
      simp [Token.Ends, text]

/-- A piece that is kept begins as it stands in the document. -/
theorem head?_kept (first : piece ∈ (segments rest).head?) (kept : ¬ piece.IsReplaced found) :
    (piece.substituted found).head? = rest.head? := by
  revert first
  fun_cases segments rest with
  | case1 => nofun
  | case2 c =>
      rintro ⟨⟩
      rfl
  | case3 c next rest token =>
      rintro ⟨⟩
      rw [Segment.IsReplaced, Bool.not_eq_true, Option.isSome_eq_false_iff,
        Option.isNone_iff_eq_none] at kept
      rw [Segment.substituted, kept, token.1]
      rfl
  | case4 c next rest =>
      rintro ⟨⟩
      rfl

theorem runsInto_iff {d : Char} (last : c ∈ (before.substituted found).getLast?)
    (first : d ∈ (piece.substituted found).head?) :
    RunsInto found before piece ↔
      ((before.IsReplaced found ∨ piece.IsReplaced found) ∧
        isNameRest c = true ∧ isNameRest d = true) ∨
      (before.IsReplaced found ∧ isDigit c = true ∧ d = '.') ∨
      before.substituted found = ['"', '"'] ∧ d = '"' := by
  rw [Option.mem_def] at last first
  simp only [RunsInto, last, first, Option.mem_some_iff, exists_eq_left']

theorem substituted_kept {name : List Char} (kept : ¬ Segment.IsReplaced found (.token name)) :
    Segment.substituted found (.token name) = '$' :: name := by
  rw [Segment.IsReplaced, Bool.not_eq_true, Option.isSome_eq_false_iff,
    Option.isNone_iff_eq_none] at kept
  rw [Segment.substituted, kept]

theorem not_quotes_of_kept (kept : ¬ before.IsReplaced found) :
    before.substituted found ≠ ['"', '"'] := by
  cases before with
  | text c => nofun
  | token name =>
      rw [substituted_kept kept]
      nofun

/-- A piece that is kept runs only into a leaf, and makes one word with it. -/
theorem RunsInto.of_kept (runs : RunsInto found before piece) (kept : ¬ before.IsReplaced found) :
    piece.IsReplaced found ∧ ∃ c ∈ (before.substituted found).getLast?, isNameRest c = true := by
  obtain ⟨c, last, _, _, ⟨either, inName, _⟩ | ⟨replaced, _⟩ | ⟨quotes, _⟩⟩ := runs
  · exact ⟨either.resolve_left kept, c, last, inName⟩
  · exact absurd replaced kept
  · exact absurd quotes (not_quotes_of_kept kept)

theorem head?_of_replaced (replaced : piece.IsReplaced found)
    (scalars : ∀ leaf ∈ found, leaf.2.IsScalar) : (piece.substituted found).head? ≠ some '.' := by
  cases piece with
  | text c => exact replaced.elim
  | token name =>
      obtain ⟨leaf, inserted⟩ := Option.isSome_iff_exists.mp replaced
      obtain ⟨token, renders⟩ := Json.exists_renders (scalars _ (Keyed.mem_of_lookup inserted))
      rw [substituted_token inserted]
      exact renders.start

/-- A token that is kept ends before a leaf exactly if the leaf does not run into it. -/
theorem ends_kept (spells : token.Spells text) (noString : ∀ value, token ≠ .string value)
    (ends : token.Ends rest) (kept : ¬ before.IsReplaced found)
    (same : (before.substituted found).getLast? = text.getLast?)
    (scalars : ∀ leaf ∈ found, leaf.2.IsScalar) :
    token.Ends (replaced found rest) ↔
      ∀ piece ∈ (segments rest).head?, ¬ RunsInto found before piece := by
  rw [ends_replaced]
  refine forall₂_congr fun piece next => ?_
  obtain ⟨c, last⟩ := exists_last found before
  obtain ⟨d, first⟩ := exists_first found piece
  have noQuotes := not_quotes_of_kept kept
  by_cases replaced : piece.IsReplaced found
  · have noPoint : d ≠ '.' := by
      rintro rfl
      exact head?_of_replaced replaced scalars first
    have plain : text ≠ ['"', '"'] := by
      obtain ⟨c, tail, rfl, _, _, quoted⟩ := spells.exists_cons
      rintro ⟨⟩
      obtain ⟨value, string⟩ := quoted rfl
      exact noString value string
    rw [Token.ends_iff first, runsInto_iff last first,
      spells.goesOn_iff (same ▸ last) fun point => absurd point noPoint]
    simp only [replaced, or_true, true_and, kept, false_and, noQuotes, noPoint, and_false, plain]
  · have here := head?_kept next replaced
    exact iff_of_true (fun d first => ends d (here ▸ first)) fun runs =>
      replaced (runs.of_kept kept).1

/-- The token of a leaf ends exactly if the leaf does not run into what stands behind it. -/
theorem ends_leaf (renders : leaf.Renders token)
    (inserted : found.lookup (String.ofList name) = some leaf) :
    token.Ends (replaced found rest) ↔
      ∀ piece ∈ (segments rest).head?, ¬ RunsInto found (.token name) piece := by
  rw [ends_replaced]
  refine forall₂_congr fun piece _ => ?_
  obtain ⟨c, last⟩ := exists_last found (.token name)
  obtain ⟨d, first⟩ := exists_first found piece
  have replaced : Segment.IsReplaced found (.token name) := Option.isSome_of_mem inserted
  have text := substituted_token inserted
  have ending := text ▸ last
  rw [Token.ends_iff first, runsInto_iff last first,
    renders.spells.goesOn_iff ending fun _ => renders.ending c ending, text]
  simp only [replaced, true_or, true_and]

theorem bordered_text (found : Keyed Json) (text : List Char) :
    Bordered found (text.map .text) := by
  induction text with
  | nil => exact .nil
  | cons c text ih =>
      refine List.isChain_cons.mpr ⟨fun piece next => ?_, ih⟩
      obtain ⟨d, _, rfl⟩ := List.mem_map.mp (List.mem_of_head? next)
      exact fun runs => (runs.of_kept id).1

/-- The text with the leaves in place has the tokens that are expected exactly if no piece runs into the
next one. -/
def Meets (members : Keyed Json) (text : List Char) : Prop :=
  ∃ expected, Token.scanWith? (given members) text = some expected ∧
    (Token.scan? (replaced (leaves members) text) = some expected ↔
      Bordered (leaves members) (segments text))

theorem replaced_text (found : Keyed Json)
    (pieces : segments (text ++ rest) = text.map .text ++ segments rest) :
    replaced found (text ++ rest) = text ++ replaced found rest := by
  rw [replaced, pieces, List.flatMap_append, List.flatMap_map]
  exact congrArg (· ++ _) (List.flatMap_singleton' text)

theorem replaced_token (found : Keyed Json) (isName : IsName name) (endsName : EndsName rest) :
    replaced found ('$' :: (name ++ rest)) =
      Segment.substituted found (.token name) ++ replaced found rest := by
  rw [replaced, segments_token isName endsName, List.flatMap_cons]
  rfl

/-- The characters of a token run into what follows exactly if the token does not end there. -/
theorem bordered_append (some : text ≠ [])
    (ends : ∀ c ∈ text.getLast?, token.Ends (replaced found rest) ↔
      ∀ piece ∈ (segments rest).head?, ¬ RunsInto found (.text c) piece) :
    Bordered found (text.map .text ++ segments rest) ↔
      token.Ends (replaced found rest) ∧ Bordered found (segments rest) := by
  obtain ⟨c, last⟩ : ∃ c, text.getLast? = .some c := ⟨_, List.getLast?_eq_some_getLast some⟩
  rw [ends c last, Bordered, List.isChain_append, List.getLast?_map, last]
  simp only [Option.map_some, Option.mem_some_iff, forall_eq', Bordered]
  exact ⟨fun ⟨_, others, next⟩ => ⟨next, others⟩,
    fun ⟨next, others⟩ => ⟨bordered_text found text, others, next⟩⟩

theorem Meets.of_spelled (meets : Meets members rest) (spells : token.Spells text)
    (ends : token.Ends rest) (noString : ∀ value, token ≠ .string value)
    (noReference : Token.reference? (text ++ rest) = none)
    (scalars : ∀ leaf ∈ leaves members, leaf.2.IsScalar) : Meets members (text ++ rest) := by
  obtain ⟨expected, scanned, meets⟩ := meets
  have pieces := segments_spelled spells noString noReference
  refine ⟨token :: expected, ?_, ?_⟩
  · rw [Token.scanWith?_of_ends spells ends (Token.nextWith?_of_noReference noReference), scanned]
    rfl
  · rw [replaced_text _ pieces, Token.scan?_append spells, meets, pieces,
      bordered_append spells.ne_nil fun c last => ?_]
    exact ends_kept spells noString ends id last.symm scalars

theorem Meets.of_leaf (meets : Meets members rest) (isName : IsName name)
    (endsName : EndsName rest) (renders : leaf.Renders token)
    (inserted : (leaves members).lookup (String.ofList name) = some leaf) :
    Meets members ('$' :: (name ++ rest)) := by
  obtain ⟨expected, scanned, meets⟩ := meets
  have isGiven : given members (String.ofList name) = some token := by
    rw [given, inserted]
    exact renders.token?_eq
  refine ⟨token :: expected, ?_, ?_⟩
  · rw [Token.scanWith?_of_finds (Lexeme.skip_cons rfl (by decide)) (List.cons_ne_nil _ _)
      (Token.finds_nextWith? isName endsName isGiven), scanned]
    rfl
  · rw [replaced_token _ isName endsName, substituted_token inserted,
      Token.scan?_append renders.spells, meets, ends_leaf renders inserted, Bordered, Bordered,
      segments_token isName endsName, List.isChain_cons]

theorem Meets.of_kept (meets : Meets members rest) (isName : IsName name)
    (endsName : EndsName rest) (absent : (leaves members).lookup (String.ofList name) = none)
    (scalars : ∀ leaf ∈ leaves members, leaf.2.IsScalar) :
    Meets members ('$' :: (name ++ rest)) := by
  obtain ⟨expected, scanned, meets⟩ := meets
  have kept : ¬ Segment.IsReplaced (leaves members) (.token name) := by
    rw [Segment.IsReplaced, absent]
    exact Bool.false_ne_true
  have notGiven : given members (String.ofList name) = none := by
    rw [given, absent]
    rfl
  have spells := Token.Spells.name isName
  have same : (Segment.substituted (leaves members) (.token name)).getLast? = name.getLast? := by
    rw [substituted_kept kept]
    exact List.getLast?_append_of_ne_nil ['$'] spells.ne_nil
  refine ⟨.mark '$' :: .name (String.ofList name) :: expected, ?_, ?_⟩
  · have behind : Token.nextWith? (given members) (name ++ rest) = Token.next? (name ++ rest) :=
      Token.nextWith?_of_noReference (Token.reference?_eq_none isName rest)
    rw [Token.scanWith?_sign (Token.nextWith?_of_absent isName endsName notGiven),
      Token.scanWith?_of_ends spells endsName behind, scanned]
    rfl
  · rw [replaced_token _ isName endsName, substituted_kept kept, List.cons_append,
      Token.scan?_sign, Option.map_eq_some_iff]
    simp only [List.cons.injEq, true_and, exists_eq_right]
    rw [Token.scan?_append spells, meets, ends_kept spells nofun endsName kept same scalars,
      Bordered, Bordered, segments_token isName endsName, List.isChain_cons]

theorem Meets.of_ignored (meets : Meets members rest) (ignored : Lexeme.isIgnored c = true) :
    Meets members (c :: rest) := by
  obtain ⟨expected, scanned, meets⟩ := meets
  have plain : ¬ (c = '$' ∧ StartsName rest) := by
    rintro ⟨rfl, _⟩
    cases ignored
  have apart : ∀ piece ∈ (segments rest).head?, ¬ RunsInto (leaves members) (.text c) piece := by
    intro piece _ runs
    obtain ⟨_, d, last, inName⟩ := runs.of_kept id
    obtain rfl : c = d := Option.some.inj last
    cases inName.symm.trans (Lexeme.isNameRest_of_isIgnored ignored)
  refine ⟨expected, by rw [Token.scanWith?_ignored ignored, scanned], ?_⟩
  have behind : Token.scan? (c :: replaced (leaves members) rest) =
      Token.scan? (replaced (leaves members) rest) := Token.scanWith?_ignored ignored _
  rw [replaced, segments_text plain, List.flatMap_cons, Bordered, List.isChain_cons,
    and_iff_right apart]
  exact (iff_of_eq (congrArg (· = some expected) behind)).trans meets

theorem meets_of_lexed (scalars : ∀ leaf ∈ leaves members, leaf.2.IsScalar)
    (lexed : Token.Lexed text) : Meets members text := by
  induction lexed with
  | nil =>
      refine ⟨[], Token.scanWith?_nil, ?_⟩
      rw [replaced, segments]
      exact iff_of_true Token.scanWith?_nil .nil
  | ignored ignored _ ih => exact ih.of_ignored ignored
  | token spells ends noString noReference _ ih =>
      exact ih.of_spelled spells ends noString noReference scalars
  | @reference name rest isName endsName _ ih =>
      cases inserted : (leaves members).lookup (String.ofList name) with
      | none => exact ih.of_kept isName endsName inserted scalars
      | some leaf =>
          obtain ⟨token, renders⟩ :=
            Json.exists_renders (scalars _ (Keyed.mem_of_lookup inserted))
          exact ih.of_leaf isName endsName renders inserted

theorem substitute_replaced (document : String) (members : Keyed Json) :
    substitute document (.object members) =
      .ok (String.ofList (replaced (leaves members) document.toList)) := by
  rw [substitute_object, replaced, Cut.flatMap_substituted]
  rfl

variable {document : String}

/-- The tokens of a substituted document are those that are expected exactly if no leaf runs into what
stands beside it. -/
theorem tokens_substitute (plain : ∀ c ∈ document.toList, c ≠ '"' ∧ c ≠ '#')
    (scalars : ∀ leaf ∈ leaves members, leaf.2.IsScalar)
    (lexes : (Token.scan? document.toList).isSome = true) :
    (∀ name leaf, (leaves members).lookup name = some leaf → ∃ token,
      given members name = some token ∧ Token.scan? leaf.literal.toList = some [token]) ∧
    ∃ result expected, substitute document (.object members) = .ok result ∧
      Token.scanWith? (given members) document.toList = some expected ∧
      (Token.scan? result.toList = some expected ↔
        Bordered (leaves members) (segments document.toList)) := by
  constructor
  · intro name leaf inserted
    obtain ⟨token, renders⟩ := Json.exists_renders (scalars _ (Keyed.mem_of_lookup inserted))
    refine ⟨token, ?_, renders.scan?⟩
    rw [given, inserted]
    exact renders.token?_eq
  · obtain ⟨tokens, scanned⟩ := Option.isSome_iff_exists.mp lexes
    obtain ⟨expected, given, meets⟩ := meets_of_lexed scalars (Token.lexed_of_scan? plain scanned)
    refine ⟨_, expected, substitute_replaced document members, given, ?_⟩
    rwa [String.toList_ofList]

/-- Scalars of all kinds, with an empty string among them. -/
def sundries : Keyed Json :=
  [("b", .boolean true), ("e", .string ""), ("i", .number (.integer (-3) (by decide))),
    ("n", .object [("deep", .null)]), ("s", .string "$b \" #")]

/-- Text that leaves stand right beside. -/
def crowded : String :=
  "f(x:$b,y:[$deep$s$e$i $b])\x7b$other...$i\x7d"

theorem tokens_crowded :
    ((∀ c ∈ crowded.toList, c ≠ '"' ∧ c ≠ '#') ∧
      (∀ leaf ∈ leaves sundries, leaf.2.IsScalar) ∧
      (Token.scan? crowded.toList).isSome = true) ∧
    ∃ result expected, substitute crowded (.object sundries) = .ok result ∧
      Token.scanWith? (given sundries) crowded.toList = some expected ∧
      Token.scan? result.toList = some expected := by
  have plain : ∀ c ∈ crowded.toList, c ≠ '"' ∧ c ≠ '#' := by simp [crowded]
  have lexes : (Token.scan? crowded.toList).isSome = true := by decide +kernel
  have scalars : ∀ leaf ∈ leaves sundries, leaf.2.IsScalar := by
    simp [sundries, leaves, leavesUnder, Json.IsScalar]
  have bordered : Bordered (leaves sundries) (segments crowded.toList) := by decide +kernel
  obtain ⟨_, result, expected, substituted, scanned, meets⟩ :=
    tokens_substitute plain scalars lexes
  exact ⟨⟨plain, scalars, lexes⟩, result, expected, substituted, scanned, meets.mpr bordered⟩

/-- Two numbers beside each other. -/
def couple : Keyed Json :=
  [("x", .number (.integer 1 (by decide))), ("y", .number (.integer 2 (by decide)))]

/-- They become one number in the document. -/
theorem fused_couple :
    ((∀ c ∈ "[$x$y]".toList, c ≠ '"' ∧ c ≠ '#') ∧ ∀ leaf ∈ leaves couple, leaf.2.IsScalar) ∧
    Token.scanWith? (given couple) "[$x$y]".toList =
      some [.mark '[', .number "1", .number "2", .mark ']'] ∧
    substitute "[$x$y]" (.object couple) = .ok "[12]" ∧
    Token.scan? "[12]".toList = some [.mark '[', .number "12", .mark ']'] := by
  have plain : ∀ c ∈ "[$x$y]".toList, c ≠ '"' ∧ c ≠ '#' := by simp
  have scalars : ∀ leaf ∈ leaves couple, leaf.2.IsScalar := by
    simp [couple, leaves, leavesUnder, Json.IsScalar]
  exact ⟨⟨plain, scalars⟩, by decide +kernel⟩

end Variables

end CodeFirst
