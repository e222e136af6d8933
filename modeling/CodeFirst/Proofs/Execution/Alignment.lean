import CodeFirst.Execution
import CodeFirst.Proofs.Compilation.Closure
import CodeFirst.Proofs.Registry.Slots

/-! From the declaration of arguments to the call of a method: each submitted argument comes to the
position at which its name was declared last. A call is told by its caller, for any state and with
any answer: the field comes to the answer, and the state that the caller leaves is kept. -/
namespace CodeFirst
namespace Literal

mutual

/-- A value as it is written where no variable is needed. -/
def ofValue : Value → Literal
  | .null => .null
  | .boolean flag => .boolean flag
  | .number amount => .number amount
  | .string text => .string text
  | .word name => .word name
  | .list items => .list (ofItemValues items)
  | .object fields => .object (ofFieldValues fields)

def ofItemValues : List Value → List Literal
  | [] => []
  | item :: rest => ofValue item :: ofItemValues rest

def ofFieldValues : Keyed Value → List (String × Literal)
  | [] => []
  | (key, value) :: rest => (key, ofValue value) :: ofFieldValues rest

end

variable (assign : String → Option Value)

mutual

theorem value?_ofValue : (value : Value) → (ofValue value).value? assign = some value
  | .null => rfl
  | .boolean _ => rfl
  | .number _ => rfl
  | .string _ => rfl
  | .word _ => rfl
  | .list items => by rw [ofValue, value?, itemValues?_ofItemValues items, Option.map_some]
  | .object fields => by rw [ofValue, value?, fieldValues?_ofFieldValues fields, Option.map_some]

theorem itemValues?_ofItemValues : (items : List Value) →
    itemValues? assign (ofItemValues items) = some items
  | [] => rfl
  | item :: rest => by
      rw [ofItemValues, itemValues?, value?_ofValue item, itemValues?_ofItemValues rest]
      rfl

theorem fieldValues?_ofFieldValues : (fields : Keyed Value) →
    fieldValues? assign (ofFieldValues fields) = some fields
  | [] => rfl
  | (_, value) :: rest => by
      rw [ofFieldValues, fieldValues?, value?_ofValue value, fieldValues?_ofFieldValues rest]
      rfl

end

end Literal

namespace Execution
open Outcome Compilation

variable {σ ρ : Type}

theorem argumentValues_ofFieldValues (definitions : List VariableDefinition)
    (submitted : Keyed Value) :
    argumentValues definitions (Literal.ofFieldValues submitted) = .ok submitted := by
  apply mapM_eq_ok.mpr
  induction submitted with
  | nil => exact .nil
  | cons head rest ih =>
      refine .cons ?_ ih
      dsimp only
      rw [Literal.value?_ofValue]

/-- The arguments of a call by position, from those that are declared for its method and those that
are submitted by name. -/
def positioned (declared : List Argument) (submitted : Keyed Value) : Arguments :=
  ⟨(List.range (Entry.extent declared)).map fun index =>
    match (Entry.latest declared index).bind fun argument => submitted.lookup argument.name with
    | some value => value.toJson
    | none => .null⟩

theorem align_filled (declared : List Argument) (submitted : Keyed Value) :
    align ((Entry.filled declared).map (Option.map Argument.name)) submitted =
      positioned declared submitted := by
  unfold align positioned
  rw [Entry.filled_eq, List.map_map, List.map_map]
  congr 2
  funext index
  simp only [Function.comp_apply]
  cases Entry.latest declared index with
  | none => rfl
  | some argument => rfl

theorem positioned_perm (declared : List Argument) {submitted other : Keyed Value}
    (distinct : (Keyed.names submitted).Nodup) (same : submitted.Perm other) :
    positioned declared other = positioned declared submitted := by
  unfold positioned
  simp only [Keyed.lookup_perm distinct same]

theorem resolve_of_call {context : Context σ ρ} {field : OutputField ρ} {resolver : ρ}
    {method : String} {slots : List (Option String)} {arguments : List (String × Literal)}
    {submitted : Keyed Value} (source : field.source = .call resolver method slots)
    (given : argumentValues context.definitions arguments = .ok submitted) (parent : FieldValue) :
    resolve context field parent arguments =
      invoke context resolver method (align slots submitted) := by
  unfold resolve
  rw [given, source]
  rfl

section Invoke

variable {context : Context σ ρ} {resolver : ρ} {method : String} {arguments : Arguments}
  {progress : Progress σ} {state : σ}

/-- The answer of a method is resolved at once, and the state that its call leaves is kept. -/
theorem run_invoke {answer : Except ResolveError Json}
    (called : context.call resolver method arguments progress.state = (answer, state)) :
    (invoke context resolver method arguments).run.run.run progress =
      (.ok ((answer.map fun json => FieldValue.ofValue? (Value.ofJson json)).mapError .unresolved),
        { progress with state }) := by
  obtain ⟨schema, call, definitions⟩ := context
  dsimp only at called
  unfold invoke
  -- The call stands below the reading of the state, so that its answer can be put in only then.
  conv_lhs => whnf
  rw [called]
  cases answer with
  | ok json => rfl
  | error error => rfl

theorem invoke_of_ok {json : Json}
    (returned : context.call resolver method arguments progress.state = (.ok json, state)) :
    (invoke context resolver method arguments).run.run.run progress =
      (.ok (.ok (FieldValue.ofValue? (Value.ofJson json))), { progress with state }) :=
  run_invoke returned

/-- A method that fails leaves an error of its field. -/
theorem invoke_of_error {error : ResolveError}
    (refused : context.call resolver method arguments progress.state = (.error error, state)) :
    (invoke context resolver method arguments).run.run.run progress =
      (.ok (.error (.unresolved error)), { progress with state }) :=
  run_invoke refused

end Invoke

/-- A field that comes to what the caller gives for a method of a resolver, when that is called once
with the arguments that are made of those submitted. -/
structure Calls (field : OutputField ρ) (resolver : ρ) (method : String)
    (arranged : Keyed Value → Arguments) : Prop where
  returned : ∀ {σ : Type} (context : Context σ ρ) (parent : FieldValue)
    (arguments : List (String × Literal)) (submitted : Keyed Value),
    argumentValues context.definitions arguments = .ok submitted →
    ∀ (progress : Progress σ) (json : Json) (state : σ),
      context.call resolver method (arranged submitted) progress.state = (.ok json, state) →
        (resolve context field parent arguments).run.run.run progress =
          (.ok (.ok (FieldValue.ofValue? (Value.ofJson json))), { progress with state })
  refused : ∀ {σ : Type} (context : Context σ ρ) (parent : FieldValue)
    (arguments : List (String × Literal)) (submitted : Keyed Value),
    argumentValues context.definitions arguments = .ok submitted →
    ∀ (progress : Progress σ) (error : ResolveError) (state : σ),
      context.call resolver method (arranged submitted) progress.state = (.error error, state) →
        (resolve context field parent arguments).run.run.run progress =
          (.ok (.error (.unresolved error)), { progress with state })

theorem calls_of_source {field : OutputField ρ} {resolver : ρ} {method : String}
    {slots : List (Option String)} (source : field.source = .call resolver method slots) :
    Calls field resolver method (align slots) := by
  constructor
  case returned =>
    intro σ context parent arguments submitted given progress json state returned
    rw [resolve_of_call source given]
    exact invoke_of_ok returned
  case refused =>
    intro σ context parent arguments submitted given progress error state refused
    rw [resolve_of_call source given]
    exact invoke_of_error refused

/-- A root field that calls a method of a resolver with what is submitted, in whatever order, at the
positions that a history declares for the method of an owner. -/
structure Aligned (introspect : Introspector) (history : List (Registration ρ)) (owner : String)
    (resolver : ρ) (method : String) (field : OutputField ρ) : Prop where
  source : ∃ slots, field.source = .call resolver method slots ∧ ∀ submitted : Keyed Value,
    align slots submitted =
      positioned (Registry.declaredArguments introspect owner method history) submitted
  call : Calls field resolver method
    (positioned (Registry.declaredArguments introspect owner method history))
  /-- Every map of values can be submitted. -/
  submittable : ∀ (definitions : List VariableDefinition) (submitted : Keyed Value),
    ∃ arguments, argumentValues definitions arguments = .ok submitted
  anyOrder : ∀ submitted other : Keyed Value, (Keyed.names submitted).Nodup →
    submitted.Perm other →
      positioned (Registry.declaredArguments introspect owner method history) other =
        positioned (Registry.declaredArguments introspect owner method history) submitted

/-- Each root field is the last operation with its name, and is aligned with the declarations for
the owner of that operation. -/
theorem aligned_of_compile {introspect : Introspector} {history : List (Registration ρ)}
    {config : Config} {resolvers : List String} {compiled : Compiled ρ} {kind : FieldKind}
    {name : String} {field : OutputField ρ}
    (run : compile (Registry.empty.replay introspect history) config resolvers = .ok compiled)
    (member : (name, field) ∈ compiled.roots.ofKind kind) :
    ∃ owner ∈ resolvers, ∃ entry operation resolver,
      (Registry.empty.replay introspect history).get? owner = some entry ∧
      lastOperation? kind
        (declaredFields (namedEntries (Registry.empty.replay introspect history) resolvers)) name =
          some (entry, operation) ∧
      entry.resolver = some resolver ∧ Aligned introspect history owner resolver name field := by
  have success := compile_eq_ok.mp run
  obtain ⟨⟨entry, operation⟩, last, compiledRoot⟩ := success.exists_lastOperation member
  obtain ⟨declared, -, named⟩ := mem_of_lastOperation? last
  obtain ⟨among, -⟩ := mem_declaredFields.mp declared
  obtain ⟨owner, listed, found⟩ := mem_namedEntries.mp among
  obtain ⟨resolver, bound, compiledOperation⟩ :=
    bindOperation_eq_ok.mp (compileRoot_eq_ok.mp compiledRoot).1
  obtain ⟨-, type, items, -, -, same⟩ := compileOperation_eq_ok.mp compiledOperation
  have slots : entry.slots name =
      Entry.filled (Registry.declaredArguments introspect owner name history) := by
    rw [← Registry.slots_of_get? found]
    exact Registry.slots_replay_empty history
  have source : field.source =
      .call resolver name ((entry.slots name).map (Option.map Argument.name)) := by
    cases named
    exact congrArg OutputField.source same.symm
  rw [slots] at source
  refine ⟨owner, listed, entry, operation, resolver, found, last, bound, ?_⟩
  constructor
  case source => exact ⟨_, source, align_filled _⟩
  case call =>
    have arranged := funext (align_filled (Registry.declaredArguments introspect owner name history))
    rw [← arranged]
    exact calls_of_source source
  case submittable =>
    exact fun definitions submitted => ⟨_, argumentValues_ofFieldValues definitions submitted⟩
  case anyOrder => exact fun submitted other => positioned_perm _

theorem aligned_library : ∃ compiled field,
    compile (Registry.empty.replay .nothing library) {} ["Library"] = .ok compiled ∧
      ("book", field) ∈ compiled.roots.ofKind .query ∧
      ∃ owner ∈ ["Library"], ∃ resolver, Aligned .nothing library owner resolver "book" field := by
  have accepted : (compile (Registry.empty.replay .nothing library) {} ["Library"]).map
      (fun compiled => ((compiled.roots.ofKind .query).lookup "book").isSome) = .ok true := by
    decide +kernel
  obtain ⟨compiled, run, present⟩ := map_eq_ok.mp accepted
  obtain ⟨field, found⟩ := Option.isSome_iff_exists.mp present
  have member := Keyed.mem_of_lookup found
  obtain ⟨owner, listed, _, _, resolver, _, _, _, aligned⟩ := aligned_of_compile run member
  exact ⟨compiled, field, run, member, owner, listed, resolver, aligned⟩

example : positioned (Registry.declaredArguments .nothing "Library" "book" library)
    [("filter", .string "also"), ("other", .null)] = ⟨[.null, .string "also"]⟩ := by
  rfl

end Execution

end CodeFirst
