import CodeFirst.Declaration.Error
import CodeFirst.Keyed

/-!
The registry of declarations: one entry per name, with the fields, argument lists, role and resolver
that were declared under it. An entry comes into being when its name is first looked up.
-/

namespace CodeFirst

/-- Everything declared under one name; `ρ` is the type of resolvers. -/
structure Entry (ρ : Type) where
  name : String
  fields : List Field := []
  /-- The argument slots of each method, in order of first declaration. -/
  arguments : Keyed (List (Option Argument)) := []
  role : Option TypeRole := none
  resolver : Option ρ := none

namespace Entry

variable {ρ : Type}

def empty (name : String) : Entry ρ where
  name := name

def isInput (entry : Entry ρ) : Bool :=
  match entry.role with
  | some role => role.isInput
  | none => false

/-- The argument slots of a method; a method without a declared argument has none. -/
def slots (entry : Entry ρ) (method : String) : List (Option Argument) :=
  (entry.arguments.lookup method).getD []

/-- Fills the slot at an index; the list grows by empty slots as far as needed. -/
def fillSlot (slots : List (Option Argument)) (index : Nat) (argument : Argument) :
    List (Option Argument) :=
  (slots ++ List.replicate (index + 1 - slots.length) none).set index (some argument)

def addField (entry : Entry ρ) (field : Field) : Entry ρ :=
  { entry with fields := entry.fields ++ [field] }

def addArgument (entry : Entry ρ) (argument : Argument) : Entry ρ :=
  let filled := fillSlot (entry.slots argument.method) argument.index argument
  { entry with arguments := Keyed.put argument.method filled entry.arguments }

/-- Gives the entry a role, which it keeps; an entry with a resolver takes none. -/
def setRole (entry : Entry ρ) (isInput : Bool) : Except DeclarationError (Entry ρ) :=
  match entry.resolver, entry.role with
  | some _, _ => .error (.typeOnResolver entry.name)
  | none, some _ => .error (.typeTwice entry.name)
  | none, none => .ok { entry with role := some ⟨entry.name, isInput⟩ }

/-- Binds a resolver, which the entry keeps; an entry with a role takes none. -/
def bindResolver (entry : Entry ρ) (resolver : ρ) : Except DeclarationError (Entry ρ) :=
  match entry.role, entry.resolver with
  | some _, _ => .error (.resolverOnType entry.name)
  | none, some _ => .error (.resolverTwice entry.name)
  | none, none => .ok { entry with resolver := some resolver }

end Entry

structure Registry (ρ : Type) where
  entries : Keyed (Entry ρ) := []

namespace Registry

variable {ρ : Type}

def empty : Registry ρ := {}

/-- The entry of a name, if the name was ever looked up. -/
def get? (registry : Registry ρ) (name : String) : Option (Entry ρ) :=
  registry.entries.lookup name

def names (registry : Registry ρ) : List String :=
  Keyed.names registry.entries

/-- The entry of a name, an empty one if the name is new. -/
def entryOrEmpty (registry : Registry ρ) (name : String) : Entry ρ :=
  (registry.get? name).getD (.empty name)

def setEntry (registry : Registry ρ) (name : String) (entry : Entry ρ) : Registry ρ :=
  ⟨Keyed.put name entry registry.entries⟩

/-- Looks a name up, which creates its entry. -/
def lookup (registry : Registry ρ) (name : String) : Registry ρ :=
  registry.setEntry name (registry.entryOrEmpty name)

def addField (registry : Registry ρ) (field : Field) : Registry ρ :=
  registry.setEntry field.owner ((registry.entryOrEmpty field.owner).addField field)

def addArgument (registry : Registry ρ) (argument : Argument) : Registry ρ :=
  registry.setEntry argument.owner ((registry.entryOrEmpty argument.owner).addArgument argument)

/-- Looks a name up and changes its entry. If the change is refused the lookup stays. -/
def amend (registry : Registry ρ) (name : String)
    (change : Entry ρ → Except DeclarationError (Entry ρ)) :
    Registry ρ × Except DeclarationError Unit :=
  match change (registry.entryOrEmpty name) with
  | .ok entry => (registry.setEntry name entry, .ok ())
  | .error error => (registry.lookup name, .error error)

def declareType (registry : Registry ρ) (name : String) (isInput : Bool) :
    Registry ρ × Except DeclarationError Unit :=
  registry.amend name (·.setRole isInput)

def bindResolver (registry : Registry ρ) (name : String) (resolver : ρ) :
    Registry ρ × Except DeclarationError Unit :=
  registry.amend name (·.bindResolver resolver)

end Registry

end CodeFirst
