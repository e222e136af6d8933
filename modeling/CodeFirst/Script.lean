import CodeFirst.Keyed
import CodeFirst.Resolver

/-!
Resolvers whose methods are scripted: each method is one of a few fixed behaviours, and all methods
of a resolver share one cell of state.
-/

namespace CodeFirst

/-- What a scripted method does with its arguments and the cell of its resolver. -/
inductive Behavior where
  | const (value : Json)
  | echo
  | argument (index : Nat)
  | count
  | fail (message : String)
  /-- Reads the first arguments as data of the shapes. -/
  | typed (shapes : List Shape)
  | store (index : Nat)
  /-- Appends an argument to the array in the cell; any other content becomes an empty array
  first. -/
  | append (index : Nat)
  | recall

/-- The behaviours of a resolver, by the names of its methods. -/
abbrev Script := Keyed Behavior

namespace Behavior

def itemsOf : Json → List Json
  | .array items => items
  | _ => []

/-- The result of a method, and the content of the cell after it. -/
def perform (arguments : Arguments) (cell : Json) : Behavior → Except ResolveError Json × Json
  | .const value => (.ok value, cell)
  | .echo => (.ok (.array arguments.values), cell)
  | .argument index => (.ok (arguments.value index), cell)
  | .count => (.ok (.ofInt arguments.values.length), cell)
  | .fail message => (.error (.failed message), cell)
  | .typed shapes =>
    (do return .array (← shapes.zipIdx.mapM fun (shape, index) => arguments.get index shape), cell)
  | .store index => (.ok (arguments.value index), arguments.value index)
  | .append index =>
    let content := Json.array (itemsOf cell ++ [arguments.value index])
    (.ok content, content)
  | .recall => (.ok cell, cell)

end Behavior

/-- A resolver with a script and the number of its cell. -/
structure ScriptedResolver where
  cell : Nat
  script : Script

/-- The contents of the cells by number. A cell is null at first. -/
abbrev Cells := List Json

namespace ScriptedResolver

def call (resolver : ScriptedResolver) (method : String) (arguments : Arguments) (cells : Cells) :
    Except ResolveError Json × Cells :=
  match resolver.script.lookup method with
  | none => (.error (.unknownMethod method), cells)
  | some behavior =>
    let (result, content) := behavior.perform arguments (cells[resolver.cell]?.getD .null)
    (result, cells.set resolver.cell content)

end ScriptedResolver

end CodeFirst
