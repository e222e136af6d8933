import CodeFirst.Document.Violation

/-!
Variables and fragments across a document. Each operation and each fragment is a scope with its own
uses; an operation answers for the uses of every fragment that it reaches.
-/

namespace CodeFirst

structure Uses where
  /-- The variables, at every mention. -/
  mentions : List String := []
  spreads : List String := []

abbrev FragmentUses := Keyed Uses

namespace FragmentUses

/-- All uses that a scope answers for: its own, then those of the fragments it reaches. -/
def gathered (fragments : FragmentUses) (uses : Uses) : List Uses :=
  uses :: (Keyed.reach (·.spreads) fragments [] uses.spreads).filterMap fun name =>
    fragments.lookup name

/-- Follows the spreads of a fragment on a path of fragments to those that lead back into the path.
Fragments that were visited are not followed again. Each step makes the path longer by one of the
fragments, so their number bounds the steps. -/
def followSpreads (fragments : FragmentUses) :
    Nat → List String → String → List String → List String × List Violation
  | 0, _, _, visited => (visited, [])
  | steps + 1, path, name, visited =>
    match fragments.lookup name with
    | none => (name :: visited, [])
    | some uses =>
      uses.spreads.foldl (fun (visited, cycles) next =>
        if next ∈ name :: path then (visited, cycles ++ [.fragmentCycle next])
        else if next ∈ visited then (visited, cycles)
        else
          let (visited, more) := followSpreads fragments steps (name :: path) next visited
          (visited, cycles ++ more)) (name :: visited, [])

/-- The spreads that close a cycle of fragments. -/
def cycles (fragments : FragmentUses) : List Violation :=
  ((Keyed.names fragments).foldl (fun (visited, cycles) name =>
    if name ∈ visited then (visited, cycles)
    else
      let (visited, more) := fragments.followSpreads (fragments.length + 1) [] name visited
      (visited, cycles ++ more)) ([], [])).2

end FragmentUses

/-- An operation with its variables and what it uses itself. -/
structure OperationUses where
  name : Option String
  definitions : List VariableDefinition
  uses : Uses

namespace OperationUses

variable (fragments : FragmentUses) (operation : OperationUses)

def unused : List Violation :=
  let used := (fragments.gathered operation.uses).flatMap (·.mentions)
  operation.definitions.filterMap fun definition =>
    if definition.name ∈ used then none else some (.unusedVariable definition.name operation.name)

/-- Variables that are used and not defined, once for each scope that uses them. -/
def undefined : List Violation :=
  (fragments.gathered operation.uses).flatMap fun uses =>
    uses.mentions.eraseDups.filterMap fun name =>
      if operation.definitions.any (·.name = name) then none
      else some (.undefinedVariable name operation.name)

end OperationUses

def scopeViolations (fragments : FragmentUses) (operations : List OperationUses) : List Violation :=
  let reached := Keyed.reach (·.spreads) fragments [] (operations.flatMap (·.uses.spreads))
  operations.flatMap (·.unused fragments) ++
    ((Keyed.names fragments).filter (· ∉ reached)).map .unusedFragment ++
    operations.flatMap (·.undefined fragments) ++ fragments.cycles

end CodeFirst
