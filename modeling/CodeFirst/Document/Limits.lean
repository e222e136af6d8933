import CodeFirst.Document

/-!
Limits on documents: how deep selections nest, how many fields there are, and how deep fields nest.
All are taken of the selections with every fragment written out where it is spread.
-/

namespace CodeFirst

namespace Selection

/-- The name under which every object tells its type. It counts nowhere. -/
def typeName : String := "__typename"

mutual

def complexity : Selection → Nat
  | .field _ name _ _ selections => if name = typeName then 0 else 1 + totalComplexity selections
  | .spread _ _ => 0
  | .inline _ _ selections => totalComplexity selections

def totalComplexity : List Selection → Nat
  | [] => 0
  | selection :: rest => complexity selection + totalComplexity rest

end

mutual

def depth : Selection → Nat
  | .field _ name _ _ selections => if name = typeName then 0 else 1 + greatestDepth selections
  | .spread _ _ => 0
  | .inline _ _ selections => greatestDepth selections

def greatestDepth : List Selection → Nat
  | [] => 0
  | selection :: rest => max (depth selection) (greatestDepth rest)

end

/-- The selections with every known fragment as an inline fragment in the place of its spread,
unless they then nest deeper than `levels`. -/
def inlined? (fragments : Keyed Fragment) : Nat → List Selection → Option (List Selection)
  | 0, _ => none
  | levels + 1, selections => selections.mapM fun
    | .field label name arguments directives [] =>
      some (.field label name arguments directives [])
    | .field label name arguments directives inner =>
      (inlined? fragments levels inner).map (.field label name arguments directives)
    | .inline condition directives inner =>
      (inlined? fragments levels inner).map (.inline condition directives)
    | .spread name directives =>
      match fragments.lookup name with
      | some fragment =>
        (inlined? fragments levels fragment.selections).map
          (.inline (some fragment.condition) directives)
      | none => some (.spread name directives)

end Selection

namespace Document

/-- Selections may nest this deep within those of an operation, fragments written out. -/
def unfoldedLimit : Nat := 32

/-- The document with its fragments written out in its operations, if these do not nest too deep. -/
def inlined? (document : Document) : Option Document := do
  let operations ← document.operations.mapM fun operation => do
    let selections ←
      Selection.inlined? document.fragments (unfoldedLimit + 1) operation.selections
    return { operation with selections }
  return { document with operations }

end Document

end CodeFirst
