import StyleTree.Rule.Tree
import StyleTree.Style.Text
import StyleTree.Text.SpinalCase

/-! # Declarations of a property

What an entry of a style map declares. A value that is a map gives the **sides** of the property:
each side is a property of its own, `vertical` and `horizontal` stand for two sides, and `all` for
the property itself. The entry is repeated for every **vendor prefix** before it stands alone.

The names of sides and prefixes are put together in camelCase and become spinal case as a whole.
Units and separators follow from the name without a prefix. -/

namespace StyleTree

/-- The sides that the key of a side stands for, `none` being the property itself. -/
def expandSide : String → List (Option String)
  | "all" => [none]
  | "vertical" => [some "top", some "bottom"]
  | "horizontal" => [some "right", some "left"]
  | side => [some side]

/-- The name of a side of a property. -/
def sideName (property : String) : Option String → String
  | none => property
  | some side => property ++ "-" ++ side

/-- The declaration of one side: named after `name`, with the value as `property` writes it. -/
def declareSide (name property : String) (value : StyleValue) (side : Option String) :
    Except Error Declaration := do
  let text ← value.format (sideName property side)
  pure ⟨spinalCase (sideName name side), text⟩

/-- The declarations of the sides in a map. -/
def declareSides (name property : String) :
    List (String × StyleValue) → Except Error (List Declaration)
  | [] => .ok []
  | (side, value) :: rest => do
    let declarations ← (expandSide side).mapM (declareSide name property value)
    let later ← declareSides name property rest
    pure (declarations ++ later)

/-- The declarations of a property: named after `name`, with values as `property` writes them. -/
def declareProperty (name property : String) (value : StyleValue) :
    Except Error (List Declaration) :=
  match value with
  | .map sides => declareSides name property sides
  | value => do
    let declaration ← declareSide name property value none
    pure [declaration]

/-- The name of a property with a vendor prefix. -/
def prefixedName (vendor property : String) : String := "-" ++ vendor ++ "-" ++ property

/-- The names under which an entry is declared: with every prefix, and then alone. -/
def declaredNames (prefixes : List String) (property : String) : List String :=
  prefixes.map (prefixedName · property) ++ [property]

/-- The declarations of an entry, under each of its names in turn. -/
def declareEntry (prefixes : List String) (property : String) (value : StyleValue) :
    Except Error (List Declaration) := do
  let runs ← (declaredNames prefixes property).mapM (declareProperty · property value)
  pure runs.flatten

/-- A property without prefixes is declared once. -/
theorem declareEntry_nil (property : String) (value : StyleValue) :
    declareEntry [] property value = declareProperty property property value := by
  simp only [declareEntry, declaredNames, List.map_nil, List.nil_append, List.mapM_cons,
    List.mapM_nil]
  cases declareProperty property property value <;> simp [bind, Except.bind, pure, Except.pure]

end StyleTree
