import StyleTree.Decimal.Binary64
import StyleTree.Table

/-! # Style values

A **style map** gives values to keys: properties, nested selectors and media queries. A **style
value** is a number, a text, a list of style values or again a style map.

* **`StyleValue.leaves`** lists what a value consists of once its nested lists are flattened.
* **`StyleMap.Distinct`** says that neither a style map nor any map inside it repeats a key. -/

namespace StyleTree

/-- A style value. -/
inductive StyleValue
  /-- A number; its unit follows from the property. -/
  | number (x : Binary64)
  /-- A text that is written as it is. -/
  | text (s : String)
  /-- Values that are written one after another. -/
  | list (items : List StyleValue)
  /-- The style map of a nested selector or media query, or the sides of a property. -/
  | map (entries : List (String × StyleValue))
deriving Repr, Inhabited

/-- Style values by key, in order. -/
abbrev StyleMap := Table StyleValue

namespace StyleValue

/-- The name of a value's form, as messages call it. -/
def shape : StyleValue → String
  | .number _ => "number"
  | .text _ => "string"
  | .list _ => "array"
  | .map _ => "object"

mutual

/-- The values other than lists, from left to right, through lists of any depth. -/
def leaves : StyleValue → List StyleValue
  | .list items => leavesOfItems items
  | .number x => [.number x]
  | .text s => [.text s]
  | .map entries => [.map entries]

/-- The leaves of each item of a list. -/
def leavesOfItems : List StyleValue → List StyleValue
  | [] => []
  | item :: rest => leaves item ++ leavesOfItems rest

end

mutual

/-- No map inside the value repeats a key. -/
def Distinct : StyleValue → Prop
  | .list items => DistinctItems items
  | .map entries => Table.Distinct entries ∧ DistinctEntries entries
  | _ => True

/-- `Distinct` for each item of a list. -/
def DistinctItems : List StyleValue → Prop
  | [] => True
  | item :: rest => Distinct item ∧ DistinctItems rest

/-- `Distinct` for each entry of a map. -/
def DistinctEntries : List (String × StyleValue) → Prop
  | [] => True
  | entry :: rest => DistinctEntry entry ∧ DistinctEntries rest

/-- `Distinct` for the value of an entry. -/
def DistinctEntry : String × StyleValue → Prop
  | (_, value) => Distinct value

end

end StyleValue

/-- Neither the style map nor any map inside it repeats a key. -/
def StyleMap.Distinct (styles : StyleMap) : Prop := (StyleValue.map styles).Distinct

end StyleTree
