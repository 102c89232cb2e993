import StyleTree.Json.Basic
import StyleTree.Style.Value

/-! # Style values in JSON

The four forms of style values are the numbers, strings, arrays and objects of JSON; `null` and the
booleans are no style values. A value is read as it stands, each occurrence of a repeated key too,
so one bad occurrence makes the whole value unreadable even if a later one would replace it.

* **`StyleValue.ofJson?`**, **`StyleMap.ofJson?`** and **`Table.ofJson?`** read values, maps and
  tables of anything readable.
* **`StyleValue.toJson`** writes a value node by node. -/

namespace StyleTree

namespace StyleValue

mutual

/-- The style value that a JSON value denotes. -/
def ofJson? : Json → Option StyleValue
  | .null => none
  | .bool _ => none
  | .number n => some (.number n.toBinary64)
  | .string s => some (.text s)
  | .array items => (itemsOfJson? items).map .list
  | .object members => (entriesOfJson? members).map fun entries => .map (Table.ofPairs entries)

/-- `ofJson?` for each item of an array. -/
def itemsOfJson? : List Json → Option (List StyleValue)
  | [] => some []
  | item :: rest => do
    let item ← ofJson? item
    let rest ← itemsOfJson? rest
    pure (item :: rest)

/-- `ofJson?` for each member of an object. -/
def entriesOfJson? : List (String × Json) → Option (List (String × StyleValue))
  | [] => some []
  | member :: rest => do
    let entry ← entryOfJson? member
    let rest ← entriesOfJson? rest
    pure (entry :: rest)

/-- `ofJson?` for the value of a member. -/
def entryOfJson? : String × Json → Option (String × StyleValue)
  | (key, value) => (ofJson? value).map (key, ·)

end

mutual

/-- The JSON value that denotes a style value. JSON has no number that is not finite; `null` stands
in its place. -/
def toJson : StyleValue → Json
  | .number x => if x.isFinite then .number (.real x) else .null
  | .text s => .string s
  | .list items => .array (itemsToJson items)
  | .map entries => .object (entriesToJson entries)

/-- `toJson` for each item of a list. -/
def itemsToJson : List StyleValue → List Json
  | [] => []
  | item :: rest => toJson item :: itemsToJson rest

/-- `toJson` for each entry of a map. -/
def entriesToJson : List (String × StyleValue) → List (String × Json)
  | [] => []
  | entry :: rest => entryToJson entry :: entriesToJson rest

/-- `toJson` for the value of an entry. -/
def entryToJson : String × StyleValue → String × Json
  | (key, value) => (key, toJson value)

end

end StyleValue

/-- The table that an object denotes, each of whose members is read by `read`. -/
def Table.ofJson? {α : Type} (read : Json → Option α) : Json → Option (Table α)
  | .object members =>
    (members.mapM fun member => (read member.2).map (member.1, ·)).map Table.ofPairs
  | _ => none

namespace StyleMap

/-- The style map that an object denotes. -/
def ofJson? (value : Json) : Option StyleMap :=
  match StyleValue.ofJson? value with
  | some (.map entries) => some entries
  | _ => none

/-- The object that denotes a style map. -/
def toJson (styles : StyleMap) : Json := .object (StyleValue.entriesToJson styles)

end StyleMap

end StyleTree
