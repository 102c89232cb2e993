import StyleTree.Error
import StyleTree.Style.Value

/-! # The text of a style value

How a value is written for a property. Texts are written as they are, numbers with the unit of the
property, and the items of a list one after another with the separator of the property.

* **`NumberUnit.ofProperty`** and **`listSeparator`** are the property's part in it.
* **`StyleValue.format`** writes a value, or says why its leftmost bad part cannot be written. -/

namespace StyleTree

/-- The unit of a number. -/
inductive NumberUnit
  | unitless
  | milliseconds
  | pixels
deriving DecidableEq, Repr

namespace NumberUnit

/-- How a unit is written after a number. -/
def suffix : NumberUnit → String
  | .unitless => ""
  | .milliseconds => "ms"
  | .pixels => "px"

/-- The properties whose numbers have no unit. -/
def unitlessProperties : List String := ["opacity", "animationIterationCount"]

/-- The properties whose numbers are durations. -/
def durationProperties : List String :=
  ["transition", "transitionDuration", "transitionDelay", "animation", "animationDuration",
    "animationDelay"]

/-- The unit of the numbers of a property. -/
def ofProperty (property : String) : NumberUnit :=
  if property ∈ unitlessProperties then .unitless
  else if property ∈ durationProperties then .milliseconds
  else .pixels

end NumberUnit

/-- What stands between the items of a list: a comma for font families, else a blank. -/
def listSeparator (property : String) : String :=
  if property = "fontFamily" then ", " else " "

/-- The text of a number. Zero, of either sign, needs no unit. -/
def formatNumber (property : String) (x : Binary64) : Except Error String :=
  if !x.isFinite then .error (.unsupportedValue property (.notFinite x))
  else if x.isZero then .ok "0"
  else .ok (x.text ++ (NumberUnit.ofProperty property).suffix)

namespace StyleValue

mutual

/-- The text of a value for a property. -/
def format (property : String) : StyleValue → Except Error String
  | .number x => formatNumber property x
  | .text s => .ok s
  | .list items => (formatItems property items).map (String.intercalate (listSeparator property))
  | .map _ => .error (.unsupportedValue property .map)

/-- The texts of the items of a list. -/
def formatItems (property : String) : List StyleValue → Except Error (List String)
  | [] => .ok []
  | item :: rest => do
    let item ← format property item
    let rest ← formatItems property rest
    pure (item :: rest)

end

@[simp] theorem format_text (property s : String) : format property (.text s) = .ok s := rfl

@[simp] theorem format_number (property : String) (x : Binary64) :
    format property (.number x) = formatNumber property x := rfl

@[simp] theorem format_map (property : String) (entries : List (String × StyleValue)) :
    format property (.map entries) = .error (.unsupportedValue property .map) := rfl

/-- A list is written as its items, joined by the separator of its property. -/
theorem format_list (property : String) (items : List StyleValue) :
    format property (.list items) =
      (formatItems property items).map (String.intercalate (listSeparator property)) := rfl

end StyleValue

/-- A number that is not finite cannot be written. -/
theorem formatNumber_of_not_isFinite (property : String) {x : Binary64} (h : x.isFinite = false) :
    formatNumber property x = .error (.unsupportedValue property (.notFinite x)) := by
  simp [formatNumber, h]

end StyleTree
