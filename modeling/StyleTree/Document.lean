import StyleTree.Error
import StyleTree.Json.Reader
import StyleTree.Style.Decoding

/-! # Style documents

A **document** bundles options with the styles of tags, classes and keyframe animations, so that one
text describes a whole style sheet. Its options are kept as they are written and only read when the
document is compiled.

* **`Document.ofJson?`** reads a document from an object, no key of which may be unknown or
  repeated, or from an array of the sections in their order, from which the last may be missing.
* **`Document.ofText`** reads one from a text. -/

namespace StyleTree

/-- Style maps by selector: tags or class names. -/
abbrev RuleSet := Table StyleMap

/-- The style maps of the frames of animations, by animation name and percentage. -/
abbrev KeyframeSet := Table (Table StyleMap)

/-- A style document. -/
structure Document where
  /-- The options, unread. -/
  options : Option Json := none
  /-- The styles of tags. -/
  tags : RuleSet := []
  /-- The styles of classes. -/
  classes : RuleSet := []
  /-- The frames of animations. -/
  animations : KeyframeSet := []
deriving Repr, Inhabited

/-- The rule set that an object denotes. -/
def RuleSet.ofJson? : Json → Option RuleSet := Table.ofJson? StyleMap.ofJson?

/-- The keyframe set that an object denotes. -/
def KeyframeSet.ofJson? : Json → Option KeyframeSet :=
  Table.ofJson? (Table.ofJson? StyleMap.ofJson?)

namespace Document

/-- The sections, in the order in which an array gives them. -/
def sections : List String := ["options", "tags", "classes", "animations"]

/-- Options that may be missing or `null`, each meaning that there are none. -/
def readOptions : Option Json → Option Json
  | none => none
  | some .null => none
  | some value => some value.resolve

/-- A section that may be missing, and is empty then. -/
def readSection? {α : Type} (read : Json → Option (Table α)) : Option Json → Option (Table α)
  | none => some []
  | some value => read value

/-- The document with the given sections. -/
def ofSections? (options tags classes animations : Option Json) : Option Document := do
  let tags ← readSection? RuleSet.ofJson? tags
  let classes ← readSection? RuleSet.ofJson? classes
  let animations ← readSection? KeyframeSet.ofJson? animations
  pure { options := readOptions options, tags, classes, animations }

/-- The document that a JSON value denotes. -/
def ofJson? : Json → Option Document
  | .object members =>
    if (Table.keys members).Nodup ∧ ∀ key ∈ Table.keys members, key ∈ sections then
      ofSections? (members.lookup "options") (members.lookup "tags") (members.lookup "classes")
        (members.lookup "animations")
    else none
  | .array items =>
    if items.length ≤ 4 then ofSections? items[0]? items[1]? items[2]? items[3]? else none
  | _ => none

/-- The document that a text denotes. -/
def ofText (text : String) : Except Error Document :=
  match (Json.ofText? text).bind ofJson? with
  | some document => .ok document
  | none => .error .malformedDocument

end Document

end StyleTree
