import StyleTree.Error
import StyleTree.Json.Reader
import StyleTree.Options.Basic

/-! # Options in JSON

An update is an object with any of four keys, `null` leaving an option as it is; other keys are
ignored. Read from a text, none of the four may be repeated, and an array of the four values in
their order will do as well.

* **`Options.Update.ofJson?`** reads an update from either form.
* **`Options.Update.ofValue`** reads one from a JSON value, which has to be an object.
* **`Options.Update.ofText`** reads one from a text. What other keys hold is not even looked at. -/

namespace StyleTree

namespace Options

namespace Update

/-- The keys of an update, in the order in which an array gives their values. -/
def fields : List String := ["obfuscate", "minify", "vendorPrefixes", "emptyBlocks"]

/-- A value that may be missing or `null`, each meaning that nothing is set. -/
def optional? {α : Type} (read : Json → Option α) : Option Json → Option (Option α)
  | none => some none
  | some .null => some none
  | some value => (read value).map some

/-- The boolean that a value denotes. -/
def boolOfJson? : Json → Option Bool
  | .bool b => some b
  | _ => none

/-- The text that a value denotes. -/
def textOfJson? : Json → Option String
  | .string s => some s
  | _ => none

/-- The list of texts that a value denotes. -/
def textsOfJson? : Json → Option (List String)
  | .array items => items.mapM textOfJson?
  | _ => none

/-- The vendor prefixes that a value denotes. -/
def prefixesOfJson? : Json → Option (Table (List String))
  | .object members =>
    (members.mapM fun member => (textsOfJson? member.2).map (member.1, ·)).map Table.ofPairs
  | _ => none

/-- The policy that a word denotes. -/
def policyOfWord? : String → Option EmptyBlocks
  | "emit" => some .emit
  | "suppress" => some .suppress
  | _ => none

/-- The policy that a value denotes: a word, or an object whose one key is the word and holds
`null`. -/
def policyOfJson? : Json → Option EmptyBlocks
  | .string word => policyOfWord? word
  | .object [(word, .null)] => policyOfWord? word
  | _ => none

/-- The update that sets what four values denote. -/
def ofFields? (obfuscate minify vendorPrefixes emptyBlocks : Option Json) : Option Update := do
  let obfuscate ← optional? boolOfJson? obfuscate
  let minify ← optional? boolOfJson? minify
  let vendorPrefixes ← optional? prefixesOfJson? vendorPrefixes
  let emptyBlocks ← optional? policyOfJson? emptyBlocks
  pure { obfuscate, minify, vendorPrefixes, emptyBlocks }

/-- Whether none of the keys of an update is repeated. -/
def fieldsDistinct (members : List (String × Json)) : Bool :=
  decide ((Table.keys members).filter (· ∈ fields)).Nodup

/-- The update that a JSON value denotes. -/
def ofJson? : Json → Option Update
  | .object members =>
    -- with distinct keys it does not matter which occurrence a look-up finds
    if fieldsDistinct members then
      ofFields? (members.lookup "obfuscate") (members.lookup "minify")
        (members.lookup "vendorPrefixes") (members.lookup "emptyBlocks")
    else none
  | .array [obfuscate, minify, vendorPrefixes, emptyBlocks] =>
    ofFields? (some obfuscate) (some minify) (some vendorPrefixes) (some emptyBlocks)
  | _ => none

/-- The update that an object denotes. -/
def ofValue (value : Json) : Except Error Update :=
  if value.isObject then
    match ofJson? value with
    | some update => .ok update
    | none => .error .malformedOptions
  else .error .optionsNotObject

/-- The JSON value of a text without the members whose keys an update does not have. -/
def relevantJson? (text : String) : Option Json := do
  let written ← Json.Written.ofText? text
  let relevant ← written.keepMembers? (· ∈ fields)
  relevant.toJson? Json.maxDepth

/-- The update that a text denotes. -/
def ofText (text : String) : Except Error Update :=
  match (relevantJson? text).bind ofJson? with
  | some update => .ok update
  | none => .error .malformedOptions

end Update

end Options

end StyleTree
