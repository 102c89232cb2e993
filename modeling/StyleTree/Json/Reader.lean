import StyleTree.Json.Token
import StyleTree.Json.Written

/-! # Reading JSON text

A text is read token by token. What has been read so far is a **`Reader`**: the arrays and objects
that are still open, innermost first, and what the text may go on with. Nesting costs no recursion,
so texts of any depth can be read.

* **`Json.Reader.next?`** reads one more token; it fails where the grammar allows no such token.
* **`Json.Written.ofText?`** reads a whole text as it is written, **`Json.ofText?`** as a value that
  may repeat keys, and **`Json.valueOfText?`** as a value in which repeated keys are resolved. -/

namespace StyleTree

namespace Json

/-- An array or object that is still open while a value in it is read. Items and members already
read come last first. -/
inductive Frame
  | array (items : List Written)
  /-- The key is the one whose value is read. -/
  | object (members : List (Option String × Written)) (key : Option String)

/-- What has been read of a text, told apart by what may come next. -/
inductive Reader
  /-- A value. -/
  | beforeValue (frames : List Frame)
  /-- The first item of an array, or its end. -/
  | beforeFirstItem (frames : List Frame)
  /-- A comma or the end of an array. -/
  | afterItem (frames : List Frame) (items : List Written)
  /-- The first key of an object, or its end. -/
  | beforeFirstKey (frames : List Frame)
  /-- A key. -/
  | beforeKey (frames : List Frame) (members : List (Option String × Written))
  /-- A colon. -/
  | afterKey (frames : List Frame) (members : List (Option String × Written)) (key : Option String)
  /-- A comma or the end of an object. -/
  | afterMember (frames : List Frame) (members : List (Option String × Written))
  /-- Nothing. -/
  | done (value : Written)

namespace Reader

/-- Put a complete value into the innermost open array or object. -/
def complete (value : Written) : List Frame → Reader
  | [] => .done value
  | .array items :: outer => .afterItem outer (value :: items)
  | .object members key :: outer => .afterMember outer ((key, value) :: members)

/-- Start reading a value at its first token. -/
def begin? (frames : List Frame) : Token → Option Reader
  | .openArray => some (.beforeFirstItem frames)
  | .openObject => some (.beforeFirstKey frames)
  | .null => some (complete .null frames)
  | .bool b => some (complete (.bool b) frames)
  | .number n => some (complete (.number n) frames)
  | .string text => some (complete (.string text) frames)
  | _ => none

/-- Read one more token. -/
def next? : Reader → Token → Option Reader
  | .beforeValue frames, token => begin? frames token
  | .beforeFirstItem frames, .closeArray => some (complete (.array []) frames)
  | .beforeFirstItem frames, token => begin? (.array [] :: frames) token
  | .afterItem frames items, .comma => some (.beforeValue (.array items :: frames))
  | .afterItem frames items, .closeArray => some (complete (.array items.reverse) frames)
  | .beforeFirstKey frames, .closeObject => some (complete (.object []) frames)
  | .beforeFirstKey frames, .string key => some (.afterKey frames [] key)
  | .beforeKey frames members, .string key => some (.afterKey frames members key)
  | .afterKey frames members key, .colon => some (.beforeValue (.object members key :: frames))
  | .afterMember frames members, .comma => some (.beforeKey frames members)
  | .afterMember frames members, .closeObject => some (complete (.object members.reverse) frames)
  | _, _ => none

/-- The value that has been read, if nothing is open. -/
def result? : Reader → Option Written
  | .done value => some value
  | _ => none

end Reader

/-- The value written in a text. -/
def Written.ofText? (text : String) : Option Written := do
  let tokens ← Token.ofText? text
  let reader ← tokens.foldlM Reader.next? (.beforeValue [])
  reader.result?

/-- The value of a text, in which keys may be repeated. -/
def ofText? (text : String) : Option Json := (Written.ofText? text).bind (Written.toJson? maxDepth)

/-- The value of a text is read from its tokens alone. -/
theorem ofText?_of_tokens {text : String} {tokens : List Token}
    (h : Token.ofText? text = some tokens) :
    ofText? text =
      ((tokens.foldlM Reader.next? (.beforeValue [])).bind Reader.result?).bind
        (Written.toJson? maxDepth) := by
  rw [ofText?, Written.ofText?, h]
  rfl

/-- The value of a text, in which repeated keys are resolved. -/
def valueOfText? (text : String) : Option Json := (ofText? text).map resolve

end Json

end StyleTree
