import StyleTree.Json.Basic

/-! # JSON as it is written

A **written** JSON value is what the grammar of a text says and no more: numerals are exact, a
string literal that denotes no text is kept as such, members repeat as they do in the text, and
nesting has no limit.

* **`Json.Written.toJson?`** turns it into a JSON value; it refuses what a value cannot hold and
  more nesting than it is allowed.
* **`Json.Written.keepMembers?`** drops members of an object before that. What is dropped need not
  be a value, so such faults in it do no harm. -/

namespace StyleTree

namespace Json

/-- A JSON value as it is written in a text. -/
inductive Written
  | null
  | bool (b : Bool)
  | number (n : Numeral)
  /-- A string literal, `none` if it denotes no text. -/
  | string (text : Option String)
  | array (items : List Written)
  | object (members : List (Option String × Written))
deriving Repr, Inhabited

/-- How deep arrays and objects may be nested in a text that is read as a value. -/
def maxDepth : Nat := 127

namespace Written

mutual

/-- The value that is written, if it nests no deeper than `depth`. -/
def toJson? (depth : Nat) : Written → Option Json
  | .null => some .null
  | .bool b => some (.bool b)
  | .number n => (Number.ofNumeral? n).map .number
  | .string text => text.map .string
  | .array items =>
    match depth with
    | 0 => none
    | depth + 1 => (itemsToJson? depth items).map .array
  | .object members =>
    match depth with
    | 0 => none
    | depth + 1 => (membersToJson? depth members).map .object

/-- `toJson?` for each item of an array. -/
def itemsToJson? (depth : Nat) : List Written → Option (List Json)
  | [] => some []
  | item :: rest => do
    let item ← toJson? depth item
    let rest ← itemsToJson? depth rest
    pure (item :: rest)

/-- `toJson?` for each member of an object. -/
def membersToJson? (depth : Nat) : List (Option String × Written) → Option (List (String × Json))
  | [] => some []
  | member :: rest => do
    let member ← memberToJson? depth member
    let rest ← membersToJson? depth rest
    pure (member :: rest)

/-- `toJson?` for the value of a member, whose key has to denote a text. -/
def memberToJson? (depth : Nat) : Option String × Written → Option (String × Json)
  | (none, _) => none
  | (some key, value) => (toJson? depth value).map (key, ·)

end

/-- The members of an object whose keys satisfy a condition; the others are dropped unread, except
that every key has to denote a text. Any other value is left as it is. -/
def keepMembers? (keep : String → Bool) : Written → Option Written
  | .object members =>
    if members.all fun member => member.1.isSome then
      some (.object (members.filter fun member => member.1.any keep))
    else none
  | other => some other

end Written

end Json

end StyleTree
