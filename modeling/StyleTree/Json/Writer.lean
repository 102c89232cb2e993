import StyleTree.Table

/-! # Writing JSON text

Texts and objects in the indented layout of JSON: one member a line, two blanks deeper than its
object, and nothing between the braces of an object without members.

* **`Json.quote`** writes a string literal. It escapes the quote, the backslash and the control
  characters below the blank; every other character is written as it is.
* **`Json.indentedObject`** writes an object whose values are already written. -/

namespace StyleTree

namespace Json

/-- A character as it is written inside a string literal. -/
def escape (c : Char) : List Char :=
  match c with
  | '"' => ['\\', '"']
  | '\\' => ['\\', '\\']
  | '\x08' => ['\\', 'b']
  | '\x0c' => ['\\', 'f']
  | '\n' => ['\\', 'n']
  | '\r' => ['\\', 'r']
  | '\t' => ['\\', 't']
  | c =>
    if c.toNat < 0x20 then
      ['\\', 'u', '0', '0', Nat.digitChar (c.toNat / 16), Nat.digitChar (c.toNat % 16)]
    else [c]

/-- A text as a string literal. -/
def quote (text : String) : String := String.ofList ('"' :: text.toList.flatMap escape ++ ['"'])

/-- The blanks before a line at a depth. -/
def indentation (depth : Nat) : String := String.ofList (List.replicate (2 * depth) ' ')

/-- An object at a depth, the values of whose members are already written. -/
def indentedObject (depth : Nat) (members : List (String × String)) : String :=
  if members.isEmpty then "\x7b\x7d"
  else
    let line := fun (member : String × String) =>
      indentation (depth + 1) ++ quote member.1 ++ ": " ++ member.2
    "\x7b\n" ++ String.intercalate ",\n" (members.map line) ++ "\n" ++ indentation depth ++ "\x7d"

end Json

end StyleTree
