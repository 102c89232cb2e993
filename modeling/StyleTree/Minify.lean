import StyleTree.Text.Blank
import StyleTree.Text.Lines

/-! # Minification

Style sheet text is **minified** line by line: line feeds and the blanks at the ends of lines go,
and so do the blanks before an opening brace and the first blank after the colon of a declaration. A
declaration whose value goes on over several lines is kept as it is, up to the first line that ends
in a semicolon.

* **`LineKind.ofLine`** tells what a line is by its ends.
* **`minifyLines`** puts lines together, **`minify`** minifies a text. -/

namespace StyleTree

/-- What a line of a style sheet is. -/
inductive LineKind
  /-- A line of blanks. -/
  | blank
  /-- A line that opens a block after a head. -/
  | header (head : List Char)
  /-- A line that closes a block. -/
  | closing
  /-- A whole declaration. -/
  | declaration (text : List Char)
  /-- The first line of a declaration that goes on. -/
  | opening (text : List Char)
deriving DecidableEq, Repr

/-- What a line is. Blanks at its ends do not count, except that the first line of a longer
declaration keeps those at its end. -/
def LineKind.ofLine (line : List Char) : LineKind :=
  let trimmed := trim line
  match trimmed.getLast? with
  | none => .blank
  | some '\x7b' => .header (trimEnd trimmed.dropLast)
  | some ';' => .declaration trimmed
  | some _ => if trimmed = ['\x7d'] then .closing else .opening (trimStart line)

/-- A declaration without the blank after its first colon that has one. -/
def compactDeclaration : List Char → List Char
  | ':' :: ' ' :: value => ':' :: value
  | c :: rest => c :: compactDeclaration rest
  | [] => []

/-- The minified text of lines, the first of which may go on with a declaration. -/
def minifyLines : Option (List Char) → List (List Char) → List Char
  | none, [] => []
  | some declaration, [] => declaration
  | none, line :: rest =>
    match LineKind.ofLine line with
    | .blank => minifyLines none rest
    | .header head => head ++ '\x7b' :: minifyLines none rest
    | .closing => '\x7d' :: minifyLines none rest
    | .declaration text => compactDeclaration text ++ minifyLines none rest
    | .opening text => minifyLines (some text) rest
  | some declaration, line :: rest =>
    -- inside a declaration a line is kept to the last blank; only a semicolon at its end counts
    let longer := declaration ++ '\n' :: line
    if line.getLast? = some ';' then compactDeclaration longer ++ minifyLines none rest
    else minifyLines (some longer) rest

/-- The minified text. -/
def minify (css : String) : String := String.ofList (minifyLines none (lines css.toList))

@[simp] theorem minify_empty : minify "" = "" := rfl

end StyleTree
