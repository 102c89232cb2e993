/-! # Lines of a text

A line ends at a **line feed**, which may have a **carriage return** directly before it that belongs
to the line end. The text after the last line feed is a line only if it holds a character; a
carriage return at the very end of the text is such a character. -/

namespace StyleTree

/-- The lines of a text, without their line ends. -/
def lines : List Char → List (List Char)
  | [] => []
  | '\n' :: rest => [] :: lines rest
  | '\r' :: '\n' :: rest => [] :: lines rest
  | c :: rest =>
    -- the character goes to the front of the first line that follows
    match lines rest with
    | [] => [[c]]
    | line :: later => (c :: line) :: later

@[simp] theorem lines_nil : lines [] = [] := rfl

/-- A line feed at the front ends an empty line. -/
@[simp] theorem lines_lineFeed (rest : List Char) : lines ('\n' :: rest) = [] :: lines rest := by
  rw [lines]

/-- So does a carriage return with a line feed. -/
@[simp] theorem lines_carriageReturn_lineFeed (rest : List Char) :
    lines ('\r' :: '\n' :: rest) = [] :: lines rest := by
  rw [lines]

end StyleTree
