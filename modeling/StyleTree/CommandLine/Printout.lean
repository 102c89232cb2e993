/-! # What has been printed

A **`Printout`** is the output of a command while it runs. A line that is printed shows at once, but
the beginning of a line is **held back** until the line ends, or is too long to be held, or the
command ends. Only what is written to the output past the printer can tell the difference: it comes
before what is held back.

* **`Printout.print`** prints a text, and **`Printout.write`** writes one past the printer.
* **`Printout.text_print`**: whatever is held back, a text that is printed comes last. -/

namespace StyleTree

/-- The output of a command. -/
structure Printout where
  /-- What shows. -/
  shown : String := ""
  /-- What is printed and held back. -/
  held : String := ""
deriving DecidableEq, Repr

namespace Printout

/-- How much can be held back, in bytes. -/
def room : Nat := 1024

/-- All of it, as it is after the command has ended. -/
def text (p : Printout) : String := p.shown ++ p.held

/-- Hold nothing back any more. -/
def release (p : Printout) : Printout := ⟨p.text, ""⟩

/-- Write a text past the printer. -/
def write (p : Printout) (text : String) : Printout := { p with shown := p.shown ++ text }

/-- Print the beginning of a line. A beginning that fills the whole room is not held back. -/
def hold (p : Printout) (text : String) : Printout :=
  if room ≤ text.utf8ByteSize then p.release.write text
  else if room < p.held.utf8ByteSize + text.utf8ByteSize then { p.release with held := text }
  else { p with held := p.held ++ text }

/-- The lines of a text that have ended, with their line ends, and the beginning of one more. -/
def splitUnended (text : String) : String × String :=
  let backwards := text.toList.reverse
  (String.ofList (backwards.dropWhile (· ≠ '\n')).reverse,
    String.ofList (backwards.takeWhile (· ≠ '\n')).reverse)

/-- Print a text. -/
def print (p : Printout) (text : String) : Printout :=
  match splitUnended text with
  | ("", unended) => p.hold unended
  | (ended, unended) => (p.release.write ended).hold unended

/-- Nothing is lost where a text is split. -/
theorem splitUnended_append (text : String) :
    (splitUnended text).1 ++ (splitUnended text).2 = text := by
  rw [splitUnended, ← String.ofList_append, ← List.reverse_append, List.takeWhile_append_dropWhile,
    List.reverse_reverse, String.ofList_toList]

@[simp] theorem text_release (p : Printout) : p.release.text = p.text := by
  simp [release, text]

/-- Where nothing is held back, a text past the printer comes last, too. -/
theorem text_write_release (p : Printout) (text : String) :
    (p.release.write text).text = p.text ++ text := by
  simp [release, write, Printout.text]

/-- The beginning of a line comes last. -/
@[simp] theorem text_hold (p : Printout) (text : String) : (p.hold text).text = p.text ++ text := by
  unfold hold
  split
  · exact text_write_release p text
  · split <;> simp [release, Printout.text, String.append_assoc]

/-- A text that is printed comes last. -/
@[simp] theorem text_print (p : Printout) (text : String) :
    (p.print text).text = p.text ++ text := by
  have whole := splitUnended_append text
  unfold print
  split
  next unended h => rw [h] at whole; simp_all
  next ended unended h =>
    rw [h] at whole
    rw [text_hold, text_write_release, String.append_assoc, whole]

end Printout

end StyleTree
