import StyleTree.CommandLine.Command
import StyleTree.CommandLine.Place
import StyleTree.CommandLine.Printout

/-! # The command in a directory

A **`Workplace`** is all that the command can see and change when it runs in a directory that holds
files only: the files, its input, and what it has printed. Files and input are bytes, and a text is
read from them only if they are valid UTF-8. The host of a workplace reads and writes what
**`Place.ofPath?`** says that a path leads to, as far as it is a file or a device.

* **`Workplace.command`** runs the command. -/

namespace StyleTree

/-- A directory of files, with the streams of a command that runs in it. -/
structure Workplace where
  /-- The bytes of the files. -/
  files : Table ByteArray
  /-- The bytes of the input. -/
  input : ByteArray
  /-- What has been printed. -/
  printout : Printout := {}

namespace Workplace

/-- The text at a place, if it ends and is one. -/
def textAt? (w : Workplace) : Place → Option String
  | .file name => (Table.find? w.files name).bind String.fromUTF8?
  | .device .null => some ""
  | .device .input => String.fromUTF8? w.input
  | _ => none

/-- The workplace after a text was written to a place, if that is possible. A place of which nothing
can be seen afterwards takes the text and changes nothing. -/
def writeAt? (w : Workplace) (text : String) : Place → Option Workplace
  | .folder _ => none
  | .file name => some { w with files := Table.insert w.files name text.toUTF8 }
  | .outside _ => some w
  | .device .output => some { w with printout := w.printout.write text }
  | .device .full => if text = "" then some w else none
  | .device _ => some w

/-- The text that a path leads to. -/
def readFile (path : String) : StateM Workplace (Option String) := do
  let w ← get
  pure ((Place.ofPath? path).bind w.textAt?)

/-- The input as a text, if it is one. -/
def readInput : StateM Workplace (Option String) := do
  let w ← get
  pure (String.fromUTF8? w.input)

/-- Write a text to where a path leads. -/
def writeFile (path text : String) : StateM Workplace Bool := do
  match (Place.ofPath? path).bind ((← get).writeAt? text) with
  | none => pure false
  | some w =>
    set w
    pure true

/-- Print a text. -/
def print (text : String) : StateM Workplace Unit :=
  modify fun w => { w with printout := w.printout.print text }

/-- The host of a workplace. -/
def host : Host (StateM Workplace) where
  readFile := readFile
  readInput := readInput
  writeFile := writeFile
  print := print

/-- Run the command with arguments: how it ended, and the workplace after it. -/
def command (arguments : List String) (unseeded : Generator) (w : Workplace) : Exit × Workplace :=
  (Request.run host unseeded (Request.ofArguments arguments)).run w

end Workplace

end StyleTree
