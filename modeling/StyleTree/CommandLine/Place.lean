import StyleTree.Table

/-! # Where a path leads

The directory that the command runs in, the **workplace**, holds files only. It is one of the
directories for what is temporary, and around it are the few directories that every machine has:
those of the devices, of the running process and of its streams. A **path** is followed part by part
from the workplace or, if it starts with a slash, from the root.

* **`Place`** is what a path can lead to.
* **`Place.ofPath?`** follows a path. -/

namespace StyleTree

/-- Something that bytes are read from or written to and that is not a file. -/
inductive Device
  /-- It is empty, and takes whatever is written. -/
  | null
  /-- It never ends, and takes whatever is written. -/
  | endless
  /-- It never ends, and has no room for anything. -/
  | full
  /-- The input of the command. -/
  | input
  /-- The output of the command. -/
  | output
  /-- Where the command says what went wrong. -/
  | complaints
deriving DecidableEq, Repr

/-- A directory. -/
inductive Folder
  | root
  | devices
  | processes
  /-- That of the running process. -/
  | process
  /-- That of the open streams of the running process. -/
  | streams
  /-- That of all that is temporary. -/
  | temporary
  /-- The one that the command runs in. -/
  | workplace
deriving DecidableEq, Repr

/-- What a path leads to. -/
inductive Place
  | folder (f : Folder)
  | device (d : Device)
  /-- A file of the workplace, whether there is one already or not. -/
  | file (name : String)
  /-- A file outside the workplace that could be made. -/
  | outside (name : String)
deriving DecidableEq, Repr

namespace Folder

/-- The directory that a directory is in. -/
def parent : Folder → Folder
  | .workplace => .temporary
  | .streams => .process
  | .process => .processes
  | .root | .devices | .processes | .temporary => .root

/-- What a directory holds by nature. -/
def contents : Folder → Table Place
  | .root =>
    [("dev", .folder .devices), ("proc", .folder .processes), ("tmp", .folder .temporary)]
  | .devices =>
    [("null", .device .null), ("zero", .device .endless), ("random", .device .endless),
      ("urandom", .device .endless), ("full", .device .full), ("stdin", .device .input),
      ("stdout", .device .output), ("stderr", .device .complaints), ("fd", .folder .streams)]
  | .processes => [("self", .folder .process)]
  | .process =>
    [("fd", .folder .streams), ("cwd", .folder .workplace), ("root", .folder .root)]
  | .streams => [("0", .device .input), ("1", .device .output), ("2", .device .complaints)]
  | .temporary | .workplace => []

/-- How long a name can be, in bytes. -/
def maxNameLength : Nat := 255

/-- What a name stands for in a directory. -/
def lookup? (f : Folder) (name : String) : Option Place :=
  if maxNameLength < name.utf8ByteSize then none
  else
    match f with
    | .workplace => some (.file name)
    | .temporary => some (.outside name)
    | _ => Table.find? f.contents name

end Folder

namespace Place

/-- Follow one part of a path. Only a directory leads further. -/
def step? : Place → String → Option Place
  | .folder f, part =>
    if part = "" || part = "." then some (.folder f)
    else if part = ".." then some (.folder f.parent)
    else f.lookup? part
  | _, _ => none

/-- How long a path can be, in bytes, whatever it leads to. -/
def maxPathLength : Nat := 4095

/-- The parts of a path between its slashes. -/
def pathParts (path : String) : List String :=
  (path.toList.splitOn '/').map String.ofList

/-- What a path leads to. -/
def ofPath? (path : String) : Option Place :=
  if maxPathLength < path.utf8ByteSize then none
  else
    match pathParts path with
    | "" :: parts => parts.foldlM step? (.folder .root)
    | parts => parts.foldlM step? (.folder .workplace)

end Place

end StyleTree
