import StyleTree.CommandLine.Arguments
import StyleTree.Json.Writer
import StyleTree.Session.Call
import StyleTree.Text.Lines

/-! # The command

The command compiles one style document: it reads the document, compiles it in memory, writes the
style sheet, and then the names issued, if they are wanted. Nothing is written before the whole
document is compiled. It deals with files and streams only through a **`Host`**, whatever that is.

* **`Invocation.compileText`** is the part without effects.
* **`Request.run`** is the whole command; its **`Exit`** says how it ended. -/

namespace StyleTree

/-- What the command needs of its surroundings. -/
structure Host (m : Type → Type) where
  /-- The text of a file, if it can be read. -/
  readFile : String → m (Option String)
  /-- The text of the input, if it can be read. -/
  readInput : m (Option String)
  /-- Write a file, and tell whether that was possible. -/
  writeFile : String → String → m Bool
  /-- Print a text. -/
  print : String → m Unit

/-- Why the command fails. -/
inductive Failure
  | readFile (name : String)
  | readInput
  | writeFile (name : String)
  /-- The style document cannot be read or compiled. -/
  | document (e : Error)
deriving DecidableEq, Repr

/-- A failure in words. -/
def Failure.message : Failure → String
  | .readFile name => "failed to read " ++ name
  | .readInput => "failed to read stdin"
  | .writeFile name => "failed to write " ++ name
  | .document e => e.message

/-- How the command ended. -/
structure Exit where
  /-- The exit code. -/
  code : Nat
  /-- What went wrong, if anything did. -/
  message : Option String
deriving DecidableEq, Repr

namespace Exit

/-- All went well. -/
def success : Exit := ⟨0, none⟩

/-- The command failed. -/
def failure (f : Failure) : Exit := ⟨1, some f.message⟩

/-- The arguments were not understood. -/
def usage : Exit := ⟨2, none⟩

/-- The first line of what the command says went wrong. The message may hold line ends, since names
and keys are put into it as they are; it is printed with one more at its end. -/
def headline (e : Exit) : Option String :=
  e.message.map fun message => String.ofList ((lines (message.toList ++ ['\n'])).headD [])

end Exit

/-- The names issued for one kind of things, as JSON text inside an object. -/
def namesText (names : Table String) : String :=
  Json.indentedObject 1 (names.map fun entry => (entry.1, Json.quote entry.2))

/-- The names issued while a document was compiled, as JSON text. -/
def DocumentNames.toText (names : DocumentNames) : String :=
  Json.indentedObject 0
    [("classes", namesText names.classes), ("animations", namesText names.animations)]

/-- What the command prints when it is asked for help. -/
def helpText : String :=
  "Compile JSON style documents to CSS\n"
    ++ "\n"
    ++ "Usage: stylesheets [OPTIONS] [INPUT]\n"
    ++ "\n"
    ++ "Arguments:\n"
    ++ "  [INPUT]  Style document to compile; reads stdin when omitted\n"
    ++ "\n"
    ++ "Options:\n"
    ++ "  -o, --output <OUTPUT>  Write CSS here instead of stdout\n"
    ++ "      --names <NAMES>    Write the issued class and animation names as JSON\n"
    ++ "      --minify           Strip generated whitespace\n"
    ++ "      --seed <SEED>      Seed for reproducible obfuscated names\n"
    ++ "  -h, --help             Print help\n"
    ++ "  -V, --version          Print version\n"

/-- What the command prints when it is asked for its version. -/
def versionText : String := "stylesheets 0.3.0\n"

namespace Invocation

/-- The options that override those of the document. -/
def overrides (i : Invocation) : Options.Update := if i.minify then { minify := some true } else {}

/-- The style sheet of a document and the names issued for it, in a session of its own. -/
def compileText (i : Invocation) (generator : Generator) (text : String) :
    Except Error (String × DocumentNames) := do
  let document ← Document.ofText text
  let outcome := (Session.new (.sheet "") generator).compileDocument document i.overrides
  let names ← outcome.result
  pure (outcome.session.css?.getD "", names)

variable {m : Type → Type} [Monad m]

/-- The text of the style document, or why there is none. -/
def readDocument (host : Host m) (i : Invocation) : m (Except Failure String) := do
  match i.input with
  | some name =>
    match ← host.readFile name with
    | some text => pure (.ok text)
    | none => pure (.error (.readFile name))
  | none =>
    match ← host.readInput with
    | some text => pure (.ok text)
    | none => pure (.error .readInput)

/-- Write a file, unless none is wanted. -/
def writeWanted (host : Host m) (name : Option String) (text : String) :
    m (Except Failure Unit) := do
  match name with
  | none => pure (.ok ())
  | some name =>
    if ← host.writeFile name text then pure (.ok ()) else pure (.error (.writeFile name))

/-- Write the style sheet to its file, or print it. -/
def writeSheet (host : Host m) (i : Invocation) (css : String) : m (Except Failure Unit) := do
  match i.output with
  | none =>
    host.print css
    pure (.ok ())
  | some _ => writeWanted host i.output css

/-- Compile a style document and write what comes of it. -/
def run (host : Host m) (generator : Generator) (i : Invocation) : m (Except Failure Unit) := do
  match ← i.readDocument host with
  | .error f => pure (.error f)
  | .ok text =>
    match i.compileText generator text with
    | .error e => pure (.error (.document e))
    | .ok (css, names) =>
      match ← i.writeSheet host css with
      | .error f => pure (.error f)
      | .ok () => writeWanted host i.names names.toText

end Invocation

/-- The source of random letters: that of the seed, or another if there is no seed. -/
def Invocation.generator (i : Invocation) (unseeded : Generator) : Generator :=
  match i.seed with
  | some seed => .ofSeed seed
  | none => unseeded

/-- Do what the arguments ask for. -/
def Request.run {m : Type → Type} [Monad m] (host : Host m) (unseeded : Generator) :
    Request → m Exit
  | .usageError => pure .usage
  | .help => do
    host.print helpText
    pure .success
  | .version => do
    host.print versionText
    pure .success
  | .compile i => do
    match ← i.run host (i.generator unseeded) with
    | .ok () => pure .success
    | .error f => pure (.failure f)

end StyleTree
