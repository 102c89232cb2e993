/-! # Arguments of the command

The arguments are read from left to right. The first that cannot be understood is a usage error, and
a request for help or for the version ends the reading. An option with a value takes it after an
equals sign or, if there is none, from the next argument, which must not look like an option itself.

* **`Argument.ofText`** tells the form of one argument.
* **`Request.ofArguments`** reads all of them. -/

namespace StyleTree

/-- An option that takes a value. -/
inductive ValueOption
  | output
  | names
  | seed
deriving DecidableEq, Repr

/-- The form of an argument. -/
inductive Argument
  /-- The mark after which there are no options. -/
  | endOfOptions
  /-- Not an option. -/
  | positional (text : String)
  | minify
  | help
  | version
  /-- An option with a value, which may be part of the argument. -/
  | option (name : ValueOption) (attached : Option String)
  | unknown
deriving DecidableEq, Repr

/-- What a run is to do. -/
structure Invocation where
  /-- The file with the style document; without one it is read from the input. -/
  input : Option String := none
  /-- The file for the style sheet; without one it is printed. -/
  output : Option String := none
  /-- The file for the names issued, if they are wanted. -/
  names : Option String := none
  /-- Whether the style sheet is to be minified. -/
  minify : Bool := false
  /-- The seed of the random letters, if they are to be reproducible. -/
  seed : Option UInt64 := none
deriving DecidableEq, Repr

/-- What the arguments ask for. -/
inductive Request
  | compile (i : Invocation)
  | help
  | version
  | usageError
deriving DecidableEq, Repr

namespace Argument

/-- The form of an argument with one hyphen, by the characters after it. -/
def ofShort : List Char → Argument
  | 'h' :: _ => .help
  | 'V' :: _ => .version
  | ['o'] => .option .output none
  | 'o' :: '=' :: value => .option .output (some (String.ofList value))
  | 'o' :: value => .option .output (some (String.ofList value))
  | _ => .unknown

/-- The form of an argument with two hyphens, by its name and the value after an equals sign. -/
def ofLong (name : String) (value : Option String) : Argument :=
  match name, value with
  | "output", value => .option .output value
  | "names", value => .option .names value
  | "seed", value => .option .seed value
  | "minify", none => .minify
  | "help", none => .help
  | "version", none => .version
  | _, _ => .unknown

/-- The value after the first equals sign, if there is one. -/
def attachedValue (cs : List Char) : Option String :=
  match cs.dropWhile (· != '=') with
  | [] => none
  | _ :: value => some (String.ofList value)

/-- The form of an argument. A hyphen alone is not an option. -/
def ofText (text : String) : Argument :=
  match text.toList with
  | ['-', '-'] => .endOfOptions
  | '-' :: '-' :: rest => ofLong (String.ofList (rest.takeWhile (· != '='))) (attachedValue rest)
  | '-' :: c :: rest => ofShort (c :: rest)
  | _ => .positional text

/-- Whether an argument cannot be the value of the option before it. -/
def looksLikeOption (text : String) : Bool :=
  match text.toList with
  | '-' :: _ :: _ => true
  | _ => false

end Argument

/-- The number of 64 bits that decimal digits denote, which may have a plus sign before them. -/
def parseSeed? (text : String) : Option UInt64 :=
  let digits :=
    match text.toList with
    | '+' :: rest => rest
    | cs => cs
  if digits.isEmpty || !digits.all Char.isDigit then none
  else
    let value := digits.foldl (fun n c => 10 * n + (c.toNat - '0'.toNat)) 0
    if value < UInt64.size then some (UInt64.ofNat value) else none

namespace Invocation

/-- Take a file name for a place that has none yet. A file name is not empty. -/
def fileName? (place : Option String) (name : String) : Option (Option String) :=
  if place.isSome || name.isEmpty then none else some (some name)

/-- Read the style document from a file. -/
def withInput? (i : Invocation) (name : String) : Option Invocation :=
  (fileName? i.input name).map fun input => { i with input }

/-- Give an option its value. No option has two. -/
def withOption? (i : Invocation) (option : ValueOption) (value : String) : Option Invocation :=
  match option with
  | .output => (fileName? i.output value).map fun output => { i with output }
  | .names => (fileName? i.names value).map fun names => { i with names }
  | .seed =>
    if i.seed.isSome then none
    else (parseSeed? value).map fun seed => { i with seed := some seed }

end Invocation

namespace Request

/-- Read arguments none of which is an option. -/
def readPositional (i : Invocation) : List String → Request
  | [] => .compile i
  | text :: rest =>
    match i.withInput? text with
    | some i => readPositional i rest
    | none => .usageError

/-- Read arguments after those that an invocation was made of. -/
def read (i : Invocation) : List String → Request
  | [] => .compile i
  | text :: rest =>
    match Argument.ofText text with
    | .endOfOptions => readPositional i rest
    | .help => .help
    | .version => .version
    | .unknown => .usageError
    | .minify => if i.minify then .usageError else read { i with minify := true } rest
    | .positional name =>
      match i.withInput? name with
      | some i => read i rest
      | none => .usageError
    | .option option (some value) =>
      match i.withOption? option value with
      | some i => read i rest
      | none => .usageError
    | .option option none =>
      -- the value is the next argument, if that can be one
      match rest with
      | [] => .usageError
      | value :: rest =>
        if Argument.looksLikeOption value then .usageError
        else
          match i.withOption? option value with
          | some i => read i rest
          | none => .usageError

/-- What the arguments of the command ask for. -/
def ofArguments (arguments : List String) : Request := read {} arguments

@[simp] theorem ofArguments_nil : ofArguments [] = .compile {} := rfl

end Request

end StyleTree
