import StyleTree.Decimal.Shortest
import StyleTree.Naming.Kind

/-! # Errors

Why a call fails, one constructor a cause, and the wording of each cause in **`Error.message`**.
Names and keys are put into messages as they are. -/

namespace StyleTree

/-- What is nested inside a rule and has a style map of its own. -/
inductive NestedKind
  | selector
  | mediaQuery
deriving DecidableEq, Repr

/-- What messages call the key of something nested. -/
def NestedKind.label : NestedKind → String
  | .selector => "Nested selector"
  | .mediaQuery => "Media query"

/-- Why a style value has no text. -/
inductive Unwritable
  /-- It is a map. -/
  | map
  /-- It is a number that is not finite. -/
  | notFinite (x : Binary64)
deriving DecidableEq, Repr

/-- The reason in words. -/
def Unwritable.message : Unwritable → String
  | .map => "objects cannot be used as values here"
  | .notFinite x => x.text ++ " is not a finite number"

/-- Why a call fails. -/
inductive Error
  /-- There is nothing that the style sheet could be written to. -/
  | missingSink
  /-- A property name is not in camelCase. -/
  | hyphenatedProperty (property : String)
  /-- The value of a nested selector or media query is not a map. -/
  | expectedMap (kind : NestedKind) (key : String)
  /-- A media query stands where a selector is needed. -/
  | misplacedMediaQuery (selector : String)
  /-- A name that must not change is already taken. -/
  | nameConflict (kind : NameKind) (name : String)
  /-- Every name that the random letters to come can make of a base is already taken. No call
  reports this: it stands for a call that **never ends**, because it goes on drawing letters for a
  free name and there is none. -/
  | namesExhausted (kind : NameKind) (base : String)
  /-- Options are not an object. -/
  | optionsNotObject
  /-- Options are not of the expected form. -/
  | malformedOptions
  /-- A value cannot be written for a property. -/
  | unsupportedValue (key : String) (reason : Unwritable)
  /-- A text is not a style document, or a JSON value not of the expected form. -/
  | malformedDocument
deriving DecidableEq, Repr

/-- The wording of an error, after the mark that all messages share. The wordings of
`malformedOptions` and `malformedDocument` **stop at their colon**: behind it a message goes on with
what the reader of the JSON has to say, and that text is left out here. `namesExhausted` has a
wording only so that every error has one; nothing ever shows it. -/
def Error.detail : Error → String
  | .missingSink =>
    "Could not locate a stylesheet sink. Provide one before compiling styles."
  | .hyphenatedProperty property =>
    "Found \"-\" in style property name \"" ++ property
      ++ "\". Style property names must be defined in camelcase."
  | .expectedMap kind key => kind.label ++ " \"" ++ key ++ "\" must be an object."
  | .misplacedMediaQuery selector =>
    "Media query \"" ++ selector ++ "\" must be nested inside your tag / class."
  | .nameConflict kind name =>
    "The " ++ kind.label ++ " name \"" ++ name ++ "\" is already in use, please choose another."
  | .namesExhausted kind base =>
    "Every " ++ kind.label ++ " name made from \"" ++ base ++ "\" is already in use."
  | .optionsNotObject => "Invalid options: options must be an object"
  | .malformedOptions => "Invalid options:"
  | .unsupportedValue key reason =>
    "Unsupported value for \"" ++ key ++ "\": " ++ reason.message
  | .malformedDocument => "Invalid style document:"

/-- The message of an error. -/
def Error.message (e : Error) : String := "StyleSheets: " ++ e.detail

end StyleTree
