import StyleTree.Error

/-! # Events

What the library reports about its work while it runs, apart from results and errors. Every event
has a **level** that says how much it matters and a **message**. -/

namespace StyleTree

/-- How much an event matters; the first level matters most. -/
inductive EventLevel
  | warning
  | debug
  | trace
deriving DecidableEq, Repr

/-- The name of a level. -/
def EventLevel.label : EventLevel → String
  | .warning => "WARN"
  | .debug => "DEBUG"
  | .trace => "TRACE"

/-- How much detail a level brings. -/
def EventLevel.detail : EventLevel → Nat
  | .warning => 0
  | .debug => 1
  | .trace => 2

/-- Something worth reporting. -/
inductive Event
  /-- Options are set that had been set before. -/
  | repeatedOptions
  /-- Text of the given size in bytes goes to the style sheet, with so many names issued. -/
  | appending (bytes names : Nat)
  /-- The value of a nested selector or media query has the wrong form. -/
  | expectedMap (kind : NestedKind) (key shape : String)
  /-- The rule of a selector is written. -/
  | ruleWritten (selector : String)
  /-- A name made with random letters was already taken. -/
  | nameTaken (kind : NameKind) (name : String)
deriving DecidableEq, Repr

namespace Event

/-- The level of an event. -/
def level : Event → EventLevel
  | .repeatedOptions => .warning
  | .appending .. => .debug
  | .expectedMap .. => .debug
  | .ruleWritten .. => .trace
  | .nameTaken .. => .trace

/-- An event in words. -/
def message : Event → String
  | .repeatedOptions => "You tried to set options more than once. This is not advised."
  | .appending bytes names =>
    "appending " ++ toString bytes ++ " bytes of css (" ++ toString names ++ " names issued)"
  | .expectedMap kind key shape =>
    kind.label ++ " " ++ key ++ " is a " ++ shape ++ ", expected an object"
  | .ruleWritten selector => "rule block " ++ selector
  | .nameTaken kind name => kind.label ++ " name " ++ name ++ " collided, retrying"

/-- The line that reports an event. -/
def line (e : Event) : String := e.level.label ++ " " ++ e.message

/-- The events that a report with the detail of a level shows. -/
def upTo (level : EventLevel) (events : List Event) : List Event :=
  events.filter fun e => e.level.detail ≤ level.detail

end Event

end StyleTree
