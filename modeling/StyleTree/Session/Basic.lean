import StyleTree.Options.Decoding
import StyleTree.Session.Batch
import StyleTree.Session.Section

/-! # Sessions

A **session** writes one style sheet, call by call. It owns the options, a registry of class names
and one of animation names, the source of random letters, and the **sink** that receives the text.

Every call has an **`Outcome`**: its result, the session after it, and its events. A call that fails
leaves the session as it was, except for the letters that it drew.

* **`Session.setOptions`** changes options.
* **`Session.generate`** makes the text of a section and records the names issued for it;
  **`Session.create`** appends the text to the sink as well. -/

namespace StyleTree

/-- Where the text of a session goes. -/
inductive Sink
  /-- A style sheet in memory, with its text so far. -/
  | sheet (text : String)
  /-- A receiver outside, with the pieces it has been given so far. -/
  | external (chunks : List String)
deriving DecidableEq, Repr

/-- Give a sink a piece of text. -/
def Sink.append (chunk : String) : Sink → Sink
  | .sheet text => .sheet (text ++ chunk)
  | .external chunks => .external (chunks ++ [chunk])

@[simp] theorem Sink.append_sheet (chunk text : String) :
    (Sink.sheet text).append chunk = .sheet (text ++ chunk) := rfl

@[simp] theorem Sink.append_external (chunk : String) (chunks : List String) :
    (Sink.external chunks).append chunk = .external (chunks ++ [chunk]) := rfl

/-- The state of writing one style sheet. -/
structure Session where
  /-- The options in effect. -/
  options : Options
  /-- Whether options have been set. -/
  optionsSet : Bool
  /-- The class names issued. -/
  classNames : Registry
  /-- The animation names issued. -/
  animationNames : Registry
  /-- The source of random letters. -/
  generator : Generator
  /-- Where the text goes. -/
  sink : Sink

/-- What comes of a call. -/
structure Outcome (α : Type) where
  /-- What the call returns. -/
  result : Except Error α
  /-- The session after the call. -/
  session : Session
  /-- What happened, in order. -/
  events : List Event

namespace Outcome

/-- A call that returns a value and does nothing. -/
def ok {α : Type} (s : Session) (a : α) : Outcome α := ⟨.ok a, s, []⟩

/-- A call that fails and does nothing. -/
def fail {α : Type} (s : Session) (e : Error) : Outcome α := ⟨.error e, s, []⟩

/-- A call that returns what has been read, or fails with the error of reading it. -/
def ofExcept {α : Type} (s : Session) (result : Except Error α) : Outcome α := ⟨result, s, []⟩

/-- Go on after a call with what it returned. A call that failed ends it all. -/
def andThen {α β : Type} (o : Outcome α) (next : α → Session → Outcome β) : Outcome β :=
  match o.result with
  | .error e => ⟨.error e, o.session, o.events⟩
  | .ok a =>
    let later := next a o.session
    { later with events := o.events ++ later.events }

/-- Change what a call returns. -/
def map {α β : Type} (f : α → β) (o : Outcome α) : Outcome β := { o with result := o.result.map f }

@[simp] theorem andThen_ok {α β : Type} (s : Session) (a : α) (next : α → Session → Outcome β) :
    (ok s a).andThen next = next a s := by
  simp [andThen, ok]

@[simp] theorem andThen_fail {α β : Type} (s : Session) (e : Error)
    (next : α → Session → Outcome β) : (fail s e).andThen next = fail s e := rfl

end Outcome

namespace Session

/-- A new session. -/
def new (sink : Sink) (generator : Generator) : Session where
  options := {}
  optionsSet := false
  classNames := .empty
  animationNames := .empty
  generator := generator
  sink := sink

/-- Change options. -/
def setOptions (s : Session) (u : Options.Update) : Outcome Unit where
  result := .ok ()
  session := { s with options := s.options.apply u, optionsSet := true }
  events := if s.optionsSet then [.repeatedOptions] else []

/-- Change options as a JSON value says. -/
def setOptionsJson (s : Session) (value : Json) : Outcome Unit :=
  (Outcome.ofExcept s (Options.Update.ofValue value)).andThen fun u s => s.setOptions u

/-- Start a session with a sink, and with options if there are any. -/
def start (sink : Option Sink) (generator : Generator) (options : Option Options.Update) :
    Except Error Session :=
  match sink, options with
  | none, _ => .error .missingSink
  | some sink, none => .ok (new sink generator)
  | some sink, some u => .ok ((new sink generator).setOptions u).session

/-- The names issued to one kind of things. -/
def names (s : Session) : NameKind → Registry
  | .styleClass => s.classNames
  | .animation => s.animationNames

/-- The session with other names issued to one kind of things. -/
def setNames (s : Session) (kind : NameKind) (names : Registry) : Session :=
  match kind with
  | .styleClass => { s with classNames := names }
  | .animation => { s with animationNames := names }

/-- The text of the style sheet, if it is kept in memory. -/
def css? (s : Session) : Option String :=
  match s.sink with
  | .sheet text => some text
  | .external _ => none

/-- Make the text of tags. -/
def generateTags (s : Session) (rules : RuleSet) : Outcome Generated where
  result := (rulesText s.options 0 rules).map fun css => ⟨[], finish s.options css⟩
  session := s
  events := rulesEvents s.options rules

/-- Make the text of a batch, and record its names if no entry fails. -/
def generateNamed {α : Type} (s : Session) (kind : NameKind) (w : EntryWriter α)
    (entries : Table α) : Outcome Generated :=
  let batch := Batch.run w s.options.obfuscate ((s.names kind).reserve kind) s.generator entries
  -- letters that were drawn stay drawn, whether the batch fails or not
  let drawn := { s with generator := batch.generator }
  match batch.result with
  | .error e => ⟨.error e, drawn, batch.events⟩
  | .ok (made, reservation) =>
    ⟨.ok { made with css := finish s.options made.css }, drawn.setNames kind reservation.commit,
      batch.events⟩

/-- How a class is written under its name. -/
def classWriter (o : Options) : EntryWriter StyleMap where
  text := classText o
  events name styles := ruleEvents o (classSelector name) styles

/-- How an animation is written under its name. -/
def animationWriter (o : Options) : EntryWriter RuleSet where
  text := keyframesText o
  events _ frames := rulesEvents o frames

/-- Make the text of a section, and record the names issued for it. -/
def generate (s : Session) : StyleSection → Outcome Generated
  | .tags rules => s.generateTags rules
  | .classes rules => s.generateNamed .styleClass (classWriter s.options) rules
  | .animations frames => s.generateNamed .animation (animationWriter s.options) frames

/-- Give the sink what a call has made. No text is no piece. -/
def append (s : Session) (made : Generated) : Outcome Unit :=
  if made.css = "" then Outcome.ok s ()
  else
    ⟨.ok (), { s with sink := s.sink.append made.css },
      [.appending made.css.utf8ByteSize made.names.length]⟩

/-- Make the text of a section and append it to the sink. -/
def create (s : Session) (styles : StyleSection) : Outcome (Table String) :=
  (s.generate styles).andThen fun made s => (s.append made).map fun _ => made.names

@[simp] theorem names_setNames (s : Session) (kind : NameKind) (names : Registry) :
    (s.setNames kind names).names kind = names := by
  cases kind <;> rfl

/-- Names issued to one kind of things leave the other kind alone. -/
theorem names_setNames_of_ne (s : Session) {kind other : NameKind} (h : other ≠ kind)
    (names : Registry) : (s.setNames kind names).names other = s.names other := by
  match kind, other, h with
  | .styleClass, .animation, _ => rfl
  | .animation, .styleClass, _ => rfl
  | .styleClass, .styleClass, h => exact absurd rfl h
  | .animation, .animation, h => exact absurd rfl h

/-- Read a section of a JSON value and go on with it. -/
def withSection {α : Type} (s : Session) (kind : SectionKind) (value : Json)
    (next : Session → StyleSection → Outcome α) : Outcome α :=
  match StyleSection.ofJson? value kind with
  | some styles => next s styles
  | none => Outcome.fail s .malformedDocument

end Session

end StyleTree
