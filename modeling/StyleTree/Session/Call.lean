import StyleTree.Session.Basic

/-! # Calls of a session

All that can be asked of a session, as data: a **`Call`** and the **`Reply`** that it gets.
**`Session.perform`** carries out one call and **`Session.run`** one call after another, whether
they fail or not.

A document is compiled section by section: its options together with overriding ones, tags,
animations, classes. The first error ends it, and what came before stays. -/

namespace StyleTree

/-- The names issued while a document was compiled. -/
structure DocumentNames where
  /-- The names of the classes. -/
  classes : Table String := []
  /-- The names of the animations. -/
  animations : Table String := []
deriving DecidableEq, Repr

namespace Session

/-- Change options, unless nothing is set. -/
def setOptionsIfAny (s : Session) (u : Options.Update) : Outcome Unit :=
  if u.isEmpty then Outcome.ok s () else s.setOptions u

/-- The options of a document with overriding ones on top. -/
def documentOptions (d : Document) (overrides : Options.Update) : Except Error Options.Update :=
  match d.options with
  | none => .ok (Options.Update.empty.merge overrides)
  | some value => (Options.Update.ofValue value).map fun u => u.merge overrides

/-- Compile a document, with overriding options. -/
def compileDocument (s : Session) (d : Document) (overrides : Options.Update) :
    Outcome DocumentNames :=
  (Outcome.ofExcept s (documentOptions d overrides)).andThen fun u s =>
    (s.setOptionsIfAny u).andThen fun _ s =>
      (s.create (.tags d.tags)).andThen fun _ s =>
        (s.create (.animations d.animations)).andThen fun animations s =>
          (s.create (.classes d.classes)).map fun classes => ⟨classes, animations⟩

end Session

/-- What can be asked of a session. -/
inductive Call
  /-- Change options. -/
  | setOptions (u : Options.Update)
  /-- Change options as a JSON value says. -/
  | setOptionsJson (value : Json)
  /-- Make the text of a section. -/
  | generate (styles : StyleSection)
  /-- Make the text of a section and append it. -/
  | create (styles : StyleSection)
  /-- Make the text of a section given in JSON. -/
  | generateJson (kind : SectionKind) (value : Json)
  /-- Make the text of a section given in JSON and append it. -/
  | createJson (kind : SectionKind) (value : Json)
  /-- Compile a document, with overriding options. -/
  | compileDocument (d : Document) (overrides : Options.Update)
deriving Repr

/-- What a call returns when it succeeds. -/
inductive Reply
  | done
  | generated (made : Generated)
  | names (names : Table String)
  | documentNames (names : DocumentNames)
deriving DecidableEq, Repr

namespace Session

/-- Carry out a call. -/
def perform (s : Session) : Call → Outcome Reply
  | .setOptions u => (s.setOptions u).map fun _ => .done
  | .setOptionsJson value => (s.setOptionsJson value).map fun _ => .done
  | .generate styles => (s.generate styles).map .generated
  | .create styles => (s.create styles).map .names
  | .generateJson kind value => (s.withSection kind value generate).map .generated
  | .createJson kind value => (s.withSection kind value create).map .names
  | .compileDocument d overrides => (s.compileDocument d overrides).map .documentNames

/-- Carry out calls one after another, and keep every outcome. -/
def run (s : Session) : List Call → List (Outcome Reply)
  | [] => []
  | call :: rest =>
    let outcome := s.perform call
    outcome :: run outcome.session rest

/-- The session after calls. -/
def after (s : Session) (calls : List Call) : Session :=
  calls.foldl (fun s call => (s.perform call).session) s

@[simp] theorem after_nil (s : Session) : s.after [] = s := rfl

@[simp] theorem after_cons (s : Session) (call : Call) (calls : List Call) :
    s.after (call :: calls) = (s.perform call).session.after calls := rfl

/-- What is called later starts from where the calls before it end. -/
theorem after_append (s : Session) (calls later : List Call) :
    s.after (calls ++ later) = (s.after calls).after later := by
  simp [after]

end Session

end StyleTree
