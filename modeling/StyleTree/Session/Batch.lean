import StyleTree.Event
import StyleTree.Naming.Reservation
import StyleTree.Table

/-! # Batches of named entries

The classes or the animations of one call make a **batch**. Its entries are taken in order: each is
given a name, is written under that name, and the first error ends the batch. What has been staged
until then is given up, but the letters that have been drawn stay drawn.

* **`Batch.run`** runs a batch of any sort of entries. -/

namespace StyleTree

/-- What a call has made: the names issued, by the keys they were issued for, and the text. -/
structure Generated where
  /-- The names issued. -/
  names : Table String := []
  /-- The text. -/
  css : String := ""
deriving DecidableEq, Repr

/-- How the entries of a batch are written under their names. -/
structure EntryWriter (α : Type) where
  /-- The text of an entry. -/
  text : String → α → Except Error String
  /-- The events of writing it. -/
  events : String → α → List Event

/-- What comes of a batch. -/
structure Batch where
  /-- What was made and the names staged for it, or the first error. -/
  result : Except Error (Generated × Reservation)
  /-- The generator after all letters that were drawn. -/
  generator : Generator
  /-- What happened, in order. -/
  events : List Event

namespace Batch

/-- The batch without entries. -/
def done (r : Reservation) (g : Generator) : Batch := ⟨.ok ({}, r), g, []⟩

/-- Put an entry with its name, text and events before a batch. -/
def prepend (base name css : String) (events : List Event) (later : Batch) : Batch where
  result := later.result.map fun (made, r) => (⟨(base, name) :: made.names, css ++ made.css⟩, r)
  generator := later.generator
  events := events ++ later.events

/-- Run the entries of a batch in order. -/
def run {α : Type} (w : EntryWriter α) (obfuscate : Bool) (r : Reservation) (g : Generator) :
    Table α → Batch
  | [] => done r g
  | (base, entry) :: rest =>
    let issue := r.issue obfuscate base g
    let searched := issue.passed.map (Event.nameTaken r.kind)
    match issue.name with
    | .error e => ⟨.error e, issue.generator, searched⟩
    | .ok name =>
      -- the name is staged before its entry is known to have a text
      let events := searched ++ w.events name entry
      match w.text name entry with
      | .error e => ⟨.error e, issue.generator, events⟩
      | .ok css =>
        (run w obfuscate issue.reservation issue.generator rest).prepend base name css events

@[simp] theorem run_nil {α : Type} (w : EntryWriter α) (obfuscate : Bool) (r : Reservation)
    (g : Generator) : run w obfuscate r g [] = done r g := rfl

end Batch

end StyleTree
