import StyleTree.Proofs.Outcomes

/-! # The text that a sink has received

What a session writes does not depend on where it is written to. A sheet keeps the text, a receiver
outside is given it in pieces, and in both the **text** of the sink grows at its end and nowhere
else.

* **`Sink.text`** is all that a sink has received, **`Sink.receive`** what becomes of it with more.
* **`Session.generate_withSink`** says that making a section does not look at the sink, and
  **`Session.session_create`** that creating one gives the sink the text that was made.
* **`Session.SameText`** is the relation between sessions that differ only in how the sink has
  received its text. -/

namespace StyleTree

namespace Sink

/-- All text that a sink has received. -/
def text : Sink → String
  | .sheet text => text
  | .external chunks => String.join chunks

/-- The sink after it has been given a text, in one piece. No text is no piece. -/
def receive (css : String) (k : Sink) : Sink := if css = "" then k else k.append css

/-- A chunk goes behind the text received so far. -/
theorem text_append (chunk : String) (k : Sink) : (k.append chunk).text = k.text ++ chunk := by
  cases k with
  | sheet text => rfl
  | external chunks => simp [text, String.join_append]

/-- The text of a sink grows by what it is given. -/
@[simp] theorem text_receive (css : String) (k : Sink) : (k.receive css).text = k.text ++ css := by
  rw [receive]
  split
  · next nothing => rw [nothing, String.append_empty]
  · exact text_append css k

end Sink

namespace Session

variable {α : Type} {s t : Session} {styles : StyleSection}

/-- The session with another sink. -/
def withSink (s : Session) (k : Sink) : Session := { s with sink := k }

@[simp] theorem sink_withSink (s : Session) (k : Sink) : (s.withSink k).sink = k := rfl

@[simp] theorem withSink_sink (s : Session) : s.withSink s.sink = s := rfl

@[simp] theorem withSink_withSink (s : Session) (k k' : Sink) :
    (s.withSink k).withSink k' = s.withSink k' := rfl

/-! ## Making and creating sections -/

/-- A batch does not look at the sink, and leaves it alone. -/
theorem generateNamed_withSink (s : Session) (k : Sink) (kind : NameKind) (w : EntryWriter α)
    (entries : Table α) :
    ((s.withSink k).generateNamed kind w entries).result =
        (s.generateNamed kind w entries).result ∧
      ((s.withSink k).generateNamed kind w entries).session =
        (s.generateNamed kind w entries).session.withSink k := by
  have names_eq : (s.withSink k).names kind = s.names kind := by
    cases kind <;> rfl
  have options_eq : (s.withSink k).options = s.options := rfl
  have generator_eq : (s.withSink k).generator = s.generator := rfl
  simp only [generateNamed, names_eq, options_eq, generator_eq]
  cases (Batch.run w s.options.obfuscate ((s.names kind).reserve kind) s.generator
      entries).result with
  | error e => exact ⟨rfl, rfl⟩
  | ok made =>
    refine ⟨rfl, ?_⟩
    cases kind <;> rfl

/-- Making a section does not look at the sink, and leaves it alone. -/
theorem generate_withSink (s : Session) (k : Sink) (styles : StyleSection) :
    ((s.withSink k).generate styles).result = (s.generate styles).result ∧
      ((s.withSink k).generate styles).session = (s.generate styles).session.withSink k := by
  cases styles with
  | tags rules => exact ⟨rfl, rfl⟩
  | classes rules => exact generateNamed_withSink s k .styleClass (classWriter s.options) rules
  | animations frames =>
    exact generateNamed_withSink s k .animation (animationWriter s.options) frames

/-- Making a section sends nothing to the sink. -/
@[simp] theorem sink_generate (s : Session) (styles : StyleSection) :
    (s.generate styles).session.sink = s.sink := by
  have kept := (generate_withSink s s.sink styles).2
  rw [withSink_sink] at kept
  rw [kept, sink_withSink]

/-- Appending changes the sink only. -/
theorem session_append_eq (s : Session) (made : Generated) :
    (s.append made).session = s.withSink (s.sink.receive made.css) := by
  rw [append, Sink.receive]
  split <;> rfl

/-- Creating a section that can be made gives the sink its text and changes nothing else further. -/
theorem session_create {made : Generated} (h : (s.generate styles).result = .ok made) :
    (s.create styles).session =
      (s.generate styles).session.withSink (s.sink.receive made.css) := by
  rw [create, (Outcome.andThen_of_ok h _).2, Outcome.session_map, session_append_eq,
    sink_generate]

/-- What comes of creating a section does not depend on the sink. -/
theorem result_create_withSink (s : Session) (k : Sink) (styles : StyleSection) :
    ((s.withSink k).create styles).result = (s.create styles).result := by
  have result_eq := (generate_withSink s k styles).1
  cases h : (s.generate styles).result with
  | error e =>
    rw [(create_of_generate_error h).1, (create_of_generate_error (result_eq.trans h)).1]
  | ok made => rw [(create_of_generate_ok h).1, (create_of_generate_ok (result_eq.trans h)).1]

/-! ## Sessions with the same text -/

/-- Two sessions have **the same text** if they differ at most in the pieces in which their sinks
have received it. -/
structure SameText (s t : Session) : Prop where
  options_eq : t.options = s.options
  optionsSet_eq : t.optionsSet = s.optionsSet
  classNames_eq : t.classNames = s.classNames
  animationNames_eq : t.animationNames = s.animationNames
  generator_eq : t.generator = s.generator
  text_eq : t.sink.text = s.sink.text

/-- Sessions that differ in the chunks of one text only have the same text. -/
theorem sameText_withSink (s : Session) {k k' : Sink} (h : k'.text = k.text) :
    (s.withSink k).SameText (s.withSink k') :=
  ⟨rfl, rfl, rfl, rfl, rfl, h⟩

end Session

end StyleTree
