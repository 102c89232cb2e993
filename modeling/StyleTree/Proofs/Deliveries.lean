import Mathlib.Data.List.Forall2
import StyleTree.Proofs.ReceivedText

/-! # Deliveries

What a session gives to its sink, call by call. No call looks at the sink, and all that it does to
the sink is to **deliver** chunks of text to its end. So a session that keeps its sheet in memory
and one that hands its text out behave alike, and the sheet is the text of all chunks together.

* **`Session.delivered`** are the chunks of one call, **`Session.deliveries`** those of a run.
* **`Session.perform_withSink`** says of one call, and **`Session.after_withSink`** of a run, that
  any sink is given these chunks and makes no other difference.
* **`sinks_receive_alike`** puts this together for every run of a new session. -/

namespace StyleTree

namespace Sink

/-- Give a sink pieces of text, one after another. -/
def appendAll (chunks : List String) (k : Sink) : Sink :=
  chunks.foldl (fun k chunk => k.append chunk) k

@[simp] theorem appendAll_nil (k : Sink) : k.appendAll [] = k := rfl

/-- Chunks can be received in two parts. -/
theorem appendAll_append (chunks later : List String) (k : Sink) :
    k.appendAll (chunks ++ later) = (k.appendAll chunks).appendAll later := by
  simp [appendAll]

/-- A sheet joins the chunks it receives behind its text. -/
theorem appendAll_sheet (chunks : List String) (text : String) :
    (sheet text).appendAll chunks = .sheet (text ++ String.join chunks) := by
  induction chunks generalizing text with
  | nil => simp
  | cons chunk rest ih =>
    show ((sheet text).append chunk).appendAll rest = _
    rw [append_sheet, ih, String.join_cons, String.append_assoc]

/-- An external sink lists the chunks it receives behind those it has. -/
theorem appendAll_external (chunks earlier : List String) :
    (external earlier).appendAll chunks = .external (earlier ++ chunks) := by
  induction chunks generalizing earlier with
  | nil => simp
  | cons chunk rest ih =>
    show ((external earlier).append chunk).appendAll rest = _
    rw [append_external, ih, List.append_assoc, List.singleton_append]

end Sink

/-- The chunk of text that has been made, unless there is no text. -/
def Generated.chunk? (made : Generated) : Option String :=
  if made.css = "" then none else some made.css

/-- A sink receives what was made as one chunk, or as none if there is no text. -/
theorem Generated.receive_css (made : Generated) (k : Sink) :
    k.receive made.css = k.appendAll made.chunk?.toList := by
  rw [Sink.receive, Generated.chunk?]
  split <;> rfl

/-- A chunk of what was made has a text. -/
theorem Generated.ne_empty_of_mem_chunk? {made : Generated} {chunk : String}
    (h : chunk ∈ made.chunk?) : chunk ≠ "" := by
  unfold chunk? at h
  split at h
  · cases h
  · next text =>
    cases h
    exact text

/-- The call that makes the section which a call creates. -/
def Call.making? : Call → Option Call
  | .create styles => some (.generate styles)
  | .createJson kind value => some (.generateJson kind value)
  | _ => none

/-- The chunk of text that a call has returned. -/
def Outcome.chunk? (o : Outcome Reply) : Option String :=
  match o.result with
  | .ok (.generated made) => made.chunk?
  | _ => none

namespace Session

variable {s : Session} {styles : StyleSection}

/-! ## Chunks of a call -/

/-- The chunk that creating a section delivers: the text that making it returns. -/
def chunk? (s : Session) (styles : StyleSection) : Option String :=
  match (s.generate styles).result with
  | .ok made => made.chunk?
  | .error _ => none

/-- The chunks that creating sections one after another delivers, up to the first error. -/
def chunksOfAll (s : Session) : List StyleSection → List String
  | [] => []
  | styles :: rest =>
    (s.chunk? styles).toList ++
      match (s.create styles).result with
      | .ok _ => chunksOfAll (s.create styles).session rest
      | .error _ => []

/-- The chunks that a call delivers. -/
def delivered (s : Session) : Call → List String
  | .create styles => (s.chunk? styles).toList
  | .createJson kind value =>
    match StyleSection.ofJson? value kind with
    | some styles => (s.chunk? styles).toList
    | none => []
  | .compileDocument d overrides =>
    match documentOptions d overrides with
    | .ok u => (s.setOptionsIfAny u).session.chunksOfAll d.compiledSections
    | .error _ => []
  | _ => []

/-- The chunks that calls deliver, call by call. -/
def deliveries (s : Session) : List Call → List (List String)
  | [] => []
  | call :: rest => s.delivered call :: deliveries (s.perform call).session rest

/-- A section that is made has the chunk of what is made. -/
theorem chunk?_of_ok {made : Generated} (h : (s.generate styles).result = .ok made) :
    s.chunk? styles = made.chunk? := by
  rw [chunk?, h]

/-- A section that cannot be made has no chunk. -/
theorem chunk?_of_error {e : Error} (h : (s.generate styles).result = .error e) :
    s.chunk? styles = none := by
  rw [chunk?, h]

/-- What creating a section delivers is the text that making it would have returned. -/
theorem chunk?_perform_generate (s : Session) (styles : StyleSection) :
    (s.perform (.generate styles)).chunk? = s.chunk? styles := by
  rw [Outcome.chunk?, chunk?, perform, Outcome.result_map]
  cases (s.generate styles).result <;> rfl

/-- The chunk of a section has a text. -/
theorem ne_empty_of_mem_chunk? {chunk : String} (h : chunk ∈ s.chunk? styles) : chunk ≠ "" := by
  cases hmade : (s.generate styles).result with
  | error e =>
    rw [chunk?_of_error hmade] at h
    cases h
  | ok made =>
    rw [chunk?_of_ok hmade] at h
    exact made.ne_empty_of_mem_chunk? h

/-! ## Any sink -/

/-- Creating a section gives any sink its chunk. -/
theorem create_withSink (s : Session) (k : Sink) (styles : StyleSection) :
    ((s.withSink k).create styles).result = (s.create styles).result ∧
      ((s.withSink k).create styles).session =
        (s.create styles).session.withSink (k.appendAll (s.chunk? styles).toList) := by
  obtain ⟨result_eq, session_eq⟩ := generate_withSink s k styles
  refine ⟨result_create_withSink s k styles, ?_⟩
  cases h : (s.generate styles).result with
  | error e =>
    rw [(create_of_generate_error (result_eq.trans h)).2, (create_of_generate_error h).2,
      session_eq, chunk?_of_error h]
    rfl
  | ok made =>
    rw [session_create (result_eq.trans h), session_create h, session_eq, chunk?_of_ok h,
      sink_withSink, made.receive_css, withSink_withSink, withSink_withSink]

/-- The chunk of a section does not depend on the sink. -/
theorem chunk?_withSink (s : Session) (k : Sink) (styles : StyleSection) :
    (s.withSink k).chunk? styles = s.chunk? styles := by
  rw [chunk?, chunk?, (generate_withSink s k styles).1]

/-- Sections are created alike with another sink, which then receives their chunks. -/
theorem createAll_withSink (s : Session) (k : Sink) (sections : List StyleSection) :
    ((s.withSink k).createAll sections).result = (s.createAll sections).result ∧
      ((s.withSink k).createAll sections).session =
        (s.createAll sections).session.withSink (k.appendAll (s.chunksOfAll sections)) := by
  -- on the sections, for every sink: the chunk of a section goes into the sink of the others
  induction sections generalizing s k with
  | nil => exact ⟨rfl, rfl⟩
  | cons styles rest ih =>
    obtain ⟨result_eq, session_eq⟩ := create_withSink s k styles
    rw [chunksOfAll]
    cases h : (s.create styles).result with
    | error e =>
      obtain ⟨result_s, session_s⟩ := createAll_cons_of_error h rest
      obtain ⟨result_t, session_t⟩ := createAll_cons_of_error (result_eq.trans h) rest
      rw [result_s, session_s, result_t, session_t, session_eq, List.append_nil]
      exact ⟨rfl, rfl⟩
    | ok names =>
      obtain ⟨result_s, session_s⟩ := createAll_cons_of_ok h rest
      obtain ⟨result_t, session_t⟩ := createAll_cons_of_ok (result_eq.trans h) rest
      obtain ⟨result_rest, session_rest⟩ := ih (s.create styles).session
        (k.appendAll (s.chunk? styles).toList)
      rw [result_s, session_s, result_t, session_t, session_eq, result_rest, session_rest,
        Sink.appendAll_append]
      exact ⟨rfl, rfl⟩

/-- Setting options has nothing to do with the sink. -/
theorem setOptionsIfAny_withSink (s : Session) (k : Sink) (u : Options.Update) :
    ((s.withSink k).setOptionsIfAny u).session =
      (s.setOptionsIfAny u).session.withSink k := by
  unfold setOptionsIfAny
  split <;> rfl

/-- A document gives any sink the chunks of its sections. -/
theorem compileDocument_withSink (s : Session) (k : Sink) (d : Document)
    (overrides : Options.Update) :
    ((s.withSink k).compileDocument d overrides).result =
        (s.compileDocument d overrides).result ∧
      ((s.withSink k).compileDocument d overrides).session =
        (s.compileDocument d overrides).session.withSink
          (k.appendAll (s.delivered (.compileDocument d overrides))) := by
  rw [delivered]
  cases hu : documentOptions d overrides with
  | error e =>
    rw [compileDocument_of_bad_options hu, compileDocument_of_bad_options hu]
    exact ⟨rfl, rfl⟩
  | ok u =>
    have compiled (s : Session) := compileDocument_of_options (s := s) hu
    obtain ⟨result_eq, session_eq⟩ :=
      createAll_withSink (s.setOptionsIfAny u).session k d.compiledSections
    rw [(compiled s).1, (compiled s).2, (compiled _).1, (compiled _).2, setOptionsIfAny_withSink,
      Outcome.result_map, Outcome.result_map, result_eq, session_eq]
    exact ⟨rfl, rfl⟩

/-- A call gives any sink the chunks that it delivers, and makes no other use of it. -/
theorem perform_withSink (s : Session) (k : Sink) (call : Call) :
    ((s.withSink k).perform call).result = (s.perform call).result ∧
      ((s.withSink k).perform call).session =
        (s.perform call).session.withSink (k.appendAll (s.delivered call)) := by
  have mapped {α : Type} {o o' : Outcome α} {chunks : List String} (f : α → Reply)
      (h : o'.result = o.result ∧ o'.session = o.session.withSink (k.appendAll chunks)) :
      (o'.map f).result = (o.map f).result ∧
        (o'.map f).session = (o.map f).session.withSink (k.appendAll chunks) := by
    rw [Outcome.result_map, Outcome.result_map, h.1]
    exact ⟨rfl, h.2⟩
  cases call with
  | setOptions u => exact ⟨rfl, rfl⟩
  | setOptionsJson value =>
    simp only [perform, setOptionsJson]
    cases Options.Update.ofValue value <;> exact ⟨rfl, rfl⟩
  | generate styles => exact mapped .generated (generate_withSink s k styles)
  | create styles => exact mapped .names (create_withSink s k styles)
  | generateJson kind value =>
    rw [perform_generateJson, perform_generateJson]
    cases StyleSection.ofJson? value kind with
    | none => exact ⟨rfl, rfl⟩
    | some styles => exact mapped .generated (generate_withSink s k styles)
  | createJson kind value =>
    rw [perform_createJson, perform_createJson, delivered]
    cases StyleSection.ofJson? value kind with
    | none => exact ⟨rfl, rfl⟩
    | some styles => exact mapped .names (create_withSink s k styles)
  | compileDocument d overrides =>
    exact mapped .documentNames (compileDocument_withSink s k d overrides)

/-- The chunks of sections do not depend on the sink. -/
theorem chunksOfAll_withSink (s : Session) (k : Sink) (sections : List StyleSection) :
    (s.withSink k).chunksOfAll sections = s.chunksOfAll sections := by
  induction sections generalizing s k with
  | nil => rfl
  | cons styles rest ih =>
    obtain ⟨result_eq, session_eq⟩ := create_withSink s k styles
    rw [chunksOfAll, chunksOfAll, chunk?_withSink, result_eq, session_eq, ih]

/-- What a call delivers does not depend on the sink. -/
theorem delivered_withSink (s : Session) (k : Sink) (call : Call) :
    (s.withSink k).delivered call = s.delivered call := by
  cases call with
  | create styles => simp only [delivered, chunk?_withSink]
  | createJson kind value => simp only [delivered, chunk?_withSink]
  | compileDocument d overrides =>
    simp only [delivered, setOptionsIfAny_withSink, chunksOfAll_withSink]
  | _ => rfl

/-! ## Runs -/

/-- Calls one after another give any sink what they deliver, and make no other use of it. -/
theorem after_withSink (s : Session) (k : Sink) (calls : List Call) :
    (s.withSink k).after calls =
        (s.after calls).withSink (k.appendAll (s.deliveries calls).flatten) ∧
      (s.withSink k).deliveries calls = s.deliveries calls ∧
      ((s.withSink k).run calls).map Outcome.result = (s.run calls).map Outcome.result := by
  induction calls generalizing s k with
  | nil => exact ⟨rfl, rfl, rfl⟩
  | cons call rest ih =>
    obtain ⟨result_eq, session_eq⟩ := perform_withSink s k call
    obtain ⟨after_eq, deliveries_eq, results_eq⟩ :=
      ih (s.perform call).session (k.appendAll (s.delivered call))
    refine ⟨?_, ?_, ?_⟩
    · rw [after_cons, after_cons, session_eq, after_eq, deliveries, List.flatten_cons,
        Sink.appendAll_append]
    · rw [deliveries, deliveries, delivered_withSink, session_eq, deliveries_eq]
    · simp only [run, List.map_cons, result_eq, session_eq, results_eq]

/-- A sink has received what it had before a run and then what the run has delivered. -/
theorem sink_after (s : Session) (calls : List Call) :
    (s.after calls).sink = s.sink.appendAll (s.deliveries calls).flatten := by
  have same_sink := (after_withSink s s.sink calls).1
  rw [withSink_sink] at same_sink
  rw [same_sink, sink_withSink]

/-- The deliveries of calls in two parts are those of the first part and then those of the second,
made in the session that the first part leaves. -/
theorem deliveries_append (s : Session) (calls later : List Call) :
    s.deliveries (calls ++ later) = s.deliveries calls ++ (s.after calls).deliveries later := by
  induction calls generalizing s with
  | nil => rfl
  | cons call rest ih => rw [List.cons_append, deliveries, deliveries, ih, after_cons,
      List.cons_append]

/-! ## What may be delivered -/

/-- There is at most one chunk for each section. -/
theorem length_chunksOfAll_le (s : Session) (sections : List StyleSection) :
    (s.chunksOfAll sections).length ≤ sections.length := by
  induction sections generalizing s with
  | nil => exact Nat.le_refl 0
  | cons styles rest ih =>
    have first : (s.chunk? styles).toList.length ≤ 1 := by
      cases s.chunk? styles <;> simp
    have others : (match (s.create styles).result with
        | .ok _ => chunksOfAll (s.create styles).session rest
        | .error _ => []).length ≤ rest.length := by
      split
      · exact ih _
      · exact Nat.zero_le _
    rw [chunksOfAll, List.length_append, List.length_cons]
    omega

/-- Each chunk of several sections has a text. -/
theorem ne_empty_of_mem_chunksOfAll {sections : List StyleSection} {chunk : String}
    (h : chunk ∈ s.chunksOfAll sections) : chunk ≠ "" := by
  induction sections generalizing s with
  | nil => cases h
  | cons styles rest ih =>
    rw [chunksOfAll, List.mem_append] at h
    rcases h with h | h
    · exact ne_empty_of_mem_chunk? (Option.mem_toList.1 h)
    · split at h
      · exact ih h
      · cases h

/-- No chunk is empty. -/
theorem ne_empty_of_mem_delivered {call : Call} {chunk : String}
    (h : chunk ∈ s.delivered call) : chunk ≠ "" := by
  unfold delivered at h
  split at h
  · exact ne_empty_of_mem_chunk? (Option.mem_toList.1 h)
  · split at h
    · exact ne_empty_of_mem_chunk? (Option.mem_toList.1 h)
    · cases h
  · split at h
    · exact ne_empty_of_mem_chunksOfAll h
    · cases h
  · cases h

/-- A call that creates one section delivers the text that the call returns which makes it. -/
theorem delivered_of_making {call making : Call} (h : call.making? = some making) :
    s.delivered call = (s.perform making).chunk?.toList := by
  cases call with
  | create styles =>
    cases h
    rw [chunk?_perform_generate, delivered]
  | createJson kind value =>
    cases h
    rw [perform_generateJson, delivered]
    cases StyleSection.ofJson? value kind with
    | none => rfl
    | some styles => rw [chunk?_perform_generate]
  | _ => cases h

/-- A section that cannot be created delivers nothing. -/
theorem delivered_of_error {call making : Call} {e : Error} (h : call.making? = some making)
    (failed : (s.perform call).result = .error e) : s.delivered call = [] := by
  have nothing {styles : StyleSection}
      (failed : (s.perform (.create styles)).result = .error e) :
      (s.chunk? styles).toList = [] := by
    rw [chunk?_of_error (generate_error_of_create (Outcome.error_of_map_error failed))]
    rfl
  cases call with
  | create styles => exact nothing failed
  | createJson kind value =>
    rw [perform_createJson] at failed
    rw [delivered]
    cases hstyles : StyleSection.ofJson? value kind with
    | none => rfl
    | some styles =>
      rw [hstyles] at failed
      exact nothing failed
  | _ => cases h

/-- How a call **delivers** chunks of text, seen from the session before it. -/
structure Delivers (before : Session) (call : Call) (chunks : List String) : Prop where
  /-- No chunk is empty. -/
  ne_empty : ∀ chunk ∈ chunks, chunk ≠ ""
  /-- A call that creates nothing delivers nothing. -/
  none_created : call.making? = none → (∀ d overrides, call ≠ .compileDocument d overrides) →
    chunks = []
  /-- A call that creates a section delivers at most one chunk: the text that the call returns which
  only makes the section. -/
  created : ∀ making, call.making? = some making →
    chunks = (before.perform making).chunk?.toList ∧ chunks.length ≤ 1
  /-- A call that fails to create a section delivers nothing. -/
  failed : ∀ making e, call.making? = some making →
    (before.perform call).result = .error e → chunks = []
  /-- A document whose options cannot be read delivers nothing. -/
  unread : ∀ d overrides e, call = .compileDocument d overrides →
    documentOptions d overrides = .error e → chunks = []
  /-- A document delivers at most three chunks: those of its tags, animations and classes, in this
  order and up to the first that fails. -/
  compiled : ∀ d overrides u, call = .compileDocument d overrides →
    documentOptions d overrides = .ok u →
    chunks = (before.setOptionsIfAny u).session.chunksOfAll
      [.tags d.tags, .animations d.animations, .classes d.classes] ∧ chunks.length ≤ 3

/-- What a call delivers is what it is meant to deliver. -/
theorem delivers_delivered (s : Session) (call : Call) : s.Delivers call (s.delivered call) where
  ne_empty _ := ne_empty_of_mem_delivered
  none_created unmade undocumented := by
    cases call with
    | create styles => cases unmade
    | createJson kind value => cases unmade
    | compileDocument d overrides => exact absurd rfl (undocumented d overrides)
    | _ => rfl
  created making h := by
    rw [delivered_of_making h]
    exact ⟨rfl, Option.length_toList_le⟩
  failed _ _ := delivered_of_error
  unread d overrides e hcall h := by
    rw [hcall, delivered, h]
  compiled d overrides u hcall h := by
    rw [hcall, delivered, h]
    exact ⟨rfl, length_chunksOfAll_le _ d.compiledSections⟩

end Session

/-- A sheet in memory and a receiver outside can take each other's place. Two sessions start with
the same letters to come and the same options, one with either sink, and get the same calls. Then
every call has the same result in both, and the sessions differ in nothing but their sinks: the
sheet is the text of all chunks that the receiver has been given. So the sheet only grows at its
end, call by call, by what the call delivers. -/
theorem sinks_receive_alike {g : Generator} {u : Option Options.Update} {s t : Session}
    (hs : Session.start (some (.sheet "")) g u = .ok s)
    (ht : Session.start (some (.external [])) g u = .ok t) (calls : List Call) :
    (t.run calls).map Outcome.result = (s.run calls).map Outcome.result ∧
    (t.after calls = (s.after calls).withSink (.external (t.deliveries calls).flatten) ∧
      (s.after calls).sink = .sheet (String.join (t.deliveries calls).flatten)) ∧
    ∀ call,
      t.deliveries (calls ++ [call]) = t.deliveries calls ++ [(t.after calls).delivered call] ∧
      (s.after (calls ++ [call])).sink.text =
        (s.after calls).sink.text ++ String.join ((t.after calls).delivered call) ∧
      (t.after calls).Delivers call ((t.after calls).delivered call) := by
  have same_start : t = s.withSink (.external []) ∧ s.sink = .sheet "" := by
    cases u <;> cases hs <;> cases ht <;> exact ⟨rfl, rfl⟩
  obtain ⟨rfl, sheet⟩ := same_start
  -- so the second run is the first with another sink, which has received the same chunks
  obtain ⟨after_eq, deliveries_eq, results_eq⟩ :=
    Session.after_withSink s (.external []) calls
  have received (calls : List Call) :
      (s.after calls).sink = .sheet (String.join (s.deliveries calls).flatten) := by
    rw [Session.sink_after, sheet, Sink.appendAll_sheet, String.empty_append]
  refine ⟨results_eq, ⟨?_, ?_⟩, fun call => ⟨?_, ?_, ?_⟩⟩
  · rw [after_eq, deliveries_eq, Sink.appendAll_external, List.nil_append]
  · rw [deliveries_eq, received]
  · exact Session.deliveries_append ..
  · rw [received, received, after_eq, Session.delivered_withSink, Session.deliveries_append]
    simp [Session.deliveries, Sink.text, String.join_append]
  · exact Session.delivers_delivered ..

/-- Tags, a class that is taken and a document whose classes fail. -/
theorem sinks_receive_alike_failing :
    let calls : List Call :=
      [.create (.tags [("p", [("color", .text "red")])]), .generate (.classes [("a", [])]),
        .create (.classes [("b", [("top", .text "0")]), ("a", [])]),
        .compileDocument
          { animations := [("spin", [("from", [("top", .text "0")])])]
            classes := [("c", [("hover", .text "red")])] }
          { minify := some true }]
    ∃ s t, Session.start (some (.sheet "")) (.ofSeed 7) (some { obfuscate := some false }) = .ok s ∧
      Session.start (some (.external [])) (.ofSeed 7) (some { obfuscate := some false }) = .ok t ∧
      t.deliveries calls = [["\np \x7b\n  color: red;\n\x7d\n"], [], [],
        ["@keyframes spin\x7bfrom\x7btop:0;\x7d\x7d"]] ∧
      (s.after calls).sink = .sheet (String.join (t.deliveries calls).flatten) := by
  intro calls
  have hs : Session.start (some (.sheet "")) (.ofSeed 7) (some { obfuscate := some false }) =
      .ok _ := rfl
  have ht : Session.start (some (.external [])) (.ofSeed 7) (some { obfuscate := some false }) =
      .ok _ := rfl
  exact ⟨_, _, hs, ht, by decide +kernel, (sinks_receive_alike hs ht calls).2.1.2⟩

end StyleTree
