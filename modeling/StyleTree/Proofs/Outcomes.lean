import StyleTree.Proofs.IssuedNames
import StyleTree.Proofs.Results
import StyleTree.Session.Call

/-! # Outcomes of calls

What a call of a session does to the session, said once for each operation: what is left when it
fails and what has changed when it succeeds. All that holds of sessions is derived from here.

* **`Session.generateNamed_error`** and **`Session.generateNamed_ok`** are the two ends of a batch.
* **`Session.createAll`** creates sections one after another; a document is compiled by it, as
  `Session.compileDocument_eq_createAll` says. -/

namespace StyleTree

namespace Outcome

variable {α β γ : Type} {o : Outcome α}

/-- A failed call is not gone on with. -/
theorem andThen_of_error {e : Error} (h : o.result = .error e)
    (next : α → Session → Outcome β) : o.andThen next = ⟨.error e, o.session, o.events⟩ := by
  rw [andThen, h]

/-- After a successful call the next one decides about result and session. -/
theorem andThen_of_ok {a : α} (h : o.result = .ok a) (next : α → Session → Outcome β) :
    (o.andThen next).result = (next a o.session).result ∧
      (o.andThen next).session = (next a o.session).session := by
  rw [andThen, h]
  exact ⟨rfl, rfl⟩

@[simp] theorem ofExcept_ok (s : Session) (a : α) : ofExcept s (.ok a) = ok s a := rfl

@[simp] theorem ofExcept_error (s : Session) (e : Error) :
    ofExcept s (.error e) = (fail s e : Outcome α) := rfl

/-- What is made of an answer leaves the session behind as it is. -/
@[simp] theorem session_map (f : α → β) (o : Outcome α) : (o.map f).session = o.session := rfl

/-- What is made of an answer is made of the result. -/
@[simp] theorem result_map (f : α → β) (o : Outcome α) : (o.map f).result = o.result.map f := rfl

/-- Changing what a call returns waits until the call is over. -/
theorem map_andThen (f : β → γ) (o : Outcome α) (next : α → Session → Outcome β) :
    (o.andThen next).map f = o.andThen fun a s => (next a s).map f := by
  cases h : o.result <;> simp [andThen, h, map, Except.map]

/-- What is made of an answer in two goes can be made in one. -/
theorem map_map (g : β → γ) (f : α → β) (o : Outcome α) :
    (o.map f).map g = o.map fun a => g (f a) := by
  cases h : o.result <;> simp [map, h, Except.map]

@[simp] theorem map_ok (f : α → β) (s : Session) (a : α) : (ok s a).map f = ok s (f a) := rfl

/-- Going on with nothing but a value changes only what the call returns. -/
theorem andThen_ok_eq_map (f : α → β) (o : Outcome α) :
    (o.andThen fun a s => ok s (f a)) = o.map f := by
  cases h : o.result <;> simp [andThen, ok, map, h, Except.map]

/-- An answer can only be made of an answer. -/
theorem exists_of_map_ok {f : α → β} {b : β} (h : (o.map f).result = .ok b) :
    ∃ a, o.result = .ok a ∧ f a = b :=
  Result.map_eq_ok.1 h

/-- An error stays the error it was. -/
theorem error_of_map_error {f : α → β} {e : Error} (h : (o.map f).result = .error e) :
    o.result = .error e :=
  Result.map_eq_error.1 h

end Outcome

/-- The sections of a document, in the order in which they are compiled. -/
def Document.compiledSections (d : Document) : List StyleSection :=
  [.tags d.tags, .animations d.animations, .classes d.classes]

namespace Session

variable {α : Type} {s t : Session} {styles : StyleSection} {e : Error}

/-- Options are no matter of the registries. -/
@[simp] theorem options_setNames (s : Session) (kind : NameKind) (names : Registry) :
    (s.setNames kind names).options = s.options := by
  cases kind <;> rfl

/-! ## Generating -/

/-- The batch in which named entries are made. -/
def batch (s : Session) (kind : NameKind) (w : EntryWriter α) (entries : Table α) : Batch :=
  Batch.run w s.options.obfuscate ((s.names kind).reserve kind) s.generator entries

/-- Entries whose batch fails cannot be made; the letters drawn for them are gone. -/
theorem generateNamed_of_batch_error {kind : NameKind} {w : EntryWriter α} {entries : Table α}
    (h : (s.batch kind w entries).result = .error e) :
    (s.generateNamed kind w entries).result = .error e ∧
      (s.generateNamed kind w entries).session =
        { s with generator := (s.batch kind w entries).generator } := by
  rw [batch] at h ⊢
  simp only [generateNamed, h, and_self]

/-- Entries whose batch completes are made, and the names staged for them are committed. -/
theorem generateNamed_of_batch_ok {kind : NameKind} {w : EntryWriter α} {entries : Table α}
    {made : Generated} {r : Reservation} (h : (s.batch kind w entries).result = .ok (made, r)) :
    (s.generateNamed kind w entries).result =
        .ok { made with css := finish s.options made.css } ∧
      (s.generateNamed kind w entries).session =
        { s with generator := (s.batch kind w entries).generator }.setNames kind r.commit := by
  rw [batch] at h ⊢
  simp only [generateNamed, h, and_self]

/-- A failed batch leaves everything but the letters drawn. -/
theorem generateNamed_error {kind : NameKind} {w : EntryWriter α} {entries : Table α}
    (h : (s.generateNamed kind w entries).result = .error e) :
    ∃ g, (s.generateNamed kind w entries).session = { s with generator := g } ∧
      (s.options.obfuscate = false → g = s.generator) := by
  -- the session keeps the generator that the batch has left, whatever else came of it
  refine ⟨(Batch.run w s.options.obfuscate ((s.names kind).reserve kind) s.generator
    entries).generator, ?_, ?_⟩
  · simp only [generateNamed] at h ⊢
    split <;> simp_all
  · intro plain
    rw [plain, Batch.generator_run_plain]

/-- A successful batch has completed, and its names are recorded. -/
theorem generateNamed_ok {kind : NameKind} {w : EntryWriter α} {entries : Table α}
    {made : Generated} (h : (s.generateNamed kind w entries).result = .ok made) :
    ∃ css r g, Batch.Completes w s.options.obfuscate ((s.names kind).reserve kind) entries
        ⟨made.names, css⟩ r ∧
      made.css = finish s.options css ∧
      (s.generateNamed kind w entries).session =
        { s with generator := g }.setNames kind r.commit := by
  simp only [generateNamed] at h ⊢
  split at h
  · simp at h
  · next made' r hrun =>
    simp only [Except.ok.injEq] at h
    subst h
    exact ⟨made'.css, r, _, Batch.completes_of_run hrun, rfl, rfl⟩

/-- A batch fails for a name or for an entry. -/
theorem error_of_generateNamed {kind : NameKind} {w : EntryWriter α} {entries : Table α}
    (h : (s.generateNamed kind w entries).result = .error e) :
    (∃ base, e = .nameConflict kind base ∨ e = .namesExhausted kind base) ∨
      ∃ name, ∃ entry ∈ entries, w.text name entry.2 = .error e := by
  simp only [generateNamed] at h
  split at h
  · next e' hrun =>
    obtain rfl : e' = e := Except.error.inj h
    exact Batch.error_of_run hrun
  · simp at h

/-- A section that cannot be made leaves everything but the letters drawn. -/
theorem generate_error (h : (s.generate styles).result = .error e) :
    ∃ g, (s.generate styles).session = { s with generator := g } ∧
      (s.options.obfuscate = false → g = s.generator) := by
  cases styles with
  | tags rules => exact ⟨s.generator, rfl, fun _ => rfl⟩
  | classes rules => exact generateNamed_error h
  | animations frames => exact generateNamed_error h

/-- Naming entries leaves the options as they are. -/
theorem options_generateNamed (s : Session) (kind : NameKind) (w : EntryWriter α)
    (entries : Table α) : (s.generateNamed kind w entries).session.options = s.options := by
  cases h : (s.generateNamed kind w entries).result with
  | error e =>
    obtain ⟨g, hs, -⟩ := generateNamed_error h
    rw [hs]
  | ok made =>
    obtain ⟨css, r, g, -, -, hs⟩ := generateNamed_ok h
    rw [hs, options_setNames]

/-- Making a section leaves the options as they are. -/
@[simp] theorem options_generate (s : Session) (styles : StyleSection) :
    (s.generate styles).session.options = s.options := by
  cases styles with
  | tags rules => rfl
  | classes rules => exact options_generateNamed ..
  | animations frames => exact options_generateNamed ..

/-! ## Creating -/

/-- A piece of text changes nothing but the sink. -/
theorem session_append (s : Session) (made : Generated) :
    ∃ sink, (s.append made).session = { s with sink := sink } := by
  unfold append
  split
  · exact ⟨s.sink, rfl⟩
  · exact ⟨_, rfl⟩

/-- Appending to the sink always succeeds. -/
theorem result_append (s : Session) (made : Generated) : (s.append made).result = .ok () := by
  unfold append
  split <;> rfl

/-- Creating a section fails where making it fails. -/
theorem create_of_generate_error (h : (s.generate styles).result = .error e) :
    (s.create styles).result = .error e ∧
      (s.create styles).session = (s.generate styles).session := by
  rw [create, Outcome.andThen_of_error h]
  exact ⟨rfl, rfl⟩

/-- Creating a section that can be made gives its names and changes only the sink further. -/
theorem create_of_generate_ok {made : Generated} (h : (s.generate styles).result = .ok made) :
    (s.create styles).result = .ok made.names ∧
      ∃ sink, (s.create styles).session = { (s.generate styles).session with sink := sink } := by
  obtain ⟨result_eq, session_eq⟩ := Outcome.andThen_of_ok h
    fun made s => (s.append made).map fun _ => made.names
  rw [create, result_eq, session_eq, Outcome.result_map, Outcome.session_map, result_append]
  exact ⟨rfl, session_append ..⟩

/-- Creating a section leaves the session as making it does, but for the sink. -/
theorem exists_session_create (s : Session) (styles : StyleSection) :
    ∃ sink, (s.create styles).session = { (s.generate styles).session with sink := sink } := by
  cases h : (s.generate styles).result with
  | error e => exact ⟨(s.generate styles).session.sink, (create_of_generate_error h).2⟩
  | ok made => exact (create_of_generate_ok h).2

/-- Creating a section returns the names that making it issues, or the same error. -/
theorem result_create (s : Session) (styles : StyleSection) :
    (s.create styles).result = (s.generate styles).result.map Generated.names := by
  cases h : (s.generate styles).result with
  | error e => exact (create_of_generate_error h).1
  | ok made => exact (create_of_generate_ok h).1

/-- Creating a section fails only where making it fails. -/
theorem generate_error_of_create (h : (s.create styles).result = .error e) :
    (s.generate styles).result = .error e := by
  cases hg : (s.generate styles).result with
  | error e' =>
    rw [(create_of_generate_error hg).1] at h
    cases h
    rfl
  | ok made => simp [(create_of_generate_ok hg).1] at h

/-- Appending what was made leaves the registries as they are. -/
theorem names_create (s : Session) (styles : StyleSection) (kind : NameKind) :
    (s.create styles).session.names kind = (s.generate styles).session.names kind := by
  obtain ⟨sink, hs⟩ := exists_session_create s styles
  rw [hs]
  cases kind <;> rfl

/-- Creating a section leaves the options as they are. -/
@[simp] theorem options_create (s : Session) (styles : StyleSection) :
    (s.create styles).session.options = s.options := by
  obtain ⟨sink, hs⟩ := exists_session_create s styles
  rw [hs]
  exact options_generate s styles

/-- A section is created alike in two sessions where it is made alike, its text apart, if pieces of
text keep the sessions related. -/
theorem create_related {R : Session → Session → Prop} {f : Generated → Generated}
    (names_eq : ∀ made, (f made).names = made.names)
    (result_eq : (t.generate styles).result = (s.generate styles).result.map f)
    (sessions : R (s.generate styles).session (t.generate styles).session)
    (appended : ∀ made, (s.generate styles).result = .ok made →
      R ((s.generate styles).session.append made).session
        ((t.generate styles).session.append (f made)).session) :
    (t.create styles).result = (s.create styles).result ∧
      R (s.create styles).session (t.create styles).session := by
  -- a section that fails appends nothing
  cases hs : (s.generate styles).result with
  | error e =>
    have ht : (t.generate styles).result = .error e := by
      rw [result_eq, hs]
      rfl
    obtain ⟨result_s, session_s⟩ := create_of_generate_error hs
    obtain ⟨result_t, session_t⟩ := create_of_generate_error ht
    rw [result_s, session_s, result_t, session_t]
    exact ⟨rfl, sessions⟩
  | ok made =>
    have ht : (t.generate styles).result = .ok (f made) := by
      rw [result_eq, hs]
      rfl
    refine ⟨?_, ?_⟩
    · rw [(create_of_generate_ok hs).1, (create_of_generate_ok ht).1, names_eq]
    · rw [create, create, (Outcome.andThen_of_ok hs _).2, (Outcome.andThen_of_ok ht _).2]
      exact appended made hs

/-! ## Sections given in JSON -/

/-- A section given in JSON is read, and then made like any other. -/
theorem perform_generateJson (s : Session) (kind : SectionKind) (value : Json) :
    s.perform (.generateJson kind value) =
      match StyleSection.ofJson? value kind with
      | some styles => s.perform (.generate styles)
      | none => Outcome.fail s .malformedDocument := by
  simp only [perform, withSection]
  cases StyleSection.ofJson? value kind <;> rfl

/-- A section given in JSON is read, and then created like any other. -/
theorem perform_createJson (s : Session) (kind : SectionKind) (value : Json) :
    s.perform (.createJson kind value) =
      match StyleSection.ofJson? value kind with
      | some styles => s.perform (.create styles)
      | none => Outcome.fail s .malformedDocument := by
  simp only [perform, withSection]
  cases StyleSection.ofJson? value kind <;> rfl

/-! ## Documents -/

/-- Create sections one after another, up to the first error. -/
def createAll (s : Session) : List StyleSection → Outcome (List (Table String))
  | [] => Outcome.ok s []
  | styles :: rest =>
    (s.create styles).andThen fun names s => (createAll s rest).map fun later => names :: later

/-- The first section that fails is the last one to be tried. -/
theorem createAll_cons_of_error (h : (s.create styles).result = .error e)
    (rest : List StyleSection) :
    (s.createAll (styles :: rest)).result = .error e ∧
      (s.createAll (styles :: rest)).session = (s.create styles).session := by
  rw [createAll, Outcome.andThen_of_error h]
  exact ⟨rfl, rfl⟩

/-- Sections behind one that succeeds are created in the session that it leaves. -/
theorem createAll_cons_of_ok {names : Table String} (h : (s.create styles).result = .ok names)
    (rest : List StyleSection) :
    (s.createAll (styles :: rest)).result =
        ((s.create styles).session.createAll rest).result.map (List.cons names) ∧
      (s.createAll (styles :: rest)).session =
        ((s.create styles).session.createAll rest).session := by
  obtain ⟨result_eq, session_eq⟩ := Outcome.andThen_of_ok h
    fun names s => (createAll s rest).map fun later => names :: later
  rw [createAll, result_eq, session_eq, Outcome.result_map, Outcome.session_map]
  exact ⟨rfl, rfl⟩

/-- Several sections have been created if the first one and, after it, the others have. -/
theorem exists_of_createAll_cons_ok {rest : List StyleSection} {tables : List (Table String)}
    (h : (s.createAll (styles :: rest)).result = .ok tables) :
    ∃ names later, (s.create styles).result = .ok names ∧
      ((s.create styles).session.createAll rest).result = .ok later ∧ names :: later = tables := by
  cases hfirst : (s.create styles).result with
  | error e =>
    rw [(createAll_cons_of_error hfirst rest).1] at h
    cases h
  | ok names =>
    rw [(createAll_cons_of_ok hfirst rest).1] at h
    obtain ⟨later, hlater, same⟩ := Result.map_eq_ok.1 h
    exact ⟨names, later, rfl, hlater, same⟩

/-- Sections are created alike in related sessions if each of them is. -/
theorem createAll_related {R : Session → Session → Prop} {sections : List StyleSection}
    (created : ∀ styles ∈ sections, ∀ s t, R s t →
      (t.create styles).result = (s.create styles).result ∧
        R (s.create styles).session (t.create styles).session)
    (h : R s t) :
    (t.createAll sections).result = (s.createAll sections).result ∧
      R (s.createAll sections).session (t.createAll sections).session := by
  -- on the sections: related sessions stay related up to the first that fails
  induction sections generalizing s t with
  | nil => exact ⟨rfl, h⟩
  | cons styles rest ih =>
    obtain ⟨first, others⟩ := List.forall_mem_cons.1 created
    obtain ⟨result_eq, sessions⟩ := first s t h
    cases hs : (s.create styles).result with
    | error e =>
      obtain ⟨result_s, session_s⟩ := createAll_cons_of_error hs rest
      obtain ⟨result_t, session_t⟩ := createAll_cons_of_error (result_eq.trans hs) rest
      rw [result_s, session_s, result_t, session_t]
      exact ⟨rfl, sessions⟩
    | ok names =>
      obtain ⟨result_s, session_s⟩ := createAll_cons_of_ok hs rest
      obtain ⟨result_t, session_t⟩ := createAll_cons_of_ok (result_eq.trans hs) rest
      obtain ⟨result_rest, sessions_rest⟩ := ih others sessions
      rw [result_s, session_s, result_t, session_t, result_rest]
      exact ⟨rfl, sessions_rest⟩

/-- Setting options always succeeds. -/
theorem result_setOptionsIfAny (s : Session) (u : Options.Update) :
    (s.setOptionsIfAny u).result = .ok () := by
  rw [setOptionsIfAny]
  split <;> rfl

/-- The names that a document returns, given the name tables of its sections. -/
def documentNames (tables : List (Table String)) : DocumentNames :=
  ⟨tables.getD 2 [], tables.getD 1 []⟩

/-- A document is compiled by creating its sections with its options in effect. -/
theorem compileDocument_eq_createAll (s : Session) (d : Document) (overrides : Options.Update) :
    s.compileDocument d overrides =
      (Outcome.ofExcept s (documentOptions d overrides)).andThen fun u s =>
        (s.setOptionsIfAny u).andThen fun _ s =>
          (s.createAll d.compiledSections).map documentNames := by
  simp only [compileDocument, Document.compiledSections, createAll, Outcome.map_andThen,
    Outcome.map_map, Outcome.map_ok, Outcome.andThen_ok_eq_map]
  rfl

/-- A document with bad options does nothing. -/
theorem compileDocument_of_bad_options {d : Document} {overrides : Options.Update}
    (h : documentOptions d overrides = .error e) :
    s.compileDocument d overrides = Outcome.fail s e := by
  rw [compileDocument, h]
  rfl

/-- A document with good options sets them and creates its sections. -/
theorem compileDocument_of_options {d : Document} {overrides u : Options.Update}
    (h : documentOptions d overrides = .ok u) :
    (s.compileDocument d overrides).result =
        (((s.setOptionsIfAny u).session.createAll d.compiledSections).map documentNames).result ∧
      (s.compileDocument d overrides).session =
        ((s.setOptionsIfAny u).session.createAll d.compiledSections).session := by
  rw [compileDocument_eq_createAll, h, Outcome.ofExcept_ok, Outcome.andThen_ok]
  exact Outcome.andThen_of_ok (result_setOptionsIfAny s u) _

/-- A document that is compiled has good options, and its sections are created with them. -/
theorem exists_of_compileDocument_ok {d : Document} {overrides : Options.Update}
    {names : DocumentNames} (h : (s.compileDocument d overrides).result = .ok names) :
    ∃ u tables, documentOptions d overrides = .ok u ∧
      ((s.setOptionsIfAny u).session.createAll d.compiledSections).result = .ok tables ∧
      names = documentNames tables ∧
      (s.compileDocument d overrides).session =
        ((s.setOptionsIfAny u).session.createAll d.compiledSections).session := by
  cases hu : documentOptions d overrides with
  | error e => simp [compileDocument_of_bad_options hu, Outcome.fail] at h
  | ok u =>
    obtain ⟨result_eq, session_eq⟩ := compileDocument_of_options (s := s) hu
    rw [result_eq] at h
    obtain ⟨tables, htables, rfl⟩ := Outcome.exists_of_map_ok h
    exact ⟨u, tables, rfl, htables, rfl, session_eq⟩

end Session

end StyleTree
