import Mathlib.Data.List.Forall2
import StyleTree.Proofs.Outcomes

/-! # Registries of a run

What a run has made so far, as a list of **makings**: one for each section that a call has made,
with the options in effect and the names issued for it. A document makes its sections one after
another, so one that fails may still have made some of them.

* **`Session.makings`** are the makings of one call, **`Session.history`** those of a run.
* **`Session.names_generate`** says what one making does to the registries, and
  `Session.names_after` by induction what a run does: they hold exactly the names issued.
* **`registries_record_issued_names`** puts this together for every run of a new session. -/

namespace StyleTree

/-! ## Makings -/

namespace StyleSection

/-- What a section issues names to, if it does. -/
def nameKind? : StyleSection → Option NameKind
  | .tags _ => none
  | .classes _ => some .styleClass
  | .animations _ => some .animation

/-- The keys of a section that names are issued for. -/
def namedKeys : StyleSection → List String
  | .tags _ => []
  | .classes rules => Table.keys rules
  | .animations frames => Table.keys frames

end StyleSection

/-- A section that has been made. -/
structure Making where
  /-- The options in effect. -/
  options : Options
  /-- The section. -/
  styles : StyleSection
  /-- The names issued for it, and its text. -/
  made : Generated

/-- The names of one kind that were issued for a section. -/
def Making.namesOf (kind : NameKind) (m : Making) : List String :=
  if m.styles.nameKind? = some kind then m.made.names.map Prod.snd else []

/-- The sections that a call is about, in order. -/
def Call.sections : Call → List StyleSection
  | .setOptions _ => []
  | .setOptionsJson _ => []
  | .generate styles => [styles]
  | .create styles => [styles]
  | .generateJson kind value => (StyleSection.ofJson? value kind).toList
  | .createJson kind value => (StyleSection.ofJson? value kind).toList
  | .compileDocument d _ => d.compiledSections

/-- The name tables that a reply holds, one for each section. -/
def Reply.nameTables : Reply → List (Table String)
  | .done => []
  | .generated made => [made.names]
  | .names table => [table]
  | .documentNames tables => [[], tables.animations, tables.classes]

namespace Session

/-- The making of a section, if it can be made. -/
def making (s : Session) (styles : StyleSection) : List Making :=
  match (s.generate styles).result with
  | .ok made => [⟨s.options, styles, made⟩]
  | .error _ => []

/-- The makings of sections that are created one after another, up to the first error. -/
def makingsOfAll (s : Session) : List StyleSection → List Making
  | [] => []
  | styles :: rest =>
    s.making styles ++
      match (s.create styles).result with
      | .ok _ => makingsOfAll (s.create styles).session rest
      | .error _ => []

/-- The makings of a call. -/
def makings (s : Session) : Call → List Making
  | .compileDocument d overrides =>
    match documentOptions d overrides with
    | .ok u => (s.setOptionsIfAny u).session.makingsOfAll d.compiledSections
    | .error _ => []
  | call => call.sections.flatMap s.making

/-- The makings of calls carried out one after another. -/
def history (s : Session) : List Call → List Making
  | [] => []
  | call :: rest => s.makings call ++ history (s.perform call).session rest

/-- The names of one kind that calls have issued, in the order in which they were issued. -/
def issuedNames (s : Session) (kind : NameKind) (calls : List Call) : List String :=
  (s.history calls).flatMap (Making.namesOf kind)

variable {s : Session} {styles : StyleSection}

/-- A section that succeeds is one making. -/
theorem making_of_ok {made : Generated} (h : (s.generate styles).result = .ok made) :
    s.making styles = [⟨s.options, styles, made⟩] := by
  rw [making, h]

/-- A section that fails is no making. -/
theorem making_of_error {e : Error} (h : (s.generate styles).result = .error e) :
    s.making styles = [] := by
  rw [making, h]

/-- A making is made by a section that succeeds. -/
theorem mem_making {m : Making} :
    m ∈ s.making styles ↔
      ∃ made, (s.generate styles).result = .ok made ∧ m = ⟨s.options, styles, made⟩ := by
  cases h : (s.generate styles).result with
  | error e => simp [making_of_error h]
  | ok made => simp [making_of_ok h]

/-- A making of several sections is made by one of them. -/
theorem exists_of_mem_makingsOfAll {sections : List StyleSection} {m : Making}
    (h : m ∈ s.makingsOfAll sections) : ∃ t : Session, ∃ styles, m ∈ t.making styles := by
  induction sections generalizing s with
  | nil => simp [makingsOfAll] at h
  | cons styles rest ih =>
    rw [makingsOfAll, List.mem_append] at h
    rcases h with h | h
    · exact ⟨s, styles, h⟩
    · split at h
      · exact ih h
      · cases h

/-- A making of a call is made by one section. -/
theorem exists_of_mem_makings {call : Call} {m : Making} (h : m ∈ s.makings call) :
    ∃ t : Session, ∃ styles, m ∈ t.making styles := by
  unfold makings at h
  split at h
  · split at h
    · exact exists_of_mem_makingsOfAll h
    · cases h
  · obtain ⟨styles, -, h⟩ := List.mem_flatMap.1 h
    exact ⟨s, styles, h⟩

/-- Every making of a run is that of one section in some session. -/
theorem exists_of_mem_history {calls : List Call} {m : Making} (h : m ∈ s.history calls) :
    ∃ t : Session, ∃ styles, m ∈ t.making styles := by
  induction calls generalizing s with
  | nil => simp [history] at h
  | cons call rest ih =>
    rw [history, List.mem_append] at h
    rcases h with h | h
    · exact exists_of_mem_makings h
    · exact ih h

/-! ## Registries -/

/-- A batch records its names in the registry of its kind, and none in the other. -/
theorem names_generateNamed {α : Type} {made : Generated} {named : NameKind} {w : EntryWriter α}
    {entries : Table α} (h : (s.generateNamed named w entries).result = .ok made)
    (kind : NameKind) :
    ((s.generateNamed named w entries).session.names kind).names =
      (s.names kind).names ++ if named = kind then made.names.map Prod.snd else [] := by
  obtain ⟨css, r, g, completes, -, hs⟩ := generateNamed_ok h
  rw [hs]
  -- only the registry of the batch's own kind is replaced by the committed one
  by_cases hkind : named = kind
  · subst hkind
    rw [names_setNames, completes.names_commit, if_pos rfl]
  · rw [names_setNames_of_ne _ (Ne.symm hkind), if_neg hkind, List.append_nil]
    cases kind <;> rfl

/-- Making a section records its names, and only these. -/
theorem names_generate (s : Session) (styles : StyleSection) (kind : NameKind) :
    ((s.generate styles).session.names kind).names =
      (s.names kind).names ++ (s.making styles).flatMap (Making.namesOf kind) := by
  cases h : (s.generate styles).result with
  | error e =>
    obtain ⟨g, hs, -⟩ := generate_error h
    rw [making_of_error h, hs]
    cases kind <;> simp [names]
  | ok made =>
    rw [making_of_ok h, List.flatMap_singleton, Making.namesOf]
    cases styles with
    | tags rules => simp [StyleSection.nameKind?, generate, generateTags]
    | classes rules =>
      simp only [StyleSection.nameKind?, Option.some.injEq]
      exact names_generateNamed h kind
    | animations frames =>
      simp only [StyleSection.nameKind?, Option.some.injEq]
      exact names_generateNamed h kind

/-- Sections created in turn register the names of their makings in turn. -/
theorem names_createAll (s : Session) (sections : List StyleSection) (kind : NameKind) :
    ((s.createAll sections).session.names kind).names =
      (s.names kind).names ++ (s.makingsOfAll sections).flatMap (Making.namesOf kind) := by
  induction sections generalizing s with
  | nil => simp [createAll, makingsOfAll, Outcome.ok]
  | cons styles rest ih =>
    have first : ((s.create styles).session.names kind).names =
        (s.names kind).names ++ (s.making styles).flatMap (Making.namesOf kind) := by
      rw [names_create, names_generate]
    rw [makingsOfAll, List.flatMap_append]
    -- an error ends the creating and the makings alike
    cases h : (s.create styles).result with
    | error e =>
      rw [(createAll_cons_of_error h rest).2, first, List.flatMap_nil, List.append_nil]
    | ok names => rw [(createAll_cons_of_ok h rest).2, ih, first, List.append_assoc]

/-- Options set are no matter of the registries. -/
theorem names_setOptions (s : Session) (u : Options.Update) (kind : NameKind) :
    (s.setOptions u).session.names kind = s.names kind := by
  cases kind <;> rfl

/-- Options set unless they are empty are no matter of the registries. -/
theorem names_setOptionsIfAny (s : Session) (u : Options.Update) (kind : NameKind) :
    (s.setOptionsIfAny u).session.names kind = s.names kind := by
  rw [setOptionsIfAny]
  split
  · rfl
  · exact names_setOptions s u kind

/-- A call records the names that it has issued, and only these. -/
theorem names_perform (s : Session) (call : Call) (kind : NameKind) :
    ((s.perform call).session.names kind).names =
      (s.names kind).names ++ (s.makings call).flatMap (Making.namesOf kind) := by
  cases call with
  | setOptions u => simp [perform, makings, Call.sections, names_setOptions]
  | setOptionsJson value =>
    simp only [perform, Outcome.session_map, makings, Call.sections, List.flatMap_nil,
      List.append_nil, setOptionsJson]
    cases h : Options.Update.ofValue value with
    | error e => rfl
    | ok u => exact congrArg Registry.names (names_setOptions s u kind)
  | generate styles =>
    simpa [perform, makings, Call.sections] using names_generate s styles kind
  | create styles =>
    simpa [perform, makings, Call.sections, names_create] using names_generate s styles kind
  | generateJson which value =>
    -- what is not a section fails before anything is made; a section is made as if it were given
    simp only [perform_generateJson, makings, Call.sections]
    cases StyleSection.ofJson? value which with
    | none => simp [Outcome.fail]
    | some styles => simpa [perform] using names_generate s styles kind
  | createJson which value =>
    simp only [perform_createJson, makings, Call.sections]
    cases StyleSection.ofJson? value which with
    | none => simp [Outcome.fail]
    | some styles => simpa [perform, names_create] using names_generate s styles kind
  | compileDocument d overrides =>
    simp only [perform, Outcome.session_map, makings]
    cases h : documentOptions d overrides with
    | error e =>
      rw [compileDocument_of_bad_options h]
      simp [Outcome.fail]
    | ok u => rw [(compileDocument_of_options h).2, names_createAll, names_setOptionsIfAny]

/-- After any calls the registries hold what they held before and then the names issued. -/
theorem names_after (s : Session) (calls : List Call) (kind : NameKind) :
    ((s.after calls).names kind).names = (s.names kind).names ++ s.issuedNames kind calls := by
  induction calls generalizing s with
  | nil => simp [issuedNames, history]
  | cons call rest ih =>
    rw [after_cons, ih, names_perform, issuedNames, issuedNames, history, List.flatMap_append,
      List.append_assoc]

/-- A new session has issued no names, whatever options it was started with. -/
theorem names_start {sink : Option Sink} {g : Generator} {u : Option Options.Update}
    (h : start sink g u = .ok s) (kind : NameKind) : (s.names kind).names = [] := by
  cases sink with
  | none => simp [start] at h
  | some sink =>
    cases u with
    | none => cases h; cases kind <;> rfl
    | some u => cases h; cases kind <;> rfl

/-- A run of a new session records the names that it issues and nothing else. -/
theorem names_after_start {sink : Option Sink} {g : Generator} {u : Option Options.Update}
    (h : start sink g u = .ok s) (calls : List Call) (kind : NameKind) :
    ((s.after calls).names kind).names = s.issuedNames kind calls := by
  rw [names_after, names_start h, List.nil_append]

/-- No name is issued twice in a run of a new session. -/
theorem nodup_issuedNames {sink : Option Sink} {g : Generator} {u : Option Options.Update}
    (h : start sink g u = .ok s) (kind : NameKind) (calls : List Call) :
    (s.issuedNames kind calls).Nodup := by
  rw [← names_after_start h calls]
  exact ((s.after calls).names kind).nodup

/-! ## Replies -/

/-- A table of names **fits** a section if it has a name for each key of the section, in order, that
is named after the key as the options want it. -/
def NamesFit (o : Options) (table : Table String) (styles : StyleSection) : Prop :=
  Table.keys table = styles.namedKeys ∧
    ∀ issued ∈ table, NamedAfter o.obfuscate issued.1 issued.2

/-- The names handed out for entries stand for their keys, each named after its key. -/
theorem namesFit_generateNamed {α : Type} {made : Generated} {kind : NameKind} {w : EntryWriter α}
    {entries : Table α} (h : (s.generateNamed kind w entries).result = .ok made) :
    Table.keys made.names = Table.keys entries ∧
      ∀ issued ∈ made.names, NamedAfter s.options.obfuscate issued.1 issued.2 := by
  obtain ⟨css, r, g, completes, -, -⟩ := generateNamed_ok h
  exact ⟨completes.keys, completes.namedAfter⟩

/-- The names issued for a section that has been made fit it. -/
theorem namesFit_generate {made : Generated} (h : (s.generate styles).result = .ok made) :
    NamesFit s.options made.names styles := by
  cases styles with
  | tags rules =>
    obtain ⟨css, -, rfl⟩ := Result.map_eq_ok.1 h
    exact ⟨rfl, by simp⟩
  | classes rules => exact namesFit_generateNamed h
  | animations frames => exact namesFit_generateNamed h

/-- In a run all names fit the sections that they were issued for. -/
theorem namesFit_of_mem_history {calls : List Call} {m : Making} (h : m ∈ s.history calls) :
    NamesFit m.options m.made.names m.styles := by
  obtain ⟨t, styles, h⟩ := exists_of_mem_history h
  obtain ⟨made, hmade, rfl⟩ := mem_making.1 h
  exact namesFit_generate hmade

/-- Name tables **account for** sections and their makings: there is one for each section, in order,
that fits the section and has the names of its making. -/
structure Account (o : Options) (sections : List StyleSection) (tables : List (Table String))
    (makings : List Making) : Prop where
  fits : List.Forall₂ (NamesFit o) tables sections
  makings_eq : makings.map (fun m => (m.styles, m.made.names)) = sections.zip tables

/-- Without sections there is nothing to account for. -/
theorem Account.nil (o : Options) : Account o [] [] [] := ⟨.nil, rfl⟩

/-- The names of a section that has been made account for it, in front of others. -/
theorem Account.cons {made : Generated} {sections : List StyleSection}
    {tables : List (Table String)} {makings : List Making}
    (hmade : (s.generate styles).result = .ok made)
    (later : Account s.options sections tables makings) :
    Account s.options (styles :: sections) (made.names :: tables)
      (s.making styles ++ makings) := by
  refine ⟨.cons (namesFit_generate hmade) later.fits, ?_⟩
  rw [making_of_ok hmade, List.map_append, later.makings_eq]
  rfl

/-- A section that has been created has been made. -/
theorem generate_ok_of_create {names : Table String} (h : (s.create styles).result = .ok names) :
    ∃ made, (s.generate styles).result = .ok made ∧ made.names = names := by
  cases hg : (s.generate styles).result with
  | error e => simp [(create_of_generate_error hg).1] at h
  | ok made =>
    rw [(create_of_generate_ok hg).1] at h
    exact ⟨made, rfl, Except.ok.inj h⟩

/-- Sections created one after another have been made one after another. -/
theorem createAll_ok {sections : List StyleSection} {tables : List (Table String)}
    (h : (s.createAll sections).result = .ok tables) :
    Account s.options sections tables (s.makingsOfAll sections) ∧
      (s.createAll sections).session.options = s.options := by
  induction sections generalizing s tables with
  | nil =>
    simp only [createAll, Outcome.ok, Except.ok.injEq] at h
    subst h
    exact ⟨.nil s.options, rfl⟩
  | cons styles rest ih =>
    obtain ⟨names, later, created, hlater, rfl⟩ := exists_of_createAll_cons_ok h
    obtain ⟨made, hmade, rfl⟩ := generate_ok_of_create created
    -- the rest is created in a session with the same options
    obtain ⟨account, options_eq⟩ := ih hlater
    rw [options_create] at account options_eq
    rw [(createAll_cons_of_ok created rest).2, makingsOfAll, created]
    exact ⟨.cons hmade account, options_eq⟩

/-- The reply to a document holds the name tables of all its sections, that of the tags being
empty. -/
theorem nameTables_documentNames {o : Options} {d : Document} {tables : List (Table String)}
    (fits : List.Forall₂ (NamesFit o) tables d.compiledSections) :
    (Reply.documentNames (documentNames tables)).nameTables = tables := by
  -- three tables, as there are three sections, and tags have no keys that names are issued for
  obtain _ | ⟨tags, _ | ⟨_, _ | ⟨_, _ | _⟩⟩⟩ := fits
  have no_tags := List.map_eq_nil_iff.1 tags.1
  rw [no_tags]
  rfl

/-- A section made is accounted for. -/
theorem perform_generate_ok {reply : Reply}
    (h : (s.perform (.generate styles)).result = .ok reply) :
    Account (s.perform (.generate styles)).session.options [styles] reply.nameTables
      (s.making styles) := by
  obtain ⟨made, hmade, rfl⟩ := Outcome.exists_of_map_ok h
  have account := Account.cons hmade (.nil _)
  rw [List.append_nil] at account
  rwa [perform, Outcome.session_map, options_generate]

/-- A section created is accounted for. -/
theorem perform_create_ok {reply : Reply}
    (h : (s.perform (.create styles)).result = .ok reply) :
    Account (s.perform (.create styles)).session.options [styles] reply.nameTables
      (s.making styles) := by
  obtain ⟨names, hnames, rfl⟩ := Outcome.exists_of_map_ok h
  obtain ⟨made, hmade, rfl⟩ := generate_ok_of_create hnames
  have account := Account.cons hmade (.nil _)
  rw [List.append_nil] at account
  rwa [perform, Outcome.session_map, options_create]

/-- A document compiled is accounted for, section by section. -/
theorem perform_compileDocument_ok {d : Document} {overrides : Options.Update} {reply : Reply}
    (h : (s.perform (.compileDocument d overrides)).result = .ok reply) :
    Account (s.perform (.compileDocument d overrides)).session.options d.compiledSections
      reply.nameTables (s.makings (.compileDocument d overrides)) := by
  obtain ⟨names, hnames, rfl⟩ := Outcome.exists_of_map_ok h
  obtain ⟨u, tables, hu, htables, rfl, session_eq⟩ := exists_of_compileDocument_ok hnames
  obtain ⟨account, options_eq⟩ := createAll_ok htables
  simp only [perform, Outcome.session_map, makings, hu]
  rw [session_eq, options_eq, nameTables_documentNames account.fits]
  exact account

/-- A successful call returns the names of its makings, which fit its sections. -/
theorem perform_ok {call : Call} {reply : Reply} (h : (s.perform call).result = .ok reply) :
    Account (s.perform call).session.options call.sections reply.nameTables (s.makings call) := by
  -- call by call; a value that is no section would have failed
  cases call with
  | setOptions u =>
    obtain ⟨_, -, rfl⟩ := Outcome.exists_of_map_ok h
    exact .nil _
  | setOptionsJson value =>
    obtain ⟨_, -, rfl⟩ := Outcome.exists_of_map_ok h
    exact .nil _
  | generate styles =>
    simpa only [makings, Call.sections, List.flatMap_singleton] using perform_generate_ok h
  | create styles =>
    simpa only [makings, Call.sections, List.flatMap_singleton] using perform_create_ok h
  | generateJson which value =>
    rw [perform_generateJson] at h ⊢
    simp only [makings, Call.sections]
    cases hstyles : StyleSection.ofJson? value which with
    | none => simp [hstyles, Outcome.fail] at h
    | some styles =>
      simp only [hstyles] at h
      simpa using perform_generate_ok h
  | createJson which value =>
    rw [perform_createJson] at h ⊢
    simp only [makings, Call.sections]
    cases hstyles : StyleSection.ofJson? value which with
    | none => simp [hstyles, Outcome.fail] at h
    | some styles =>
      simp only [hstyles] at h
      simpa using perform_create_ok h
  | compileDocument d overrides => exact perform_compileDocument_ok h

/-- Of sections that are created one after another, the first ones are made. -/
theorem styles_makingsOfAll (s : Session) (sections : List StyleSection) :
    (s.makingsOfAll sections).map Making.styles <+: sections := by
  induction sections generalizing s with
  | nil => exact List.prefix_rfl
  | cons styles rest ih =>
    rw [makingsOfAll]
    -- the sections behind the first one that fails are not made
    cases hg : (s.generate styles).result with
    | error e => simp [making_of_error hg, (create_of_generate_error hg).1]
    | ok made =>
      rw [making_of_ok hg, (create_of_generate_ok hg).1]
      exact List.prefix_cons_inj styles |>.2 (ih _)

/-- A failed call has made nothing, unless it is a document, which has made its first sections. -/
theorem perform_error {call : Call} {e : Error} (h : (s.perform call).result = .error e) :
    s.makings call = [] ∨ ∃ d overrides, call = .compileDocument d overrides ∧
      (s.makings call).map Making.styles <+: d.compiledSections := by
  -- a call for one section makes it or nothing; only a document can fail halfway
  have failed {styles : StyleSection} (h : (s.generate styles).result = .error e) :
      [styles].flatMap s.making = [] := by
    rw [List.flatMap_singleton, making_of_error h]
  cases call with
  | setOptions u => exact .inl rfl
  | setOptionsJson value => exact .inl rfl
  | generate styles => exact .inl (failed (Outcome.error_of_map_error h))
  | create styles =>
    exact .inl (failed (generate_error_of_create (Outcome.error_of_map_error h)))
  | generateJson which value =>
    simp only [perform_generateJson, makings, Call.sections] at h ⊢
    cases hstyles : StyleSection.ofJson? value which with
    | none => exact .inl rfl
    | some styles =>
      simp only [hstyles] at h
      exact .inl (failed (Outcome.error_of_map_error h))
  | createJson which value =>
    simp only [perform_createJson, makings, Call.sections] at h ⊢
    cases hstyles : StyleSection.ofJson? value which with
    | none => exact .inl rfl
    | some styles =>
      simp only [hstyles] at h
      exact .inl (failed (generate_error_of_create (Outcome.error_of_map_error h)))
  | compileDocument d overrides =>
    refine .inr ⟨d, overrides, rfl, ?_⟩
    rw [makings]
    split
    · exact styles_makingsOfAll ..
    · exact List.nil_prefix

end Session

end StyleTree
