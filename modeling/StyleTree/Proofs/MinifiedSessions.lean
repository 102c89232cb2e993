import Mathlib.Data.List.Forall2
import StyleTree.Proofs.ReceivedText
import StyleTree.Proofs.SectionTexts

/-! # Minified sessions

Two sessions get the same calls, and only one of them minifies. They issue the same names, draw the
same letters and fail alike, and what the one has written is the minified text of the other,
although it has minified its text piece by piece.

* **`Session.LayoutsApart`** is the relation between two such sessions whatever the layout does to
  the text, and **`Session.Twins`** the one between two whose sheets the layout cannot confuse.
* **`Call.LeavesLayout`** says which calls keep it: those that do not set whether text is minified
  and hold no line feed.
* **`Session.Twins.perform`** is one call, and **`minify_changes_only_layout`** a whole run. -/

namespace StyleTree

/-! ## Replies -/

/-- What has been made, minified. -/
def Generated.minified (made : Generated) : Generated := { made with css := minify made.css }

/-- A reply with its text minified, if it has one. -/
def Reply.minified : Reply → Reply
  | .generated made => .generated made.minified
  | .done => .done
  | .names issued => .names issued
  | .documentNames issued => .documentNames issued

/-- Replies without text are the same when they are minified. -/
theorem Outcome.result_map_minified {α : Type} {o o' : Outcome α} {f : α → Reply}
    (fixed : ∀ a, (f a).minified = f a) (result_eq : o'.result = o.result) :
    (o'.map f).result = (o.map f).result.map Reply.minified := by
  rw [result_map, result_map, result_eq]
  cases o.result with
  | error e => rfl
  | ok a => simp only [Except.map, fixed]

/-! ## Calls that leave the layout alone -/

/-- An update brings in no line feed if no vendor prefix that it sets has one. -/
def Options.Update.NoLineFeed (u : Options.Update) : Prop :=
  ∀ table ∈ u.vendorPrefixes, ∀ entry ∈ table, ∀ token ∈ entry.2, StyleTree.NoLineFeed token

instance : DecidablePred Options.Update.NoLineFeed := fun u =>
  inferInstanceAs (Decidable (∀ table ∈ u.vendorPrefixes, _))

/-- An update **leaves the layout** alone if it does not set whether text is minified and brings in
no line feed. -/
def Options.Update.LeavesLayout (u : Options.Update) : Prop :=
  u.minify = none ∧ u.NoLineFeed

instance : DecidablePred Options.Update.LeavesLayout := fun u =>
  inferInstanceAs (Decidable (u.minify = none ∧ u.NoLineFeed))

/-- A call **leaves the layout** alone if it does not set whether text is minified and has no string
with a line feed. What is given in JSON is looked at as it is read; what cannot be read is
harmless. -/
def Call.LeavesLayout : Call → Prop
  | .setOptions u => u.LeavesLayout
  | .setOptionsJson value => ∀ u, Options.Update.ofValue value = .ok u → u.LeavesLayout
  | .generate styles => styles.NoLineFeed
  | .create styles => styles.NoLineFeed
  | .generateJson kind value =>
    ∀ styles, StyleSection.ofJson? value kind = some styles → styles.NoLineFeed
  | .createJson kind value =>
    ∀ styles, StyleSection.ofJson? value kind = some styles → styles.NoLineFeed
  | .compileDocument d overrides =>
    (∀ value ∈ d.options, ∀ u, Options.Update.ofValue value = .ok u → u.LeavesLayout) ∧
      overrides.LeavesLayout ∧ ∀ styles ∈ d.compiledSections, styles.NoLineFeed

namespace Options

variable {o : Options} {u overrides : Update}

/-- Options stay free of line feeds under an update that is. -/
theorem NoLineFeed.apply (ho : o.NoLineFeed) (hu : u.NoLineFeed) : (o.apply u).NoLineFeed := by
  cases table : u.vendorPrefixes with
  | none => simpa [Options.NoLineFeed, Options.apply, table] using ho
  | some prefixes => simpa [Options.NoLineFeed, Options.apply, table] using hu prefixes table

/-- Two updates that leave the layout alone do so together. -/
theorem Update.LeavesLayout.merge (hu : u.LeavesLayout) (hoverrides : overrides.LeavesLayout) :
    (u.merge overrides).LeavesLayout := by
  refine ⟨by simp [Update.merge, hu.1, hoverrides.1], ?_⟩
  intro table htable
  rcases Option.or_eq_some_iff.1 htable with set | ⟨-, set⟩
  · exact hoverrides.2 table set
  · exact hu.2 table set

/-- The empty update leaves the layout alone. -/
theorem Update.leavesLayout_empty : Update.empty.LeavesLayout := by decide

/-- The options that a document sets leave the layout alone if its own and the overriding ones
do. -/
theorem leavesLayout_documentOptions {d : Document}
    (hoptions : ∀ value ∈ d.options, ∀ u, Update.ofValue value = .ok u → u.LeavesLayout)
    (hoverrides : overrides.LeavesLayout)
    (h : Session.documentOptions d overrides = .ok u) : u.LeavesLayout := by
  unfold Session.documentOptions at h
  cases hd : d.options with
  | none =>
    simp only [hd, Except.ok.injEq] at h
    exact h ▸ Update.leavesLayout_empty.merge hoverrides
  | some value =>
    simp only [hd] at h
    obtain ⟨first, hfirst, rfl⟩ := Result.map_eq_ok.1 h
    exact (hoptions value hd first hfirst).merge hoverrides

end Options

namespace Session

variable {α : Type} {s t : Session} {styles : StyleSection} {u : Options.Update}

/-! ## Layouts apart -/

/-- A sheet is longer by a piece of text, even by one that is not given to it. -/
theorem session_append_of_sheet {css : String} (h : s.sink = .sheet css) (made : Generated) :
    (s.append made).session = { s with sink := .sheet (css ++ made.css) } := by
  unfold Session.append
  split
  · next nothing => rw [nothing, String.append_empty, ← h, Outcome.ok]
  · rw [h, Sink.append_sheet]

/-- Two sessions are the same with **layouts apart** if the second one minifies and the first one
does not, and they agree in all else, whether options have been set apart. Of their sheets only this
much is said, that the second one is empty if the first one is. -/
structure LayoutsApart (s t : Session) : Prop where
  unminified : s.options.minify = false
  options_eq : t.options = { s.options with minify := true }
  classNames_eq : t.classNames = s.classNames
  animationNames_eq : t.animationNames = s.animationNames
  generator_eq : t.generator = s.generator
  sheets : ∃ css css', s.sink = .sheet css ∧ t.sink = .sheet css' ∧ (css = "" → css' = "")

namespace LayoutsApart

/-- The layout is no matter of the style. -/
theorem styleAlike (h : s.LayoutsApart t) : s.options.StyleAlike t.options := by
  rw [h.options_eq]
  exact ⟨rfl, rfl⟩

/-- The registries are the same. -/
theorem names_eq (h : s.LayoutsApart t) (kind : NameKind) : t.names kind = s.names kind := by
  cases kind
  · exact h.classNames_eq
  · exact h.animationNames_eq

/-- The first session keeps a text as it is, the second one minifies it. -/
theorem finish_eq (h : s.LayoutsApart t) (css : String) :
    finish s.options css = css ∧ finish t.options css = minify css := by
  rw [finish, finish, h.options_eq, h.unminified]
  exact ⟨rfl, rfl⟩

/-- Letters drawn alike leave the layouts apart. -/
theorem draw (h : s.LayoutsApart t) (g : Generator) :
    LayoutsApart { s with generator := g } { t with generator := g } :=
  { h with generator_eq := rfl }

/-- Names registered alike leave the layouts apart. -/
theorem setNames (h : s.LayoutsApart t) (kind : NameKind) (names : Registry) :
    (s.setNames kind names).LayoutsApart (t.setNames kind names) := by
  cases kind
  · exact { h with classNames_eq := rfl }
  · exact { h with animationNames_eq := rfl }

/-- Named entries come out alike, but minified in the second session. -/
theorem generateNamed (h : s.LayoutsApart t) {kind : NameKind} {w w' : EntryWriter α}
    (text_eq : w'.text = w.text) (entries : Table α) :
    (t.generateNamed kind w' entries).result =
        (s.generateNamed kind w entries).result.map Generated.minified ∧
      (s.generateNamed kind w entries).session.LayoutsApart
        (t.generateNamed kind w' entries).session := by
  have obfuscate_eq : t.options.obfuscate = s.options.obfuscate := by rw [h.options_eq]
  obtain ⟨result_eq, generator_eq⟩ := Batch.run_of_text_eq text_eq s.options.obfuscate
    ((s.names kind).reserve kind) s.generator entries
  simp only [Session.generateNamed, obfuscate_eq, h.names_eq, h.generator_eq, result_eq,
    generator_eq]
  cases (Batch.run w s.options.obfuscate ((s.names kind).reserve kind) s.generator
      entries).result with
  | error e => exact ⟨rfl, h.draw _⟩
  | ok made =>
    refine ⟨?_, (h.draw _).setNames kind made.2.commit⟩
    simp only [(h.finish_eq _).1, (h.finish_eq _).2]
    rfl

/-- Sessions with layouts apart make the same of a section, apart from the layout. -/
theorem generate (h : s.LayoutsApart t) (styles : StyleSection) :
    (t.generate styles).result = (s.generate styles).result.map Generated.minified ∧
      (s.generate styles).session.LayoutsApart (t.generate styles).session := by
  cases styles with
  | tags rules =>
    refine ⟨?_, h⟩
    simp only [Session.generate, generateTags, rulesText_alike h.styleAlike]
    cases rulesText s.options 0 rules with
    | error e => rfl
    | ok css =>
      simp only [Except.map, (h.finish_eq css).1, (h.finish_eq css).2]
      rfl
  | classes rules => exact h.generateNamed (classText_alike h.styleAlike) rules
  | animations frames => exact h.generateNamed (keyframesText_alike h.styleAlike) frames

/-- A text appended as each session has it leaves the layouts apart. -/
theorem append (h : s.LayoutsApart t) (made : Generated) :
    (s.append made).session.LayoutsApart (t.append made.minified).session := by
  obtain ⟨css, css', sink_s, sink_t, empty⟩ := h.sheets
  rw [session_append_of_sheet sink_s, session_append_of_sheet sink_t]
  refine { h with sheets := ⟨css ++ made.css, css' ++ made.minified.css, rfl, rfl, ?_⟩ }
  rw [String.append_eq_empty_iff]
  rintro ⟨nothing, made_nothing⟩
  rw [empty nothing, Generated.minified, made_nothing]
  rfl

/-- A section gets the same answer in both sessions and leaves the layouts apart. -/
theorem create (h : s.LayoutsApart t) (styles : StyleSection) :
    (t.create styles).result = (s.create styles).result ∧
      (s.create styles).session.LayoutsApart (t.create styles).session := by
  obtain ⟨result_eq, sessions⟩ := h.generate styles
  have names_eq (made : Generated) : made.minified.names = made.names := rfl
  exact create_related names_eq result_eq sessions fun made _ => sessions.append made

end LayoutsApart

/-! ## Twins -/

/-- Two sessions are **twins** if the second one minifies and the first one does not, they agree in
all else, whether options have been set apart, and the second sheet is the minified first. What
comes next can be minified on its own, for the options bring in no line feed and the sheet is
closed. -/
structure Twins (s t : Session) : Prop where
  unminified : s.options.minify = false
  options_eq : t.options = { s.options with minify := true }
  classNames_eq : t.classNames = s.classNames
  animationNames_eq : t.animationNames = s.animationNames
  generator_eq : t.generator = s.generator
  noLineFeed : s.options.NoLineFeed
  sheets : ∃ css, ClosedText css ∧ s.sink = .sheet css ∧ t.sink = .sheet (minify css)

namespace Twins

/-- Twins have their layouts apart. -/
theorem layoutsApart (h : s.Twins t) : s.LayoutsApart t := by
  obtain ⟨css, -, sink_s, sink_t⟩ := h.sheets
  refine { h with sheets := ⟨css, minify css, sink_s, sink_t, ?_⟩ }
  rintro rfl
  rfl

/-! ## Making sections -/

/-- Twins make the same of a section, apart from the layout. -/
theorem generate (h : s.Twins t) (styles : StyleSection) :
    (t.generate styles).result = (s.generate styles).result.map Generated.minified ∧
      (s.generate styles).session.Twins (t.generate styles).session := by
  obtain ⟨result_eq, apart⟩ := h.layoutsApart.generate styles
  refine ⟨result_eq, { apart with noLineFeed := ?_, sheets := ?_ }⟩
  · rw [options_generate]
    exact h.noLineFeed
  · rw [sink_generate, sink_generate]
    exact h.sheets

/-- What is made of named entries without a line feed has closed lines. -/
theorem closedText_generateNamed (h : s.Twins t) {kind : NameKind} {w : EntryWriter α}
    {fits : α → Prop} {entries : Table α} {made : Generated}
    (written : ∀ name entry css, NoLineFeed name → fits entry → w.text name entry = .ok css →
      ClosedText css)
    (hentries : ∀ entry ∈ entries, NoLineFeed entry.1 ∧ fits entry.2)
    (hmade : (s.generateNamed kind w entries).result = .ok made) : ClosedText made.css := by
  obtain ⟨css, r, g, completes, css_eq, -⟩ := generateNamed_ok hmade
  rw [css_eq, (h.layoutsApart.finish_eq css).1]
  exact completes.closedText written hentries

/-- What is made of a section without line feeds is closed as long as it is not minified. -/
theorem closedText_generate (h : s.Twins t) (hstyles : styles.NoLineFeed) {made : Generated}
    (hmade : (s.generate styles).result = .ok made) : ClosedText made.css := by
  cases styles with
  | tags rules =>
    obtain ⟨css, hcss, rfl⟩ := Result.map_eq_ok.1 hmade
    rw [(h.layoutsApart.finish_eq css).1]
    exact closedText_rulesText h.noLineFeed hstyles hcss
  | classes rules =>
    exact h.closedText_generateNamed (fun _ _ _ => closedText_classText h.noLineFeed) hstyles hmade
  | animations frames =>
    exact h.closedText_generateNamed (fun _ _ _ => closedText_keyframesText h.noLineFeed) hstyles
      hmade

/-! ## Appending -/

/-- Twins stay twins where the text appended has closed lines. -/
theorem append (h : s.Twins t) {made : Generated} (hmade : ClosedText made.css) :
    (s.append made).session.Twins (t.append made.minified).session := by
  obtain ⟨css, closed, sink_s, sink_t⟩ := h.sheets
  rw [session_append_of_sheet sink_s, session_append_of_sheet sink_t]
  refine { h with sheets := ⟨css ++ made.css, closed.append hmade, rfl, ?_⟩ }
  rw [minify_append closed]
  rfl

/-- A section without a line feed leaves twins behind. -/
theorem create (h : s.Twins t) (hstyles : styles.NoLineFeed) :
    (t.create styles).result = (s.create styles).result ∧
      (s.create styles).session.Twins (t.create styles).session := by
  obtain ⟨result_eq, sessions⟩ := h.generate styles
  have names_eq (made : Generated) : made.minified.names = made.names := rfl
  exact create_related names_eq result_eq sessions fun made hmade =>
    sessions.append (h.closedText_generate hstyles hmade)

/-! ## Options -/

/-- Twins stay twins under an update that leaves the layout alone. -/
theorem setOptions (h : s.Twins t) (hu : u.LeavesLayout) :
    (s.setOptions u).session.Twins (t.setOptions u).session := by
  refine { h with
    unminified := ?_, options_eq := ?_, noLineFeed := h.noLineFeed.apply hu.2 }
  · rw [Session.setOptions, Options.apply, hu.1]
    exact h.unminified
  · rw [Session.setOptions, Session.setOptions, h.options_eq, Options.apply, Options.apply, hu.1]
    rfl

/-- Twins stay twins under an update that leaves the layout alone, set unless it is empty. -/
theorem setOptionsIfAny (h : s.Twins t) (hu : u.LeavesLayout) :
    (s.setOptionsIfAny u).session.Twins (t.setOptionsIfAny u).session := by
  unfold Session.setOptionsIfAny
  split
  · exact h
  · exact h.setOptions hu

/-- Twins give the same answer to options that are a JSON value, and stay twins. -/
theorem setOptionsJson (h : s.Twins t) {value : Json}
    (hvalue : ∀ u, Options.Update.ofValue value = .ok u → u.LeavesLayout) :
    (t.setOptionsJson value).result = (s.setOptionsJson value).result ∧
      (s.setOptionsJson value).session.Twins (t.setOptionsJson value).session := by
  unfold Session.setOptionsJson
  cases hu : Options.Update.ofValue value with
  | error e => exact ⟨rfl, h⟩
  | ok u => exact ⟨rfl, h.setOptions (hvalue u hu)⟩

/-! ## Calls -/

/-- A document that leaves the layout alone gets the same answer from twins and leaves twins behind.
-/
theorem compileDocument (h : s.Twins t) {d : Document} {overrides : Options.Update}
    (hcall : (Call.compileDocument d overrides).LeavesLayout) :
    (t.compileDocument d overrides).result = (s.compileDocument d overrides).result ∧
      (s.compileDocument d overrides).session.Twins (t.compileDocument d overrides).session := by
  obtain ⟨hoptions, hoverrides, hsections⟩ := hcall
  cases hu : documentOptions d overrides with
  | error e =>
    rw [compileDocument_of_bad_options hu, compileDocument_of_bad_options hu]
    exact ⟨rfl, h⟩
  | ok u =>
    have twins := h.setOptionsIfAny (Options.leavesLayout_documentOptions hoptions hoverrides hu)
    obtain ⟨sections_eq, sections⟩ := createAll_related
      (fun styles hstyles _ _ twins => Twins.create twins (hsections styles hstyles)) twins
    have compiled (s : Session) := compileDocument_of_options (s := s) hu
    rw [(compiled s).1, (compiled s).2, (compiled t).1, (compiled t).2, Outcome.result_map,
      Outcome.result_map, sections_eq]
    exact ⟨rfl, sections⟩

/-- Twins make the same of a section, but minified in the second session. -/
theorem perform_generate (h : s.Twins t) (styles : StyleSection) :
    (t.perform (.generate styles)).result =
        (s.perform (.generate styles)).result.map Reply.minified ∧
      (s.perform (.generate styles)).session.Twins (t.perform (.generate styles)).session := by
  obtain ⟨result_eq, sessions⟩ := h.generate styles
  refine ⟨?_, sessions⟩
  rw [Session.perform, Session.perform, Outcome.result_map, Outcome.result_map, result_eq]
  cases (s.generate styles).result <;> rfl

/-- Twins append the same for a section, but minified in the second session. -/
theorem perform_create (h : s.Twins t) (hstyles : styles.NoLineFeed) :
    (t.perform (.create styles)).result =
        (s.perform (.create styles)).result.map Reply.minified ∧
      (s.perform (.create styles)).session.Twins (t.perform (.create styles)).session := by
  obtain ⟨result_eq, sessions⟩ := h.create hstyles
  exact ⟨Outcome.result_map_minified (fun _ => rfl) result_eq, sessions⟩

/-- One call keeps sessions twins and gives them the same reply, apart from the layout, or the same
error. -/
theorem perform (h : s.Twins t) {call : Call} (hcall : call.LeavesLayout) :
    (t.perform call).result = (s.perform call).result.map Reply.minified ∧
      (s.perform call).session.Twins (t.perform call).session := by
  -- call by call; a value that is no section leaves both sessions as they were
  cases call with
  | setOptions u => exact ⟨rfl, h.setOptions hcall⟩
  | setOptionsJson value =>
    obtain ⟨result_eq, sessions⟩ := h.setOptionsJson hcall
    exact ⟨Outcome.result_map_minified (fun _ => rfl) result_eq, sessions⟩
  | generate styles => exact h.perform_generate styles
  | create styles => exact h.perform_create hcall
  | generateJson kind value =>
    rw [perform_generateJson, perform_generateJson]
    cases hstyles : StyleSection.ofJson? value kind with
    | none => exact ⟨rfl, h⟩
    | some styles => exact h.perform_generate styles
  | createJson kind value =>
    rw [perform_createJson, perform_createJson]
    cases hstyles : StyleSection.ofJson? value kind with
    | none => exact ⟨rfl, h⟩
    | some styles => exact h.perform_create (hcall styles hstyles)
  | compileDocument d overrides =>
    obtain ⟨result_eq, sessions⟩ := h.compileDocument hcall
    exact ⟨Outcome.result_map_minified (fun _ => rfl) result_eq, sessions⟩

/-- Calls one after another. -/
theorem run (h : s.Twins t) {calls : List Call} (hcalls : ∀ call ∈ calls, call.LeavesLayout) :
    List.Forall₂
      (fun plain minified => minified.result = plain.result.map Reply.minified ∧
        plain.session.Twins minified.session)
      (s.run calls) (t.run calls) := by
  induction calls generalizing s t with
  | nil => exact .nil
  | cons call rest ih =>
    obtain ⟨first, others⟩ := List.forall_mem_cons.1 hcalls
    have step := h.perform first
    exact .cons step (ih step.2 others)

end Twins

/-- Sessions that start with the same options, whether text is minified apart, are twins. -/
theorem twins_start {g : Generator} {first second : Option Options.Update}
    (hs : start (some (.sheet "")) g first = .ok s)
    (ht : start (some (.sheet "")) g second = .ok t) (unminified : s.options.minify = false)
    (options_eq : t.options = { s.options with minify := true }) (ho : s.options.NoLineFeed) :
    s.Twins t := by
  have fresh {s : Session} {u : Option Options.Update}
      (h : start (some (.sheet "")) g u = .ok s) :
      s.classNames = .empty ∧ s.animationNames = .empty ∧ s.generator = g ∧
        s.sink = .sheet "" := by
    cases u <;> cases h <;> exact ⟨rfl, rfl, rfl, rfl⟩
  obtain ⟨classes_s, animations_s, generator_s, sink_s⟩ := fresh hs
  obtain ⟨classes_t, animations_t, generator_t, sink_t⟩ := fresh ht
  exact
    { unminified, options_eq
      classNames_eq := classes_t.trans classes_s.symm
      animationNames_eq := animations_t.trans animations_s.symm
      generator_eq := generator_t.trans generator_s.symm
      noLineFeed := ho
      sheets := ⟨"", closedText_empty, sink_s, sink_t⟩ }

end Session

/-- Whether text is minified makes a difference to the layout only. Two sessions that write sheets
in memory start with the same letters to come and the same options, except that the second one
minifies. They get the same calls, which set nothing about that and have no line feed in their
strings. Then every call gives both sessions the same reply, or in the second one its minified text,
or it fails in both with the same error; and after every call the sessions have issued the same
names, have the same letters to come, and the second sheet is the minified first. -/
theorem minify_changes_only_layout {g : Generator} {first second : Option Options.Update}
    {s t : Session} (hs : Session.start (some (.sheet "")) g first = .ok s)
    (ht : Session.start (some (.sheet "")) g second = .ok t)
    (unminified : s.options.minify = false)
    (options_eq : t.options = { s.options with minify := true }) (ho : s.options.NoLineFeed)
    {calls : List Call} (hcalls : ∀ call ∈ calls, call.LeavesLayout) :
    List.Forall₂
      (fun plain minified => minified.result = plain.result.map Reply.minified ∧
        plain.session.Twins minified.session)
      (s.run calls) (t.run calls) :=
  (Session.twins_start hs ht unminified options_eq ho).run hcalls

/-- Classes of which the second one fails, between tags and an animation. -/
theorem minify_changes_only_layout_failing :
    let first : Options.Update := { obfuscate := some false }
    let second : Options.Update := { obfuscate := some false, minify := some true }
    let calls : List Call :=
      [.create (.tags [("p", [("content", .text "\x7b a: b; \x7d")])]),
        .create (.classes [("a", [("color", .text "red")]), ("b", [("hover", .text "red")])]),
        .setOptions { emptyBlocks := some .emit },
        .create (.animations [("spin", [("from", [("top", .text "0")])])]),
        .generate (.classes [("a", [])])]
    ∃ s t, Session.start (some (.sheet "")) (.ofSeed 7) (some first) = .ok s ∧
      Session.start (some (.sheet "")) (.ofSeed 7) (some second) = .ok t ∧
      List.Forall₂
        (fun plain minified => minified.result = plain.result.map Reply.minified ∧
          plain.session.Twins minified.session)
        (s.run calls) (t.run calls) ∧
      (t.after calls).sink =
        .sheet "p\x7bcontent:\x7b a: b; \x7d;\x7d@keyframes spin\x7bfrom\x7btop:0;\x7d\x7d" := by
  intro first second calls
  refine ⟨_, _, rfl, rfl, ?_, by decide +kernel⟩
  refine @minify_changes_only_layout (.ofSeed 7) (some first) (some second) _ _ rfl rfl rfl rfl
    (by decide) calls ?_
  simp only [calls, List.forall_mem_cons, List.not_mem_nil, false_implies, implies_true, and_true,
    Call.LeavesLayout]
  decide +kernel

end StyleTree
