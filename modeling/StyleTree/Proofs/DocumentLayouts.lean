import StyleTree.Proofs.Deliveries
import StyleTree.Proofs.MinifiedSessions

/-! # Layouts of a document

A document is compiled in two new sessions, in the first one as it is and in the second one with
minifying on top of its options. Names, letters and errors are the same, whatever the document says.
If it does not turn minifying on itself and no string in it has a line feed, the second sheet is the
minified first.

* **`Document.update`** is what a document sets itself.
* **`Session.compileDocument_minifying`** compares the two sessions. -/

namespace StyleTree

namespace Document

/-- The update that a document itself asks for, if its options can be read. -/
def update (d : Document) : Except Error Options.Update :=
  match d.options with
  | none => .ok .empty
  | some value => Options.Update.ofValue value

/-- A document **turns minifying on** if its own options do. -/
def TurnsMinifyingOn (d : Document) : Prop := ∃ u, d.update = .ok u ∧ u.minify = some true

/-- No string of a document has a line feed, neither in its options nor in its sections. -/
def NoLineFeed (d : Document) : Prop :=
  (∀ u, d.update = .ok u → u.NoLineFeed) ∧ ∀ styles ∈ d.compiledSections, styles.NoLineFeed

end Document

/-- The update that turns minifying on. -/
def Options.Update.minifying : Options.Update := { minify := some true }

namespace Options.Update

variable {u : Options.Update}

/-- Minifying on top of an update changes nothing else about it. -/
theorem apply_merge_minifying (o : Options) (u : Options.Update) :
    o.apply (u.merge minifying) = { o.apply u with minify := true } :=
  Options.apply_merge o u minifying

/-- Turning minifying on once more changes nothing. -/
theorem merge_minifying_of_on (on : u.minify = some true) : u.merge minifying = u := by
  obtain ⟨_, _, _, _⟩ := u
  obtain rfl : _ = some true := on
  rfl

end Options.Update

namespace Session

variable {d : Document} {u : Options.Update}

/-- Overriding options come on top of those that a document sets. -/
theorem documentOptions_eq_map (d : Document) (overrides : Options.Update) :
    documentOptions d overrides = d.update.map fun u => u.merge overrides := by
  rw [documentOptions, Document.update]
  cases d.options <;> rfl

/-- Setting options changes the options and the mark that they were set, and nothing else. -/
theorem session_setOptionsIfAny (s : Session) (u : Options.Update) :
    ∃ set, (s.setOptionsIfAny u).session =
      { s with options := s.options.apply u, optionsSet := set } := by
  unfold setOptionsIfAny
  split
  · next nothing =>
    obtain rfl := Options.Update.isEmpty_iff.1 nothing
    exact ⟨s.optionsSet, rfl⟩
  · exact ⟨true, rfl⟩

/-- A sheet in memory stays one. -/
theorem exists_sheet_compileDocument {s : Session} {text : String} (h : s.sink = .sheet text)
    (d : Document) (overrides : Options.Update) :
    ∃ css, (s.compileDocument d overrides).session.sink = .sheet css := by
  have sink_eq := sink_after s [.compileDocument d overrides]
  rw [h, Sink.appendAll_sheet] at sink_eq
  exact ⟨_, sink_eq⟩

/-- New sessions have layouts apart once only the second one has been told to minify. -/
theorem layoutsApart_new (g : Generator) (off : u.minify ≠ some true) :
    ((new (.sheet "") g).setOptionsIfAny u).session.LayoutsApart
      ((new (.sheet "") g).setOptionsIfAny (u.merge .minifying)).session := by
  obtain ⟨set, session_eq⟩ := session_setOptionsIfAny (new (.sheet "") g) u
  obtain ⟨set', minified_eq⟩ := session_setOptionsIfAny (new (.sheet "") g) (u.merge .minifying)
  rw [session_eq, minified_eq]
  refine ⟨?_, Options.Update.apply_merge_minifying _ u, rfl, rfl, rfl, "", "", rfl, rfl, id⟩
  show u.minify.getD false = false
  match u.minify, off with
  | none, _ => rfl
  | some false, _ => rfl
  | some true, off => exact absurd rfl off

/-- They are twins if the update brings in no line feed. -/
theorem twins_new (g : Generator) (off : u.minify ≠ some true) (hu : u.NoLineFeed) :
    ((new (.sheet "") g).setOptionsIfAny u).session.Twins
      ((new (.sheet "") g).setOptionsIfAny (u.merge .minifying)).session := by
  obtain ⟨set, session_eq⟩ := session_setOptionsIfAny (new (.sheet "") g) u
  obtain ⟨set', minified_eq⟩ := session_setOptionsIfAny (new (.sheet "") g) (u.merge .minifying)
  have fresh : ({} : Options).NoLineFeed := by decide
  refine { layoutsApart_new g off with noLineFeed := ?_, sheets := ?_ }
  · rw [session_eq]
    exact fresh.apply hu
  · rw [session_eq, minified_eq]
    exact ⟨"", closedText_empty, rfl, rfl⟩

/-- A document in two new sessions, in the second one with minifying on top. Both return the same,
and the second sheet is empty if the first one is. If the document leaves minifying to others and no
string in it has a line feed, the second sheet is the minified first. -/
theorem compileDocument_minifying (d : Document) (g : Generator) :
    let plain := (new (.sheet "") g).compileDocument d .empty
    let minified := (new (.sheet "") g).compileDocument d .minifying
    minified.result = plain.result ∧
      ∃ css css', plain.session.sink = .sheet css ∧ minified.session.sink = .sheet css' ∧
        (css = "" → css' = "") ∧ (¬ d.TurnsMinifyingOn → d.NoLineFeed → css' = minify css) := by
  intro plain minified
  have plain_options := documentOptions_eq_map d .empty
  have minified_options := documentOptions_eq_map d .minifying
  cases hu : d.update with
  | error e =>
    -- the options of the document cannot be read, so nothing is compiled
    rw [hu] at plain_options minified_options
    simp only [plain, minified, compileDocument_of_bad_options plain_options,
      compileDocument_of_bad_options minified_options]
    exact ⟨trivial, "", "", rfl, rfl, id, fun _ _ => rfl⟩
  | ok u =>
    rw [hu, Except.map, Options.Update.merge_empty] at plain_options
    rw [hu, Except.map] at minified_options
    by_cases on : u.minify = some true
    · -- minifying is on in both sessions
      rw [Options.Update.merge_minifying_of_on on] at minified_options
      have same : minified = plain := by
        simp only [minified, plain, compileDocument, minified_options, plain_options]
      obtain ⟨css, sheet⟩ := exists_sheet_compileDocument (s := new (.sheet "") g) rfl d .empty
      rw [same]
      exact ⟨rfl, css, css, sheet, sheet, id, fun off => absurd ⟨u, hu, on⟩ off⟩
    · -- the document leaves minifying off, so the sessions run with their layouts apart
      obtain ⟨plain_result, plain_session⟩ :=
        compileDocument_of_options (s := new (.sheet "") g) plain_options
      obtain ⟨minified_result, minified_session⟩ :=
        compileDocument_of_options (s := new (.sheet "") g) minified_options
      have created : ∀ styles ∈ d.compiledSections, ∀ s t : Session, s.LayoutsApart t →
          (t.create styles).result = (s.create styles).result ∧
            (s.create styles).session.LayoutsApart (t.create styles).session :=
        fun styles _ _ _ apart => apart.create styles
      obtain ⟨result_eq, sessions⟩ := createAll_related created (layoutsApart_new g on)
      obtain ⟨css, css', sheet, sheet', empty⟩ := sessions.sheets
      refine ⟨?_, css, css', ?_, ?_, empty, fun _ noLineFeed => ?_⟩
      · simp only [minified, plain, minified_result, plain_result, Outcome.result_map, result_eq]
      · simp only [plain, plain_session, sheet]
      · simp only [minified, minified_session, sheet']
      · -- nothing in the sections can confuse the layout
        obtain ⟨-, twins⟩ := createAll_related
          (fun styles hstyles _ _ twins => Twins.create twins (noLineFeed.2 styles hstyles))
          (twins_new g on (noLineFeed.1 u hu))
        obtain ⟨closed, -, sheet_eq, sheet_eq'⟩ := twins.sheets
        rw [sheet] at sheet_eq
        rw [sheet'] at sheet_eq'
        cases sheet_eq
        cases sheet_eq'
        rfl

end Session

end StyleTree
