import StyleTree.Proofs.Outcomes

/-! # Failed calls

A call that fails leaves no trace, except in the source of random letters: what was drawn for names
that were given up is gone. Documents are the exception, for they are several calls in one.

* **`Session.OnlyDrawn`** is the relation between the session before and after such a call. -/

namespace StyleTree

namespace Session

/-- At most letters have been **drawn** since a session, and none if no names need them. The options
and whether they were set, both registries and all that the sink has received are as before. -/
structure OnlyDrawn (before after : Session) : Prop where
  options_eq : after.options = before.options
  optionsSet_eq : after.optionsSet = before.optionsSet
  classNames_eq : after.classNames = before.classNames
  animationNames_eq : after.animationNames = before.animationNames
  sink_eq : after.sink = before.sink
  generator_eq : before.options.obfuscate = false → after.generator = before.generator

@[refl] theorem OnlyDrawn.refl (s : Session) : s.OnlyDrawn s :=
  ⟨rfl, rfl, rfl, rfl, rfl, fun _ => rfl⟩

variable {s : Session} {styles : StyleSection} {e : Error}

/-- Making a section that fails has drawn letters at most. -/
theorem onlyDrawn_generate (h : (s.generate styles).result = .error e) :
    s.OnlyDrawn (s.generate styles).session := by
  obtain ⟨g, hs, plain⟩ := generate_error h
  rw [hs]
  exact ⟨rfl, rfl, rfl, rfl, rfl, plain⟩

/-- The text of a section reaches the sink only when nothing can fail any more. -/
theorem onlyDrawn_create (h : (s.create styles).result = .error e) :
    s.OnlyDrawn (s.create styles).session := by
  have hg := generate_error_of_create h
  rw [(create_of_generate_error hg).2]
  exact onlyDrawn_generate hg

/-- Options are set only once they have been read. -/
theorem session_setOptionsJson_of_error {value : Json}
    (h : (s.setOptionsJson value).result = .error e) : (s.setOptionsJson value).session = s := by
  unfold setOptionsJson at h ⊢
  cases hu : Options.Update.ofValue value with
  | error e' => rfl
  | ok u =>
    rw [hu, Outcome.ofExcept_ok, Outcome.andThen_ok] at h
    simp [setOptions] at h

end Session

/-- A call other than a document that fails, for whatever reason, leaves no trace in the session: at
most letters have been drawn, and none if names need no letters. -/
theorem failed_call_leaves_no_trace {s : Session} {call : Call} {e : Error}
    (hcall : ∀ d overrides, call ≠ .compileDocument d overrides)
    (h : (s.perform call).result = .error e) : s.OnlyDrawn (s.perform call).session := by
  cases call with
  | setOptions u => simp [Session.perform, Session.setOptions, Except.map] at h
  | setOptionsJson value =>
    rw [Session.perform, Outcome.session_map,
      Session.session_setOptionsJson_of_error (Outcome.error_of_map_error h)]
  | generate styles => exact Session.onlyDrawn_generate (Outcome.error_of_map_error h)
  | create styles => exact Session.onlyDrawn_create (Outcome.error_of_map_error h)
  | generateJson which value =>
    -- either the value is not a section, and nothing is done, or its section cannot be made
    rw [Session.perform_generateJson] at h ⊢
    cases hstyles : StyleSection.ofJson? value which with
    | none => exact .refl s
    | some styles =>
      simp only [hstyles] at h
      exact Session.onlyDrawn_generate (Outcome.error_of_map_error h)
  | createJson which value =>
    rw [Session.perform_createJson] at h ⊢
    cases hstyles : StyleSection.ofJson? value which with
    | none => exact .refl s
    | some styles =>
      simp only [hstyles] at h
      exact Session.onlyDrawn_create (Outcome.error_of_map_error h)
  | compileDocument d overrides => exact absurd rfl (hcall d overrides)

/-- A batch that fails at its second key. -/
theorem failed_call_leaves_no_trace_taken :
    ∃ s, Session.start (some (.sheet "")) (.ofSeed 7) (some { obfuscate := some false }) = .ok s ∧
      (s.perform (.create (.classes [("b", []), ("b", [])]))).result =
        .error (.nameConflict .styleClass "b") ∧
      s.OnlyDrawn (s.perform (.create (.classes [("b", []), ("b", [])]))).session := by
  refine ⟨_, rfl, rfl, ?_⟩
  exact failed_call_leaves_no_trace (by simp) rfl

end StyleTree
