import StyleTree.Proofs.FailedCalls
import StyleTree.Proofs.Registries

/-! # Documents step by step

A document is compiled as if its parts were asked for one call at a time: options first, then the
overriding options, then each section, up to the first call that fails. Compiling merges the two
changes of options into one, or into none if nothing is set, so only the mark that options have been
set can tell the two ways apart.

* **`Session.Agrees`** is the relation between sessions that differ at most in that mark.
* **`Document.steps`** are the calls, and **`Session.performAll`** carries them out.
* **`compileDocument_eq_steps`** is the main result. -/

namespace StyleTree

/-! ## Chains of calls -/

namespace Outcome

variable {α β γ : Type}

/-- Going on after a changed value is going on after the value. -/
theorem andThen_map (f : α → β) (o : Outcome α) (next : β → Session → Outcome γ) :
    (o.map f).andThen next = o.andThen fun a s => next (f a) s := by
  cases h : o.result <;> simp [andThen, h, map, Except.map]

/-- Returning what there is changes no outcome. -/
@[simp] theorem map_self (o : Outcome α) : (o.map fun a => a) = o := by
  obtain ⟨result, session, events⟩ := o
  cases result <;> rfl

/-- It does not matter which of two continuations is put to a call first. -/
theorem andThen_assoc (o : Outcome α) (next : α → Session → Outcome β)
    (last : β → Session → Outcome γ) :
    (o.andThen next).andThen last = o.andThen fun a s => (next a s).andThen last := by
  cases h : o.result with
  | error e => simp [andThen, h]
  | ok a => cases hnext : (next a o.session).result <;> simp [andThen, h, hnext]

end Outcome

/-- The calls that change the options as a document and overriding options want it. -/
def Document.optionCalls (d : Document) (overrides : Options.Update) : List Call :=
  d.options.toList.map .setOptionsJson ++ [.setOptions overrides]

/-- The calls that compile a document one after another. -/
def Document.steps (d : Document) (overrides : Options.Update) : List Call :=
  d.optionCalls overrides ++ d.compiledSections.map .create

namespace Session

/-- Carry out calls one after another, up to the first error. -/
def performAll (s : Session) : List Call → Outcome (List Reply)
  | [] => Outcome.ok s []
  | call :: rest =>
    (s.perform call).andThen fun reply s => (performAll s rest).map fun later => reply :: later

variable {α : Type} {s t : Session} {styles : StyleSection} {e : Error}

@[simp] theorem performAll_nil (s : Session) : s.performAll [] = Outcome.ok s [] := rfl

/-- Calls go on where those before them have ended. -/
theorem performAll_append (s : Session) (calls later : List Call) :
    s.performAll (calls ++ later) =
      (s.performAll calls).andThen fun replies s =>
        (s.performAll later).map fun others => replies ++ others := by
  induction calls generalizing s with
  | nil =>
    simp only [List.nil_append, performAll_nil, Outcome.andThen_ok, Outcome.map_self]
  | cons call rest ih =>
    simp only [List.cons_append, performAll, ih, Outcome.andThen_assoc, Outcome.map_andThen,
      Outcome.andThen_map, Outcome.map_map]

/-- Calls that fail end with the first one that fails, in the session that those before it have
left. -/
theorem exists_failing_of_performAll {calls : List Call}
    (h : (s.performAll calls).result = .error e) :
    ∃ earlier failing later replies, calls = earlier ++ failing :: later ∧
      (s.performAll earlier).result = .ok replies ∧
      ((s.performAll earlier).session.perform failing).result = .error e ∧
      (s.performAll calls).session = ((s.performAll earlier).session.perform failing).session := by
  -- induction on the calls: the first one fails, or it succeeds and a later one fails
  induction calls generalizing s with
  | nil => cases h
  | cons call rest ih =>
    cases hcall : (s.perform call).result with
    | error e' =>
      rw [performAll, Outcome.andThen_of_error hcall] at h ⊢
      obtain rfl : e' = e := Except.error.inj h
      exact ⟨[], call, rest, [], rfl, rfl, hcall, rfl⟩
    | ok reply =>
      have goes_on (calls : List Call) := Outcome.andThen_of_ok hcall
        fun reply s => (performAll s calls).map fun later => reply :: later
      rw [performAll, (goes_on rest).1] at h
      obtain ⟨earlier, failing, later, replies, rest_eq, succeeded, failed, session_eq⟩ :=
        ih (Outcome.error_of_map_error h)
      refine ⟨call :: earlier, failing, later, reply :: replies, ?_, ?_, ?_, ?_⟩
      · rw [rest_eq, List.cons_append]
      · rw [performAll, (goes_on earlier).1, Outcome.result_map, succeeded]
        rfl
      · rw [performAll, (goes_on earlier).2, Outcome.session_map]
        exact failed
      · rw [performAll, performAll, (goes_on rest).2, (goes_on earlier).2, Outcome.session_map,
          Outcome.session_map, session_eq]

/-- Sections are created one after another by a call each. -/
theorem performAll_create (s : Session) (sections : List StyleSection) :
    s.performAll (sections.map .create) = (s.createAll sections).map (List.map .names) := by
  induction sections generalizing s with
  | nil => rfl
  | cons styles rest ih =>
    simp only [List.map_cons, performAll, perform, ih, createAll, Outcome.andThen_map,
      Outcome.map_andThen, Outcome.map_map]

/-! ## Sessions that agree -/

/-- Two sessions **agree** if they differ at most in whether options have been set. -/
structure Agrees (s t : Session) : Prop where
  options_eq : s.options = t.options
  classNames_eq : s.classNames = t.classNames
  animationNames_eq : s.animationNames = t.animationNames
  generator_eq : s.generator = t.generator
  sink_eq : s.sink = t.sink

@[refl] theorem Agrees.refl (s : Session) : s.Agrees s := ⟨rfl, rfl, rfl, rfl, rfl⟩

/-- The mark that options were set makes no difference to the agreement of sessions. -/
theorem agrees_optionsSet (s : Session) (set : Bool) : s.Agrees { s with optionsSet := set } :=
  ⟨rfl, rfl, rfl, rfl, rfl⟩

/-- Sessions that agree differ in no more than the mark that options were set. -/
theorem Agrees.eq_optionsSet (h : s.Agrees t) : t = { s with optionsSet := t.optionsSet } := by
  obtain ⟨_, _, _, _, _, _⟩ := s
  obtain ⟨_, _, _, _, _, _⟩ := t
  obtain ⟨rfl, rfl, rfl, rfl, rfl⟩ := h
  rfl

/-- A batch does not look at whether options have been set. -/
theorem generateNamed_optionsSet (s : Session) (set : Bool) (kind : NameKind) (w : EntryWriter α)
    (entries : Table α) :
    ({ s with optionsSet := set }.generateNamed kind w entries).result =
        (s.generateNamed kind w entries).result ∧
      (s.generateNamed kind w entries).session.Agrees
        ({ s with optionsSet := set }.generateNamed kind w entries).session := by
  have names_eq : { s with optionsSet := set }.names kind = s.names kind := by
    cases kind <;> rfl
  simp only [generateNamed, names_eq]
  cases (Batch.run w s.options.obfuscate ((s.names kind).reserve kind) s.generator
      entries).result with
  | error e => exact ⟨rfl, agrees_optionsSet _ set⟩
  | ok made =>
    refine ⟨rfl, ?_⟩
    cases kind <;> exact agrees_optionsSet _ set

/-- A section is made alike in sessions that agree, and they still agree afterwards. -/
theorem Agrees.generate (h : s.Agrees t) (styles : StyleSection) :
    (t.generate styles).result = (s.generate styles).result ∧
      (s.generate styles).session.Agrees (t.generate styles).session := by
  rw [h.eq_optionsSet]
  cases styles with
  | tags rules => exact ⟨rfl, agrees_optionsSet s t.optionsSet⟩
  | classes rules => exact generateNamed_optionsSet ..
  | animations frames => exact generateNamed_optionsSet ..

/-- Sessions that agree still do so when the same text is appended in both. -/
theorem Agrees.append (h : s.Agrees t) (made : Generated) :
    (s.append made).session.Agrees (t.append made).session := by
  rw [h.eq_optionsSet]
  unfold Session.append
  split
  · exact agrees_optionsSet s t.optionsSet
  · exact agrees_optionsSet _ t.optionsSet

/-- In sessions that agree, a section is created alike. -/
theorem Agrees.create (h : s.Agrees t) (styles : StyleSection) :
    (t.create styles).result = (s.create styles).result ∧
      (s.create styles).session.Agrees (t.create styles).session := by
  obtain ⟨result_eq, sessions⟩ := h.generate styles
  have unchanged : (t.generate styles).result = (s.generate styles).result.map id := by
    rw [Except.map_id, id, result_eq]
  exact create_related (fun _ => rfl) unchanged sessions fun made _ => sessions.append made

/-- Sections are created alike in sessions that agree, and they still agree afterwards. -/
theorem Agrees.createAll (h : s.Agrees t) (sections : List StyleSection) :
    (t.createAll sections).result = (s.createAll sections).result ∧
      (s.createAll sections).session.Agrees (t.createAll sections).session :=
  createAll_related (fun styles _ _ _ agrees => agrees.create styles) h

/-! ## Options of a document -/

/-- Changing nothing and changing no option come to the same, apart from the mark. -/
theorem agrees_setOptionsIfAny (s : Session) (u : Options.Update) :
    (s.setOptionsIfAny u).session.Agrees
      { s with options := s.options.apply u, optionsSet := true } := by
  cases h : u.isEmpty with
  | true =>
    obtain rfl := Options.Update.isEmpty_iff.1 h
    rw [setOptionsIfAny, if_pos h, Options.apply_empty]
    exact agrees_optionsSet s true
  | false =>
    rw [setOptionsIfAny, if_neg (by simp [h])]
    rfl

/-- The options of a document that can be read are set by its calls as they are all at once. -/
theorem performAll_optionCalls {d : Document} {overrides u : Options.Update}
    (h : documentOptions d overrides = .ok u) :
    ∃ replies, (s.performAll (d.optionCalls overrides)).result = .ok replies ∧
      replies.flatMap Reply.nameTables = [] ∧
      (s.setOptionsIfAny u).session.Agrees (s.performAll (d.optionCalls overrides)).session := by
  have merged := agrees_setOptionsIfAny s u
  unfold documentOptions at h
  unfold Document.optionCalls
  cases hd : d.options with
  | none =>
    simp only [hd, Options.Update.empty_merge, Except.ok.injEq] at h
    subst h
    exact ⟨[.done], rfl, rfl, merged⟩
  | some value =>
    simp only [hd] at h
    obtain ⟨first, hfirst, rfl⟩ := Result.map_eq_ok.1 h
    have set_first : s.setOptionsJson value = s.setOptions first := by
      rw [setOptionsJson, hfirst, Outcome.ofExcept_ok, Outcome.andThen_ok]
    -- setting options twice is setting the merged ones once
    rw [Options.apply_merge] at merged
    refine ⟨[.done, .done], ?_, rfl, ?_⟩
    · simp only [Option.toList_some, List.map_singleton, List.singleton_append, performAll,
        perform, set_first]
      rfl
    · simp only [Option.toList_some, List.map_singleton, List.singleton_append, performAll,
        perform, set_first]
      exact merged

/-- Options of a document that cannot be read are the first call to fail. -/
theorem performAll_bad_options {d : Document} {overrides : Options.Update}
    (h : documentOptions d overrides = .error e) :
    (s.performAll (d.steps overrides)).result = .error e ∧
      (s.performAll (d.steps overrides)).session = s := by
  unfold documentOptions at h
  cases hd : d.options with
  | none => simp [hd] at h
  | some value =>
    simp only [hd] at h
    -- the first step is the one that reads the options, and it fails
    have unread := Result.map_eq_error.1 h
    have failed : (s.perform (.setOptionsJson value)).result = .error e := by
      rw [perform, setOptionsJson, unread]
      rfl
    have kept : (s.perform (.setOptionsJson value)).session = s := by
      rw [perform, setOptionsJson, unread]
      rfl
    simp only [Document.steps, Document.optionCalls, hd, Option.toList_some, List.map_singleton,
      List.cons_append, performAll]
    rw [Outcome.andThen_of_error failed]
    exact ⟨rfl, kept⟩

/-- A step of a document that fails leaves at most letters drawn. -/
theorem onlyDrawn_of_mem_steps {d : Document} {overrides : Options.Update} {step : Call}
    (hstep : step ∈ d.steps overrides) (h : (s.perform step).result = .error e) :
    s.OnlyDrawn (s.perform step).session := by
  simp only [Document.steps, Document.optionCalls, List.mem_append, List.mem_map,
    List.mem_singleton] at hstep
  rcases hstep with (⟨value, -, rfl⟩ | rfl) | ⟨styles, -, rfl⟩
  · have unset := session_setOptionsJson_of_error (Outcome.error_of_map_error h)
    rw [perform, Outcome.session_map, unset]
  · simp [perform, setOptions, Except.map] at h
  · exact onlyDrawn_create (Outcome.error_of_map_error h)

/-- A document has the result and the session of its steps. -/
theorem compileDocument_agrees (s : Session) (d : Document) (overrides : Options.Update) :
    (s.compileDocument d overrides).result =
        (s.performAll (d.steps overrides)).result.map
          (fun replies => documentNames (replies.flatMap Reply.nameTables)) ∧
      (s.compileDocument d overrides).session.Agrees
        (s.performAll (d.steps overrides)).session := by
  cases hu : documentOptions d overrides with
  | error e =>
    obtain ⟨result_eq, session_eq⟩ := performAll_bad_options (s := s) hu
    rw [compileDocument_of_bad_options hu, result_eq, session_eq]
    exact ⟨rfl, .refl s⟩
  | ok u =>
    obtain ⟨replies, options_ok, no_tables, sessions⟩ := performAll_optionCalls (s := s) hu
    obtain ⟨result_eq, session_eq⟩ := compileDocument_of_options (s := s) hu
    obtain ⟨sections_eq, sections⟩ := sessions.createAll d.compiledSections
    obtain ⟨result_steps, session_steps⟩ := Outcome.andThen_of_ok options_ok
      fun replies s => (s.performAll (d.compiledSections.map .create)).map
        fun others => replies ++ others
    rw [Document.steps, performAll_append, result_steps, session_steps, result_eq, session_eq]
    simp only [performAll_create, Outcome.result_map, Outcome.session_map, sections_eq]
    refine ⟨?_, sections⟩
    -- the replies to the options hold no tables, those to the sections one each
    cases ((s.setOptionsIfAny u).session.createAll d.compiledSections).result with
    | error e => rfl
    | ok tables =>
      have tables_eq : (tables.map Reply.names).flatMap Reply.nameTables = tables := by
        rw [List.flatMap_map]
        exact List.flatMap_singleton' tables
      simp only [Except.map, List.flatMap_append, no_tables, List.nil_append, tables_eq]

end Session

/-- A document is its steps, one call after another up to the first error: its options if it has
any, the overriding options, the tags, the animations and the classes. In every session, compiling
it has the result of the steps, and it leaves the options, the names, the source of letters and the
sink as they do. Options that cannot be read change nothing. If a step fails, all that was done
before it stays, and of the step itself at most drawn letters. -/
theorem compileDocument_eq_steps (s : Session) (d : Document) (overrides : Options.Update) :
    ((s.compileDocument d overrides).result =
        (s.performAll (d.steps overrides)).result.map
          (fun replies => Session.documentNames (replies.flatMap Reply.nameTables)) ∧
      (s.compileDocument d overrides).session.Agrees
        (s.performAll (d.steps overrides)).session) ∧
    (∀ value e, d.options = some value → Options.Update.ofValue value = .error e →
      (s.compileDocument d overrides).result = .error e ∧
        (s.compileDocument d overrides).session = s) ∧
    ∀ e, (s.compileDocument d overrides).result = .error e →
      ∃ earlier failing later replies, d.steps overrides = earlier ++ failing :: later ∧
        (s.performAll earlier).result = .ok replies ∧
        ((s.performAll earlier).session.perform failing).result = .error e ∧
        ∃ t, (s.compileDocument d overrides).session.Agrees t ∧
          (s.performAll earlier).session.OnlyDrawn t := by
  have steps := Session.compileDocument_agrees s d overrides
  refine ⟨steps, ?_, ?_⟩
  · intro value e hvalue unread
    have bad : Session.documentOptions d overrides = .error e := by
      rw [Session.documentOptions, hvalue]
      exact Result.map_eq_error.2 unread
    rw [Session.compileDocument_of_bad_options bad]
    exact ⟨rfl, rfl⟩
  · intro e failed
    -- a document fails where its steps do, and they have a first failing one
    rw [steps.1] at failed
    obtain ⟨earlier, failing, later, replies, steps_eq, succeeded, failing_eq, session_eq⟩ :=
      Session.exists_failing_of_performAll (Result.map_eq_error.1 failed)
    refine ⟨earlier, failing, later, replies, steps_eq, succeeded, failing_eq,
      (s.performAll (d.steps overrides)).session, steps.2, ?_⟩
    have step : failing ∈ d.steps overrides := by
      rw [steps_eq]
      exact List.mem_append_right earlier List.mem_cons_self
    rw [session_eq]
    exact Session.onlyDrawn_of_mem_steps step failing_eq

/-- The classes fail, and the tags before them stay, minified as the overriding options want it. -/
theorem compileDocument_eq_steps_failing :
    let s := Session.new (.sheet "") (.ofSeed 7)
    let d : Document :=
      { options := some (.object [("obfuscate", .bool false)])
        tags := [("p", [("color", .text "red")])]
        classes := [("a", [("color", .text "red")]), ("b", [("hover", .text "red")])] }
    let overrides : Options.Update := { minify := some true }
    (s.compileDocument d overrides).result = .error (.expectedMap .selector "hover") ∧
      (s.compileDocument d overrides).session.sink = .sheet "p\x7bcolor:red;\x7d" ∧
      ∃ earlier failing later replies, d.steps overrides = earlier ++ failing :: later ∧
        (s.performAll earlier).result = .ok replies ∧
        ((s.performAll earlier).session.perform failing).result =
          .error (.expectedMap .selector "hover") ∧
        ∃ t, (s.compileDocument d overrides).session.Agrees t ∧
          (s.performAll earlier).session.OnlyDrawn t := by
  intro s d overrides
  have failed : (s.compileDocument d overrides).result =
      .error (.expectedMap .selector "hover") := by decide +kernel
  refine ⟨failed, by decide +kernel, ?_⟩
  exact (compileDocument_eq_steps s d overrides).2.2 _ failed

end StyleTree
