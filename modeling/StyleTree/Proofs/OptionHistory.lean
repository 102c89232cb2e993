import Mathlib.Logic.Nontrivial.Basic
import StyleTree.Proofs.Outcomes

/-! # The options in effect

Options reach a session from four sides: when it is started, by a call with an update, by a call
with JSON, and with a document. Whatever the side, a field of the options has the value that the
last update to set it has given it, and the default if none has.

* **`Options.ofUpdates`** is what the last words of some updates make of the default options.
* **`Call.update?`** is the update that a call puts into effect, if it does.
* **`Session.PutsIntoEffect`** is what a call does to the options, and
  **`Session.putsIntoEffect_perform`** says so of every call.
* **`Session.HasInEffect`** is what the calls of a run keep true.
* **`options_are_last_words`** says which options are in effect after any run, and which calls warn
  that options are set again. -/

namespace StyleTree

namespace Options

/-! ## Last words -/

/-- The **last word** of some updates about a field: what the last one to set it sets it to. -/
def lastWord {α : Type} (field : Update → Option α) (updates : List Update) : Option α :=
  (updates.filterMap field).getLast?

/-- The default options, but for the fields about which some updates have a last word. -/
def ofUpdates (updates : List Update) : Options where
  obfuscate := (lastWord (·.obfuscate) updates).getD ({} : Options).obfuscate
  minify := (lastWord (·.minify) updates).getD ({} : Options).minify
  vendorPrefixes := (lastWord (·.vendorPrefixes) updates).getD ({} : Options).vendorPrefixes
  emptyBlocks := (lastWord (·.emptyBlocks) updates).getD ({} : Options).emptyBlocks

/-- The last of some updates has the last word about the fields that it sets. -/
theorem lastWord_concat {α : Type} (field : Update → Option α) (updates : List Update)
    (u : Update) : lastWord field (updates ++ [u]) = (field u).or (lastWord field updates) := by
  rw [lastWord, lastWord, List.filterMap_append, List.getLast?_append]
  cases h : field u <;> simp [h]

/-- One more update is applied to what the others have made. -/
theorem ofUpdates_concat (updates : List Update) (u : Update) :
    ofUpdates (updates ++ [u]) = (ofUpdates updates).apply u := by
  have getD_or {α : Type} (x y : Option α) (a : α) : (x.or y).getD a = x.getD (y.getD a) := by
    cases x <;> rfl
  simp only [ofUpdates, apply, lastWord_concat, getD_or]

-- a table of vendor prefixes takes the place of the one before it, even if it is empty
example :
    ofUpdates [{ vendorPrefixes := some [("a", ["webkit"])], minify := some true }, {},
      { vendorPrefixes := some [] }] = { minify := true } := by
  decide

/-- Merging updates and applying the result is applying them one after another. -/
theorem apply_foldl_merge (o : Options) (u : Update) (updates : List Update) :
    o.apply (updates.foldl Update.merge u) = updates.foldl apply (o.apply u) := by
  induction updates generalizing u with
  | nil => rfl
  | cons v rest ih => rw [List.foldl_cons, List.foldl_cons, ih, apply_merge]

/-! ## Updates without effect -/

instance : Nontrivial EmptyBlocks := ⟨.suppress, .emit, by decide⟩

instance : Nontrivial (Table (List String)) := ⟨[], [("", [])], by decide⟩

/-- Only an unset value leaves every value as it is. -/
theorem eq_none_of_getD {α : Type} [Nontrivial α] {x : Option α} (h : ∀ a, x.getD a = a) :
    x = none := by
  cases x with
  | none => rfl
  | some b =>
    -- a set value takes the place of any other one
    obtain ⟨a, other⟩ := exists_ne b
    exact absurd (h a).symm other

/-- An update sets nothing exactly if it has no effect on any options. -/
theorem isEmpty_iff_apply {u : Update} : u.isEmpty ↔ ∀ o : Options, o.apply u = o := by
  rw [Update.isEmpty_iff]
  constructor
  · rintro rfl o
    exact apply_empty o
  · intro h
    have obfuscate : u.obfuscate = none :=
      eq_none_of_getD fun b => congrArg Options.obfuscate (h { obfuscate := b })
    have minify : u.minify = none :=
      eq_none_of_getD fun b => congrArg Options.minify (h { minify := b })
    have vendorPrefixes : u.vendorPrefixes = none :=
      eq_none_of_getD fun table => congrArg Options.vendorPrefixes (h { vendorPrefixes := table })
    have emptyBlocks : u.emptyBlocks = none :=
      eq_none_of_getD fun policy => congrArg Options.emptyBlocks (h { emptyBlocks := policy })
    obtain ⟨_, _, _, _⟩ := u
    subst obfuscate minify vendorPrefixes emptyBlocks
    rfl

end Options

/-! ## Warnings -/

/-- How many of some events warn that options are set again. -/
def warnings (events : List Event) : Nat := events.count .repeatedOptions

@[simp] theorem warnings_nil : warnings [] = 0 := rfl

/-- The warnings of two runs add up. -/
@[simp] theorem warnings_append (events later : List Event) :
    warnings (events ++ later) = warnings events + warnings later :=
  List.count_append

/-- Another event is no warning. -/
theorem warnings_cons {e : Event} (h : e ≠ .repeatedOptions) (events : List Event) :
    warnings (e :: events) = warnings events :=
  List.count_cons_of_ne h

/-- Closing a block warns of no options. -/
theorem warnings_closingEvents (o : Options) (selector : String) (result : Except Error Fragment) :
    warnings (closingEvents o selector result) = 0 := by
  cases result with
  | error e => rfl
  | ok f =>
    rw [closingEvents]
    split
    · exact warnings_cons (by simp) []
    · rfl

mutual

/-- Reading the entries of a style map warns of nothing. -/
theorem warnings_entriesEvents (o : Options) (selector : String)
    (entries : List (String × StyleValue)) : warnings (entriesEvents o selector entries) = 0 := by
  match entries with
  | [] => rw [entriesEvents, warnings_nil]
  | entry :: rest =>
    rw [entriesEvents, warnings_append, warnings_entryEvents o selector entry, Nat.zero_add]
    split
    · exact warnings_entriesEvents o selector rest
    · exact warnings_nil

/-- A style entry warns of no options. -/
theorem warnings_entryEvents (o : Options) (selector : String) (entry : String × StyleValue) :
    warnings (entryEvents o selector entry) = 0 := by
  match entry with
  | (key, value) =>
    rw [entryEvents]
    split
    · exact warnings_nil
    · split
      · exact warnings_nil
      · exact warnings_nestedEvents ..
      · exact warnings_nestedEvents ..

/-- A nested block warns of no options. -/
theorem warnings_nestedEvents (o : Options) (kind : NestedKind) (key selector : String)
    (value : StyleValue) : warnings (nestedEvents o kind key selector value) = 0 := by
  match value with
  | .map entries =>
    rw [nestedEvents]
    split
    · exact warnings_nil
    · rw [warnings_append, warnings_entriesEvents o selector entries, warnings_closingEvents]
  | .number x =>
    rw [nestedEvents]
    exact warnings_cons (by simp) []
  | .text s =>
    rw [nestedEvents]
    exact warnings_cons (by simp) []
  | .list items =>
    rw [nestedEvents]
    exact warnings_cons (by simp) []

end

/-- A rule warns of no options. -/
theorem warnings_ruleEvents (o : Options) (selector : String) (styles : StyleMap) :
    warnings (ruleEvents o selector styles) = 0 := by
  rw [ruleEvents]
  split
  · exact warnings_nil
  · rw [warnings_append, warnings_entriesEvents, warnings_closingEvents]

/-- Several rules warn of no options. -/
theorem warnings_rulesEvents (o : Options) (rules : RuleSet) :
    warnings (rulesEvents o rules) = 0 := by
  induction rules with
  | nil => rfl
  | cons rule rest ih =>
    rw [rulesEvents, warnings_append, warnings_ruleEvents, Nat.zero_add]
    split
    · exact ih
    · exact warnings_nil

/-- A name passed over is no warning about options. -/
theorem warnings_nameTaken (kind : NameKind) (passed : List String) :
    warnings (passed.map (Event.nameTaken kind)) = 0 := by
  induction passed with
  | nil => rfl
  | cons name rest ih => rw [List.map_cons, warnings_cons (by simp), ih]

/-- A batch warns of nothing if writing its entries does not. -/
theorem Batch.warnings_run {α : Type} {w : EntryWriter α}
    (written : ∀ name entry, warnings (w.events name entry) = 0) (obfuscate : Bool)
    (r : Reservation) (g : Generator) (entries : Table α) :
    warnings (Batch.run w obfuscate r g entries).events = 0 := by
  induction entries generalizing r g with
  | nil => rfl
  | cons entry rest ih =>
    obtain ⟨base, value⟩ := entry
    rw [run]
    dsimp only
    split
    · exact warnings_nameTaken ..
    · next name _ =>
      split
      · rw [warnings_append, warnings_nameTaken, written]
      · rw [prepend, warnings_append, warnings_append, warnings_nameTaken, written, ih]

namespace Outcome

variable {α β : Type}

/-- What a call goes on to do is reported after what it has done. -/
theorem events_andThen_of_ok {o : Outcome α} {a : α} (h : o.result = .ok a)
    (next : α → Session → Outcome β) :
    (o.andThen next).events = o.events ++ (next a o.session).events := by
  rw [andThen, h]

end Outcome

namespace Session

variable {s : Session}

/-- Named entries warn of no options if none of them does. -/
theorem warnings_generateNamed {α : Type} {w : EntryWriter α}
    (written : ∀ name entry, warnings (w.events name entry) = 0) (kind : NameKind)
    (entries : Table α) : warnings (s.generateNamed kind w entries).events = 0 := by
  simp only [generateNamed]
  split <;> exact Batch.warnings_run written ..

/-- Making a section warns of nothing. -/
theorem warnings_generate (s : Session) (styles : StyleSection) :
    warnings (s.generate styles).events = 0 := by
  cases styles with
  | tags rules => exact warnings_rulesEvents ..
  | classes rules => exact warnings_generateNamed (fun name => warnings_ruleEvents _ _) ..
  | animations frames => exact warnings_generateNamed (fun _ => warnings_rulesEvents _) ..

/-- Appending to the sink warns of no options. -/
theorem warnings_events_append (s : Session) (made : Generated) :
    warnings (s.append made).events = 0 := by
  rw [append]
  split
  · rfl
  · exact warnings_cons (by simp) []

/-! ## Whether options have been set -/

/-- Whether options were set is no matter of the registries. -/
@[simp] theorem optionsSet_setNames (s : Session) (kind : NameKind) (names : Registry) :
    (s.setNames kind names).optionsSet = s.optionsSet := by
  cases kind <;> rfl

/-- Naming entries sets no options. -/
theorem optionsSet_generateNamed {α : Type} (s : Session) (kind : NameKind) (w : EntryWriter α)
    (entries : Table α) :
    (s.generateNamed kind w entries).session.optionsSet = s.optionsSet := by
  simp only [generateNamed]
  split
  · rfl
  · rw [optionsSet_setNames]

/-- Making a section sets no options. -/
theorem optionsSet_generate (s : Session) (styles : StyleSection) :
    (s.generate styles).session.optionsSet = s.optionsSet := by
  cases styles with
  | tags rules => rfl
  | classes rules => exact optionsSet_generateNamed ..
  | animations frames => exact optionsSet_generateNamed ..

/-! ## What a call puts into effect -/

/-- A call **puts into effect** an update, if any: it applies the update to the options, remembers
that options have been set, and warns if they had been set before. -/
structure PutsIntoEffect {α : Type} (s : Session) (u? : Option Options.Update)
    (o : Outcome α) : Prop where
  options_eq : o.session.options = u?.elim s.options s.options.apply
  optionsSet_eq : o.session.optionsSet = (s.optionsSet || u?.isSome)
  warnings_eq : warnings o.events = if s.optionsSet ∧ u?.isSome then 1 else 0

variable {α β : Type} {u? : Option Options.Update}

/-- Nothing is put into effect where options and warnings stay away. -/
theorem putsIntoEffect_none {o : Outcome α} (options_eq : o.session.options = s.options)
    (optionsSet_eq : o.session.optionsSet = s.optionsSet) (warnings_eq : warnings o.events = 0) :
    s.PutsIntoEffect none o :=
  ⟨options_eq, by simp [optionsSet_eq], by simp [warnings_eq]⟩

/-- Options that are set go into effect. -/
theorem putsIntoEffect_setOptions (s : Session) (u : Options.Update) :
    s.PutsIntoEffect (some u) (s.setOptions u) := by
  refine ⟨rfl, (Bool.or_true _).symm, ?_⟩
  rw [setOptions]
  cases s.optionsSet <;> rfl

/-- What is made of its answer is no matter of the options of a call. -/
theorem PutsIntoEffect.map {o : Outcome α} (h : s.PutsIntoEffect u? o) (f : α → β) :
    s.PutsIntoEffect u? (o.map f) :=
  ⟨h.options_eq, h.optionsSet_eq, h.warnings_eq⟩

/-- What a call has put into effect stays so, if what it goes on to do puts nothing into effect. -/
theorem PutsIntoEffect.andThen {o : Outcome α} (h : s.PutsIntoEffect u? o)
    {next : α → Session → Outcome β} (later : ∀ a t, PutsIntoEffect t none (next a t)) :
    s.PutsIntoEffect u? (o.andThen next) := by
  cases hresult : o.result with
  | error e =>
    rw [Outcome.andThen_of_error hresult]
    exact ⟨h.options_eq, h.optionsSet_eq, h.warnings_eq⟩
  | ok a =>
    have session_eq := (Outcome.andThen_of_ok hresult next).2
    obtain ⟨options_eq, optionsSet_eq, warnings_eq⟩ := later a o.session
    refine ⟨?_, ?_, ?_⟩
    · rw [session_eq, options_eq, Option.elim_none, h.options_eq]
    · rw [session_eq, optionsSet_eq, Option.isSome_none, Bool.or_false, h.optionsSet_eq]
    · rw [Outcome.events_andThen_of_ok hresult, warnings_append, h.warnings_eq, warnings_eq]
      simp

/-- Making a section puts nothing into effect. -/
theorem putsIntoEffect_generate (s : Session) (styles : StyleSection) :
    s.PutsIntoEffect none (s.generate styles) :=
  putsIntoEffect_none (options_generate s styles) (optionsSet_generate s styles)
    (warnings_generate s styles)

/-- Appending to the sink puts nothing into effect. -/
theorem putsIntoEffect_append (s : Session) (made : Generated) :
    s.PutsIntoEffect none (s.append made) := by
  obtain ⟨sink, session_eq⟩ := session_append s made
  exact putsIntoEffect_none (by rw [session_eq]) (by rw [session_eq])
    (warnings_events_append s made)

/-- Creating a section puts nothing into effect. -/
theorem putsIntoEffect_create (s : Session) (styles : StyleSection) :
    s.PutsIntoEffect none (s.create styles) :=
  (putsIntoEffect_generate s styles).andThen fun made t => (putsIntoEffect_append t made).map _

/-- Creating several sections puts nothing into effect. -/
theorem putsIntoEffect_createAll (s : Session) (sections : List StyleSection) :
    s.PutsIntoEffect none (s.createAll sections) := by
  induction sections generalizing s with
  | nil => exact putsIntoEffect_none rfl rfl rfl
  | cons styles rest ih =>
    exact (putsIntoEffect_create s styles).andThen fun _ t => (ih t).map _

/-- A call that fails at once puts nothing into effect. -/
theorem putsIntoEffect_fail (s : Session) (e : Error) :
    s.PutsIntoEffect none (Outcome.fail s e : Outcome α) :=
  putsIntoEffect_none rfl rfl rfl

/-- A section given in JSON puts into effect what it does when it can be read, and nothing else. -/
theorem putsIntoEffect_withSection {next : Session → StyleSection → Outcome α}
    (made : ∀ styles, s.PutsIntoEffect none (next s styles)) (kind : SectionKind) (value : Json) :
    s.PutsIntoEffect none (s.withSection kind value next) := by
  rw [withSection]
  split
  · exact made _
  · exact putsIntoEffect_fail ..

/-- An update that sets nothing is passed over. -/
theorem putsIntoEffect_setOptionsIfAny (s : Session) (u : Options.Update) :
    s.PutsIntoEffect ((some u).filter fun u => !u.isEmpty) (s.setOptionsIfAny u) := by
  rw [setOptionsIfAny]
  split
  · next h =>
    rw [Option.filter_some_neg (by simp [h])]
    exact putsIntoEffect_none rfl rfl rfl
  · next h =>
    rw [Option.filter_some_pos (by simpa using h)]
    exact putsIntoEffect_setOptions s u

end Session

/-- The update that a call puts into effect, if it does. A document does so before its sections are
created, so that none of them can keep it from doing so. -/
def Call.update? : Call → Option Options.Update
  | .setOptions u => some u
  | .setOptionsJson value => (Options.Update.ofValue value).toOption
  | .compileDocument d overrides =>
    (Session.documentOptions d overrides).toOption.filter fun u => !u.isEmpty
  | .generate _ | .create _ | .generateJson .. | .createJson .. => none

namespace Session

variable {α : Type} {s : Session} {u? : Option Options.Update}

/-- Every call puts its update into effect, and nothing else, whether it fails or not. -/
theorem putsIntoEffect_perform (s : Session) (call : Call) :
    s.PutsIntoEffect call.update? (s.perform call) := by
  cases call with
  | setOptions u => exact (putsIntoEffect_setOptions s u).map _
  | setOptionsJson value =>
    rw [perform, setOptionsJson, Call.update?]
    cases Options.Update.ofValue value with
    | error e => exact (putsIntoEffect_fail s e).map _
    | ok u => simpa [Except.toOption] using (putsIntoEffect_setOptions s u).map _
  | generate styles => exact (putsIntoEffect_generate s styles).map _
  | create styles => exact (putsIntoEffect_create s styles).map _
  | generateJson kind value =>
    exact (putsIntoEffect_withSection (putsIntoEffect_generate s) kind value).map _
  | createJson kind value =>
    exact (putsIntoEffect_withSection (putsIntoEffect_create s) kind value).map _
  | compileDocument d overrides =>
    rw [perform, compileDocument_eq_createAll, Call.update?]
    cases documentOptions d overrides with
    | error e => exact (putsIntoEffect_fail s e).map _
    | ok u =>
      -- whichever section fails, the options have been set before
      rw [Outcome.ofExcept_ok, Outcome.andThen_ok]
      exact ((putsIntoEffect_setOptionsIfAny s u).andThen fun _ t =>
        (putsIntoEffect_createAll t d.compiledSections).map _).map _

/-! ## Runs -/

/-- Some updates, and no others, have been put into effect so far. -/
structure HasInEffect (s : Session) (updates : List Options.Update) : Prop where
  options_eq : s.options = Options.ofUpdates updates
  optionsSet_iff : s.optionsSet ↔ updates ≠ []

/-- A new session has no updates in effect. -/
theorem hasInEffect_new (sink : Sink) (g : Generator) : (new sink g).HasInEffect [] :=
  ⟨rfl, by simp [new]⟩

/-- The update that a call puts into effect comes after the others. -/
theorem HasInEffect.step {updates : List Options.Update} {o : Outcome α}
    (h : s.HasInEffect updates) (call : s.PutsIntoEffect u? o) :
    o.session.HasInEffect (updates ++ u?.toList) := by
  refine ⟨?_, ?_⟩
  · rw [call.options_eq, h.options_eq]
    cases u? with
    | none => simp
    | some u => exact (Options.ofUpdates_concat updates u).symm
  · rw [call.optionsSet_eq, Bool.or_eq_true, h.optionsSet_iff]
    cases u? <;> simp

/-- The updates of the calls are in effect behind those before them. -/
theorem HasInEffect.after {updates : List Options.Update} (h : s.HasInEffect updates)
    (calls : List Call) :
    (s.after calls).HasInEffect (updates ++ calls.filterMap Call.update?) := by
  induction calls generalizing s updates with
  | nil => simpa using h
  | cons call rest ih =>
    have both : (call :: rest).filterMap Call.update? =
        call.update?.toList ++ rest.filterMap Call.update? := by
      cases hcall : call.update? <;> simp [hcall]
    rw [after_cons, both, ← List.append_assoc]
    exact ih (h.step (putsIntoEffect_perform s call))

/-- A session starts with the options it is given in effect, if it is given any. -/
theorem exists_start (sink : Sink) (g : Generator) (given : Option Options.Update) :
    ∃ s, start (some sink) g given = .ok s ∧ s.HasInEffect given.toList := by
  cases given with
  | none => exact ⟨_, rfl, hasInEffect_new sink g⟩
  | some u =>
    exact ⟨_, rfl, (hasInEffect_new sink g).step (putsIntoEffect_setOptions (new sink g) u)⟩

end Session

/-- A session that is started with options or without has, after any calls, the default options but
for the fields about which the updates put into effect so far have a last word; such updates are
the options it was started with, those of every call that sets options, from JSON if the JSON can be
read, and those of every document whose options can be read and set something with the overriding
ones on top. Exactly those calls among them that are not the first to set options warn of it. So
updates may as well be merged first, and an update is empty exactly if it never has an effect. -/
theorem options_are_last_words (sink : Sink) (g : Generator) (given : Option Options.Update) :
    (∃ s, Session.start (some sink) g given = .ok s ∧ ∀ (calls : List Call) (call : Call),
      let updates := given.toList ++ calls.filterMap Call.update?
      (s.after calls).options = Options.ofUpdates updates ∧
        warnings ((s.after calls).perform call).events =
          if call.update?.isSome ∧ updates ≠ [] then 1 else 0) ∧
      (∀ u, warnings ((Session.new sink g).setOptions u).events = 0) ∧
      (∀ (o : Options) (updates : List Options.Update),
        o.apply (updates.foldl Options.Update.merge .empty) = updates.foldl Options.apply o) ∧
      ∀ u : Options.Update, u.isEmpty ↔ ∀ o : Options, o.apply u = o := by
  refine ⟨?_, fun u => rfl, fun o => Options.apply_foldl_merge o .empty,
    fun u => Options.isEmpty_iff_apply⟩
  obtain ⟨s, start_eq, started⟩ := Session.exists_start sink g given
  refine ⟨s, start_eq, fun calls call => ?_⟩
  intro updates
  have before := started.after calls
  refine ⟨before.options_eq, ?_⟩
  rw [(Session.putsIntoEffect_perform _ call).warnings_eq]
  exact if_congr (by rw [before.optionsSet_iff, and_comm]) rfl rfl

end StyleTree
