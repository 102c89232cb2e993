import Mathlib.Data.List.Forall2
import StyleTree.Proofs.ReceivedText
import StyleTree.Proofs.TakenNames

/-! # Split sections

A section can be created in two calls instead of one. As long as text is not minified, this makes no
difference to the names, to the letters drawn for them or to the text; only if the second call fails
does it, for then the first part stays.

* **`Batch.run_append`** splits a batch in two, within one reservation.
* **`Session.generateNamed_append`** and **`Session.generateTags_append`** split the making of a
  section in two calls, and **`create_split`** the creating. -/

namespace StyleTree

/-- What two calls have made, in one. -/
def Generated.append (made later : Generated) : Generated :=
  ⟨made.names ++ later.names, made.css ++ later.css⟩

/-- A section is **split** in two parts if its entries are those of the first part and then those of
the second. -/
inductive StyleSection.Splits : StyleSection → StyleSection → StyleSection → Prop
  | tags (rules later : RuleSet) : Splits (.tags (rules ++ later)) (.tags rules) (.tags later)
  | classes (rules later : RuleSet) :
    Splits (.classes (rules ++ later)) (.classes rules) (.classes later)
  | animations (frames later : KeyframeSet) :
    Splits (.animations (frames ++ later)) (.animations frames) (.animations later)

/-- Rules are written one part after the other. -/
theorem rulesText_append (o : Options) (level : Nat) (rules later : RuleSet) :
    rulesText o level (rules ++ later) =
      (rulesText o level rules).bind fun text => (rulesText o level later).map (text ++ ·) := by
  induction rules with
  | nil =>
    rw [List.nil_append, rulesText_nil]
    cases rulesText o level later <;> simp [Except.bind, Except.map]
  | cons rule rest ih =>
    obtain ⟨selector, styles⟩ := rule
    rw [List.cons_append, rulesText_cons, rulesText_cons, ih]
    cases compile o level selector styles with
    | error e => rfl
    | ok text =>
      cases rulesText o level rest with
      | error e => rfl
      | ok others =>
        cases rulesText o level later <;> simp [Except.bind, Except.map, String.append_assoc]

/-! ## Batches -/

namespace Batch

variable {α : Type} {w : EntryWriter α} {obfuscate : Bool} {r : Reservation} {g : Generator}

/-- Go on after a batch in the reservation that it leaves. A batch that failed ends it all. -/
def andThen (b : Batch) (next : Reservation → Generator → Batch) : Batch :=
  match b.result with
  | .error e => ⟨.error e, b.generator, b.events⟩
  | .ok (made, r) =>
    let later := next r b.generator
    ⟨later.result.map fun (others, r) => (made.append others, r), later.generator,
      b.events ++ later.events⟩

/-- A finished batch goes on with the next one. -/
theorem done_andThen (r : Reservation) (g : Generator) (next : Reservation → Generator → Batch) :
    (done r g).andThen next = next r g := by
  simp only [andThen, done]
  generalize next r g = later
  obtain ⟨result, generator, events⟩ := later
  cases result <;> simp [Except.map, Generated.append]

/-- An entry before two batches is an entry before the first of them. -/
theorem prepend_andThen (base name css : String) (events : List Event) (b : Batch)
    (next : Reservation → Generator → Batch) :
    (b.prepend base name css events).andThen next =
      (b.andThen next).prepend base name css events := by
  obtain ⟨result, generator, earlier⟩ := b
  cases result with
  | error e => rfl
  | ok made =>
    cases h : (next made.2 generator).result <;>
      simp [andThen, prepend, h, Except.map, Generated.append, String.append_assoc]

/-- The entries of a batch are run one part after the other. -/
theorem run_append (w : EntryWriter α) (obfuscate : Bool) (r : Reservation) (g : Generator)
    (entries later : Table α) :
    run w obfuscate r g (entries ++ later) =
      (run w obfuscate r g entries).andThen fun r g => run w obfuscate r g later := by
  induction entries generalizing r g with
  | nil => rw [List.nil_append, run_nil, done_andThen]
  | cons head rest ih =>
    obtain ⟨base, entry⟩ := head
    simp only [List.cons_append, run]
    cases (r.issue obfuscate base g).name with
    | error e => rfl
    | ok name =>
      cases hcss : w.text name entry with
      | error e => simp [hcss, andThen]
      | ok css => simp only [hcss, ih, prepend_andThen]

/-- A batch fails where its first part does. -/
theorem run_append_of_error {entries : Table α} {e : Error}
    (h : (run w obfuscate r g entries).result = .error e) (later : Table α) :
    (run w obfuscate r g (entries ++ later)).result = .error e := by
  rw [run_append, andThen, h]

/-- A batch whose first part completes goes on as a batch of its own would that starts when the
names of the first part have been committed. -/
theorem run_append_of_ok {registry : Registry} {kind : NameKind} {entries : Table α}
    {made : Generated} (h : (run w obfuscate (registry.reserve kind) g entries).result =
      .ok (made, r)) (later : Table α) :
    let whole := run w obfuscate (registry.reserve kind) g (entries ++ later)
    let next := run w obfuscate (r.commit.reserve kind)
      (run w obfuscate (registry.reserve kind) g entries).generator later
    whole.generator = next.generator ∧
      (∀ e, next.result = .error e → whole.result = .error e) ∧
      ∀ others q, next.result = .ok (others, q) →
        ∃ q', whole.result = .ok (made.append others, q') ∧ q'.commit = q.commit := by
  intro whole next
  have completes := completes_of_run h
  have fresh : r.Fresh := completes.fresh (Reservation.fresh_reserve registry kind)
  have kind_eq : r.kind = kind := by
    rw [completes.staged]
    rfl
  -- what the first part has staged is as taken as it is once committed
  have interchangeable : (r.commit.reserve kind).Interchangeable r :=
    kind_eq ▸ fresh.interchangeable_commit
  obtain ⟨alike, generator_eq⟩ := run_interchangeable w obfuscate interchangeable
    (run w obfuscate (registry.reserve kind) g entries).generator later
  have split : whole = (run w obfuscate (registry.reserve kind) g entries).andThen
      fun r g => run w obfuscate r g later := run_append ..
  rw [split, andThen, h]
  refine ⟨generator_eq, ?_, ?_⟩
  · intro e failed
    exact Result.map_eq_error.2 (alike.error_right failed)
  · intro others q completed
    obtain ⟨q', later_eq, left⟩ := alike.ok_right completed
    refine ⟨q', Result.map_eq_ok.2 ⟨(others, q'), later_eq, rfl⟩, left.commit_eq ?_⟩
    exact (completes_of_run completed).fresh (Reservation.fresh_reserve r.commit kind)

end Batch

namespace Session

variable {α : Type} {s : Session} {whole first second : StyleSection}

/-! ## Making -/

/-- Names recorded twice for one kind of things are those recorded last. -/
theorem setNames_setNames (s : Session) (kind : NameKind) (g g' : Generator)
    (names later : Registry) :
    { { s with generator := g }.setNames kind names with generator := g' }.setNames kind later =
      { s with generator := g' }.setNames kind later := by
  cases kind <;> rfl

/-- Registering names draws no letters. -/
theorem generator_setNames (s : Session) (kind : NameKind) (names : Registry) :
    (s.setNames kind names).generator = s.generator := by
  cases kind <;> rfl

/-- Text that is not minified is in its final form at once. -/
theorem finish_of_unminified (unminified : s.options.minify = false) (css : String) :
    finish s.options css = css := by
  rw [finish, unminified]
  rfl

/-- A batch that is run after another starts with the names that the first has committed and with
the letters that it has left. -/
theorem batch_generateNamed {kind : NameKind} {w : EntryWriter α} {entries : Table α}
    {made : Generated} {r : Reservation} (h : (s.batch kind w entries).result = .ok (made, r))
    (later : Table α) :
    (s.generateNamed kind w entries).session.batch kind w later =
      Batch.run w s.options.obfuscate (r.commit.reserve kind) (s.batch kind w entries).generator
        later := by
  rw [batch, options_generateNamed, (generateNamed_of_batch_ok h).2, names_setNames,
    generator_setNames]

/-- A batch in two calls: the names, the letters and the text are those of a batch in one call. -/
theorem generateNamed_append (unminified : s.options.minify = false) (kind : NameKind)
    (w : EntryWriter α) (entries later : Table α) :
    (s.generateNamed kind w (entries ++ later)).result =
        ((s.generateNamed kind w entries).result.bind fun made =>
          ((s.generateNamed kind w entries).session.generateNamed kind w later).result.map
            made.append) ∧
      ∀ made, (s.generateNamed kind w (entries ++ later)).result = .ok made →
        (s.generateNamed kind w (entries ++ later)).session =
          ((s.generateNamed kind w entries).session.generateNamed kind w later).session := by
  -- the first part fails, or the second one after it, or both are made
  cases hpart : (s.batch kind w entries).result with
  | error e =>
    have failed : (s.batch kind w (entries ++ later)).result = .error e :=
      Batch.run_append_of_error hpart later
    rw [(generateNamed_of_batch_error hpart).1, (generateNamed_of_batch_error failed).1]
    exact ⟨rfl, fun _ h => by cases h⟩
  | ok out =>
    obtain ⟨made, r⟩ := out
    obtain ⟨first, session_eq⟩ := generateNamed_of_batch_ok hpart
    obtain ⟨generator_eq, failed, completed⟩ := Batch.run_append_of_ok hpart later
    have next_eq := batch_generateNamed hpart later
    rw [first]
    cases hnext : ((s.generateNamed kind w entries).session.batch kind w later).result with
    | error e =>
      have whole : (s.batch kind w (entries ++ later)).result = .error e :=
        failed e (next_eq ▸ hnext)
      rw [(generateNamed_of_batch_error hnext).1, (generateNamed_of_batch_error whole).1]
      exact ⟨rfl, fun _ h => by cases h⟩
    | ok out =>
      obtain ⟨others, q⟩ := out
      -- one batch stages on top of the first part, two batches on top of a registry that has it
      obtain ⟨q', hwhole, commit_eq⟩ := completed others q (next_eq ▸ hnext)
      have whole : (s.batch kind w (entries ++ later)).result = .ok (made.append others, q') :=
        hwhole
      have letters : (s.batch kind w (entries ++ later)).generator = _ := generator_eq
      obtain ⟨second, session_second⟩ := generateNamed_of_batch_ok hnext
      obtain ⟨both, session_both⟩ := generateNamed_of_batch_ok whole
      have plain := finish_of_unminified unminified
      rw [second, both, options_generateNamed, plain, plain, plain]
      refine ⟨rfl, fun _ _ => ?_⟩
      rw [session_both, session_second, next_eq, session_eq, setNames_setNames, commit_eq, letters]
      rfl

/-- Rules of tags in two calls. -/
theorem generateTags_append (unminified : s.options.minify = false) (rules later : RuleSet) :
    (s.generateTags (rules ++ later)).result =
      (s.generateTags rules).result.bind fun made =>
        (s.generateTags later).result.map made.append := by
  simp only [generateTags, rulesText_append, finish_of_unminified unminified]
  cases rulesText s.options 0 rules with
  | error e => rfl
  | ok text => cases rulesText s.options 0 later <;> rfl

/-- A section is made in two calls as it is in one. -/
theorem generate_split (unminified : s.options.minify = false) (h : whole.Splits first second) :
    (s.generate whole).result =
        ((s.generate first).result.bind fun made =>
          ((s.generate first).session.generate second).result.map made.append) ∧
      ∀ made, (s.generate whole).result = .ok made →
        (s.generate whole).session = ((s.generate first).session.generate second).session := by
  cases h with
  | tags rules later => exact ⟨generateTags_append unminified rules later, fun _ _ => rfl⟩
  | classes rules later =>
    simp only [generate, options_generateNamed]
    exact generateNamed_append unminified ..
  | animations frames later =>
    simp only [generate, options_generateNamed]
    exact generateNamed_append unminified ..

end Session

/-- As long as text is not minified, creating a section in one call is creating its two parts one
after the other. The one call succeeds if and only if both calls do, and returns the names of both;
otherwise it fails with the error of the first of them to fail. If it succeeds it leaves the same
registries, the same letters to come and the same text. -/
theorem create_split {s : Session} (unminified : s.options.minify = false)
    {whole first second : StyleSection} (h : whole.Splits first second) :
    (s.create whole).result =
        ((s.create first).result.bind fun names =>
          ((s.create first).session.create second).result.map (names ++ ·)) ∧
      ∀ names, (s.create whole).result = .ok names →
        (s.create whole).session.SameText ((s.create first).session.create second).session := by
  obtain ⟨result_eq, session_eq⟩ := Session.generate_split unminified h
  cases hfirst : (s.generate first).result with
  | error e =>
    rw [hfirst] at result_eq
    rw [(Session.create_of_generate_error hfirst).1, (Session.create_of_generate_error result_eq).1]
    exact ⟨rfl, fun _ h => by cases h⟩
  | ok made =>
    -- the second call does not look at the text that the first has given to the sink
    have between := Session.session_create hfirst
    rw [(Session.create_of_generate_ok hfirst).1, between]
    have second_eq := Session.generate_withSink (s.generate first).session
      (s.sink.receive made.css) second
    rw [hfirst] at result_eq
    cases hsecond : ((s.generate first).session.generate second).result with
    | error e =>
      rw [hsecond] at result_eq second_eq
      rw [(Session.create_of_generate_error result_eq).1,
        (Session.create_of_generate_error second_eq.1).1]
      exact ⟨rfl, fun _ h => by cases h⟩
    | ok others =>
      rw [hsecond] at result_eq second_eq
      rw [(Session.create_of_generate_ok result_eq).1,
        (Session.create_of_generate_ok second_eq.1).1, Session.session_create result_eq,
        Session.session_create second_eq.1, second_eq.2, session_eq _ result_eq]
      refine ⟨rfl, fun _ _ => Session.sameText_withSink _ ?_⟩
      simp [Generated.append, String.append_assoc]

/-- Two classes and an empty one, in one call and in two. -/
theorem create_split_plain :
    let first := StyleSection.classes [("a", [("color", .text "red")]), ("b", [])]
    let second := StyleSection.classes [("c", [("hover", .map [("top", .text "0")])])]
    let whole := StyleSection.classes [("a", [("color", .text "red")]), ("b", []),
      ("c", [("hover", .map [("top", .text "0")])])]
    ∃ s, Session.start (some (.sheet "")) (.ofSeed 7) (some { obfuscate := some false }) = .ok s ∧
      s.options.minify = false ∧ whole.Splits first second ∧
      (s.create whole).result = .ok [("a", "a"), ("b", "b"), ("c", "c")] ∧
      (s.create whole).session.SameText ((s.create first).session.create second).session := by
  intro first second whole
  have splits : whole.Splits first second :=
    .classes [("a", [("color", .text "red")]), ("b", [])]
      [("c", [("hover", .map [("top", .text "0")])])]
  have started : Session.start (some (.sheet "")) (.ofSeed 7)
      (some { obfuscate := some false }) = .ok _ := rfl
  refine ⟨_, started, rfl, splits, by decide +kernel, ?_⟩
  exact (create_split rfl splits).2 [("a", "a"), ("b", "b"), ("c", "c")] (by decide +kernel)

end StyleTree
