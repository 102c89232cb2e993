import Mathlib.Logic.Function.Basic
import StyleTree.Proofs.NamingAlone
import StyleTree.Proofs.Registries

/-! # Requests for names

What a run asks of the names, apart from all that it styles: for each section the keys that names
are issued for and whether random letters are wanted. The names that a run issues are a function of
these requests and of the names and letters it starts with, so nothing else has a say in them.

* **`NameState.serveAll`** serves requests; it sees neither styles nor options.
* **`Session.requests`** are the requests of a run, and **`Session.serveAll_requests`** says that
  serving them is what a run does to the names, as long as it can make its sections.
* **`Session.FailsAt`** says where a section fails, and **`Session.generate_of_failsAt`** what is
  left then.
* **`names_independent_of_styles`** is the comparison of two runs. -/

namespace StyleTree

/-- A request for names. -/
structure NameRequest where
  /-- What the names are given to, `none` if none are asked for. -/
  kind? : Option NameKind
  /-- The keys, in order. -/
  keys : List String
  /-- Whether random letters are wanted. -/
  obfuscate : Bool
deriving DecidableEq, Repr

/-- The request that a section makes. -/
def StyleSection.request (obfuscate : Bool) (styles : StyleSection) : NameRequest :=
  ⟨styles.nameKind?, styles.namedKeys, obfuscate⟩

/-- The request for the first keys of another, and for no more. -/
def NameRequest.upTo (n : Nat) (request : NameRequest) : NameRequest :=
  { request with keys := request.keys.take n }

/-- What names are issued from. -/
structure NameState where
  /-- The names issued so far. -/
  names : NameKind → Registry
  /-- The source of random letters. -/
  generator : Generator

namespace NameState

/-- The naming of the keys of a request, for one kind of things. -/
def naming (n : NameState) (kind : NameKind) (request : NameRequest) : Naming :=
  ((n.names kind).reserve kind).nameAll request.obfuscate n.generator request.keys

/-- Serve a request: name its keys and commit the names. -/
def serve (n : NameState) (request : NameRequest) : Except Error (Table String × NameState) :=
  match request.kind? with
  | none => .ok ([], n)
  | some kind =>
    (n.naming kind request).result.map fun (names, r) =>
      (names, ⟨Function.update n.names kind r.commit, (n.naming kind request).generator⟩)

/-- The source of random letters once the keys of a request have been named. -/
def lettersAfter (n : NameState) (request : NameRequest) : Generator :=
  match request.kind? with
  | none => n.generator
  | some kind => (n.naming kind request).generator

/-- Serve requests one after another. -/
def serveAll (n : NameState) : List NameRequest → Except Error (List (Table String) × NameState)
  | [] => .ok ([], n)
  | request :: rest =>
    (n.serve request).bind fun (names, n) =>
      (serveAll n rest).map fun (later, n) => (names :: later, n)

variable {n n' n'' : NameState}

@[simp] theorem serveAll_nil (n : NameState) : n.serveAll [] = .ok ([], n) := rfl

/-- Requests are served one by one, the first one first. -/
theorem serveAll_cons {request : NameRequest} {rest : List NameRequest} {names : Table String}
    {later : List (Table String)} (h : n.serve request = .ok (names, n'))
    (hrest : n'.serveAll rest = .ok (later, n'')) :
    n.serveAll (request :: rest) = .ok (names :: later, n'') := by
  rw [serveAll, h]
  show (n'.serveAll rest).map _ = _
  rw [hrest]
  rfl

/-- Requests are served one part after the other. -/
theorem serveAll_append {requests rest : List NameRequest} {tables later : List (Table String)}
    (h : n.serveAll requests = .ok (tables, n')) (hrest : n'.serveAll rest = .ok (later, n'')) :
    n.serveAll (requests ++ rest) = .ok (tables ++ later, n'') := by
  induction requests generalizing n tables with
  | nil =>
    cases h
    exact hrest
  | cons request others ih =>
    obtain ⟨⟨names, between⟩, hfirst, h⟩ := Result.bind_eq_ok.1 h
    obtain ⟨⟨tables, n'⟩, hothers, hout⟩ := Result.map_eq_ok.1 h
    cases hout
    exact serveAll_cons hfirst (ih hothers)

end NameState

/-! ## Requests of a run -/

/-- A call is about no section or one, or it compiles a document. -/
theorem Call.sections_cases (call : Call) :
    call.sections = [] ∨ (∃ styles, call.sections = [styles]) ∨
      ∃ d overrides, call = .compileDocument d overrides := by
  have of_option (styles? : Option StyleSection) :
      styles?.toList = [] ∨ ∃ styles, styles?.toList = [styles] := by
    cases styles? with
    | none => exact .inl rfl
    | some styles => exact .inr ⟨styles, rfl⟩
  cases call with
  | setOptions u => exact .inl rfl
  | setOptionsJson value => exact .inl rfl
  | generate styles => exact .inr (.inl ⟨styles, rfl⟩)
  | create styles => exact .inr (.inl ⟨styles, rfl⟩)
  | generateJson kind value => exact or_assoc.1 (.inl (of_option _))
  | createJson kind value => exact or_assoc.1 (.inl (of_option _))
  | compileDocument d overrides => exact .inr (.inr ⟨d, overrides, rfl⟩)

/-- The name tables that a call has returned. -/
def Outcome.nameTables (o : Outcome Reply) : List (Table String) :=
  match o.result with
  | .ok reply => reply.nameTables
  | .error _ => []

/-- A call that succeeds hands out the names in its reply. -/
theorem Outcome.nameTables_of_ok {o : Outcome Reply} {reply : Reply} (h : o.result = .ok reply) :
    o.nameTables = reply.nameTables := by
  rw [nameTables, h]

namespace Session

variable {α : Type} {s : Session} {styles : StyleSection} {call : Call}

/-- What the session issues names from. -/
def nameState (s : Session) : NameState := ⟨s.names, s.generator⟩

/-- The requests of calls, in order, with random letters as the options then want them. -/
def requests (s : Session) : List Call → List NameRequest
  | [] => []
  | call :: rest =>
    call.sections.map (StyleSection.request (s.perform call).session.options.obfuscate)
      ++ requests (s.perform call).session rest

/-- The name tables that calls return, in order. -/
def nameTables (s : Session) (calls : List Call) : List (Table String) :=
  (s.run calls).flatMap Outcome.nameTables

/-- Whether all calls that are about sections succeed. -/
def makesAll (s : Session) : List Call → Bool
  | [] => true
  | call :: rest =>
    (call.sections.isEmpty || (s.perform call).result.isOk)
      && makesAll (s.perform call).session rest

/-! ## Sections -/

/-- Names registered are registered for their own kind only. -/
theorem names_setNames_eq_update (s : Session) (kind : NameKind) (names : Registry) :
    (s.setNames kind names).names = Function.update s.names kind names := by
  funext other
  by_cases h : other = kind
  · rw [h, names_setNames, Function.update_self]
  · rw [names_setNames_of_ne s h, Function.update_of_ne h]

/-- A batch that completes serves the request for its keys. -/
theorem serve_of_generateNamed {kind : NameKind} {w : EntryWriter α} {entries : Table α}
    {made : Generated} (h : (s.generateNamed kind w entries).result = .ok made) :
    s.nameState.serve ⟨some kind, Table.keys entries, s.options.obfuscate⟩ =
      .ok (made.names, (s.generateNamed kind w entries).session.nameState) := by
  cases hbatch : (s.batch kind w entries).result with
  | error e =>
    rw [(generateNamed_of_batch_error hbatch).1] at h
    cases h
  | ok out =>
    obtain ⟨made', r⟩ := out
    obtain ⟨result_eq, session_eq⟩ := generateNamed_of_batch_ok hbatch
    rw [result_eq] at h
    cases h
    -- the batch has named its keys as if there were nothing to write
    have named := Batch.nameAll_of_run hbatch
    simp only [NameState.serve, NameState.naming, nameState, named, session_eq,
      names_setNames_eq_update]
    cases kind <;> rfl

/-- A section that is made serves its request. -/
theorem serve_of_generate {made : Generated} (h : (s.generate styles).result = .ok made) :
    s.nameState.serve (styles.request s.options.obfuscate) =
      .ok (made.names, (s.generate styles).session.nameState) := by
  cases styles with
  | tags rules =>
    obtain ⟨css, -, rfl⟩ := Result.map_eq_ok.1 h
    rfl
  | classes rules => exact serve_of_generateNamed h
  | animations frames => exact serve_of_generateNamed h

/-- Appending what was made is no matter of the names. -/
theorem nameState_create (s : Session) (styles : StyleSection) :
    (s.create styles).session.nameState = (s.generate styles).session.nameState := by
  obtain ⟨sink, hs⟩ := exists_session_create s styles
  rw [hs]
  rfl

/-- A section that is created serves its request. -/
theorem serve_of_create {names : Table String} (h : (s.create styles).result = .ok names) :
    s.nameState.serve (styles.request s.options.obfuscate) =
      .ok (names, (s.create styles).session.nameState) := by
  obtain ⟨made, hmade, rfl⟩ := generate_ok_of_create h
  rw [nameState_create]
  exact serve_of_generate hmade

/-- Sections that are created one after another serve their requests. -/
theorem serveAll_of_createAll {sections : List StyleSection} {tables : List (Table String)}
    (h : (s.createAll sections).result = .ok tables) :
    s.nameState.serveAll (sections.map (StyleSection.request s.options.obfuscate)) =
      .ok (tables, (s.createAll sections).session.nameState) := by
  induction sections generalizing s tables with
  | nil =>
    cases h
    rfl
  | cons styles rest ih =>
    -- the options stay as they are, so the other sections ask for letters as the first does
    obtain ⟨names, later, hfirst, hlater, rfl⟩ := exists_of_createAll_cons_ok h
    have rest_served := ih hlater
    rw [options_create] at rest_served
    rw [(createAll_cons_of_ok hfirst rest).2, List.map_cons]
    exact NameState.serveAll_cons (serve_of_create hfirst) rest_served

/-! ## Calls and runs -/

/-- Options set are no matter of the names. -/
theorem nameState_setOptionsIfAny (s : Session) (u : Options.Update) :
    (s.setOptionsIfAny u).session.nameState = s.nameState := by
  rw [setOptionsIfAny]
  split <;> rfl

/-- A document that is compiled serves the requests of its sections. -/
theorem serveAll_of_compileDocument {d : Document} {overrides : Options.Update} {reply : Reply}
    (h : (s.perform (.compileDocument d overrides)).result = .ok reply) :
    s.nameState.serveAll (d.compiledSections.map <| StyleSection.request
        (s.perform (.compileDocument d overrides)).session.options.obfuscate) =
      .ok (reply.nameTables, (s.perform (.compileDocument d overrides)).session.nameState) := by
  obtain ⟨names, hnames, rfl⟩ := Outcome.exists_of_map_ok h
  obtain ⟨u, tables, -, htables, rfl, session_eq⟩ := exists_of_compileDocument_ok hnames
  obtain ⟨account, options_eq⟩ := createAll_ok htables
  rw [perform, Outcome.session_map, session_eq, options_eq, nameTables_documentNames account.fits,
    ← nameState_setOptionsIfAny s u]
  exact serveAll_of_createAll htables

/-- A call that is about one section makes it or creates it. -/
theorem perform_of_sections (s : Session) (h : call.sections = [styles]) :
    s.perform call = s.perform (.generate styles) ∨
      s.perform call = s.perform (.create styles) := by
  cases call with
  | generate styles' =>
    cases h
    exact .inl rfl
  | create styles' =>
    cases h
    exact .inr rfl
  | generateJson kind value =>
    rw [perform_generateJson, Option.toList_eq_singleton_iff.1 h]
    exact .inl rfl
  | createJson kind value =>
    rw [perform_createJson, Option.toList_eq_singleton_iff.1 h]
    exact .inr rfl
  | _ => cases h

/-- A call that is about one section and succeeds serves its request. -/
theorem serveAll_of_section (h : call.sections = [styles]) {reply : Reply}
    (succeeded : (s.perform call).result = .ok reply) :
    s.nameState.serveAll [styles.request (s.perform call).session.options.obfuscate] =
      .ok (reply.nameTables, (s.perform call).session.nameState) := by
  rcases s.perform_of_sections h with makes | creates
  · rw [makes] at succeeded ⊢
    obtain ⟨made, hmade, rfl⟩ := Outcome.exists_of_map_ok succeeded
    rw [perform, Outcome.session_map, options_generate]
    exact NameState.serveAll_cons (serve_of_generate hmade) rfl
  · rw [creates] at succeeded ⊢
    obtain ⟨names, hnames, rfl⟩ := Outcome.exists_of_map_ok succeeded
    rw [perform, Outcome.session_map, options_create]
    exact NameState.serveAll_cons (serve_of_create hnames) rfl

/-- A call that is about no section leaves the names alone. -/
theorem nameState_of_no_section (h : call.sections = []) :
    (s.perform call).nameTables = [] ∧ (s.perform call).session.nameState = s.nameState := by
  cases call with
  | setOptions u => exact ⟨rfl, rfl⟩
  | setOptionsJson value =>
    simp only [perform, setOptionsJson]
    cases Options.Update.ofValue value <;> exact ⟨rfl, rfl⟩
  | generateJson kind value =>
    rw [perform_generateJson, Option.toList_eq_nil_iff.1 h]
    exact ⟨rfl, rfl⟩
  | createJson kind value =>
    rw [perform_createJson, Option.toList_eq_nil_iff.1 h]
    exact ⟨rfl, rfl⟩
  | _ => cases h

/-- A call that can make its sections serves their requests, and no call does anything else to the
names. -/
theorem serveAll_of_perform
    (h : (call.sections.isEmpty || (s.perform call).result.isOk) = true) :
    s.nameState.serveAll (call.sections.map
        (StyleSection.request (s.perform call).session.options.obfuscate)) =
      .ok ((s.perform call).nameTables, (s.perform call).session.nameState) := by
  -- only a call without sections may fail
  have exists_reply (made : call.sections ≠ []) : ∃ reply, (s.perform call).result = .ok reply := by
    rw [List.isEmpty_eq_false_iff.2 made, Bool.false_or] at h
    cases hreply : (s.perform call).result with
    | error e => rw [hreply] at h; cases h
    | ok reply => exact ⟨reply, rfl⟩
  obtain none_made | ⟨styles, one⟩ | ⟨d, overrides, rfl⟩ := call.sections_cases
  · obtain ⟨tables_eq, names_eq⟩ := nameState_of_no_section (s := s) none_made
    rw [none_made, tables_eq, names_eq]
    rfl
  · obtain ⟨reply, hreply⟩ := exists_reply (by simp [one])
    rw [one, Outcome.nameTables_of_ok hreply]
    exact serveAll_of_section one hreply
  · obtain ⟨reply, hreply⟩ := exists_reply (List.cons_ne_nil _ _)
    rw [Outcome.nameTables_of_ok hreply]
    exact serveAll_of_compileDocument hreply

/-- Calls that can make all their sections serve their requests, and do nothing else to the
names. -/
theorem serveAll_requests {calls : List Call} (h : s.makesAll calls = true) :
    s.nameState.serveAll (s.requests calls) =
      .ok (s.nameTables calls, (s.after calls).nameState) := by
  induction calls generalizing s with
  | nil => rfl
  | cons call rest ih =>
    rw [makesAll, Bool.and_eq_true] at h
    exact NameState.serveAll_append (serveAll_of_perform h.1) (ih h.2)

end Session

/-! ## Failing sections -/

/-- Rules **fail at** the `n`-th one if each before has a text and this one has none. -/
inductive RulesFailAt (o : Options) (level : Nat) : RuleSet → Nat → Error → Prop
  /-- The first rule has no text. -/
  | unwritten {selector : String} {styles : StyleMap} {rest : RuleSet} {e : Error}
      (unwritten : compile o level selector styles = .error e) :
    RulesFailAt o level ((selector, styles) :: rest) 1 e
  /-- The first rule has a text, and a later one has none. -/
  | later {selector text : String} {styles : StyleMap} {rest : RuleSet} {n : Nat} {e : Error}
      (written : compile o level selector styles = .ok text)
      (later : RulesFailAt o level rest n e) :
    RulesFailAt o level ((selector, styles) :: rest) (n + 1) e

/-- Rules without a text fail at one of them. -/
theorem rulesFailAt_of_rulesText {o : Options} {level : Nat} {rules : RuleSet} {e : Error}
    (h : rulesText o level rules = .error e) : ∃ n, RulesFailAt o level rules n e := by
  induction rules with
  | nil => cases h
  | cons rule rest ih =>
    obtain ⟨selector, styles⟩ := rule
    obtain unwritten | ⟨text, written, failed⟩ := rulesText_cons_error.1 h
    · exact ⟨1, .unwritten unwritten⟩
    · obtain ⟨n, fails⟩ := ih failed
      exact ⟨n + 1, .later written fails⟩

/-- Rules that fail at one of them fail with its error. -/
theorem rulesText_of_rulesFailAt {o : Options} {level n : Nat} {rules : RuleSet} {e : Error}
    (h : RulesFailAt o level rules n e) : rulesText o level rules = .error e := by
  induction h with
  | unwritten unwritten => exact rulesText_cons_error.2 (.inl unwritten)
  | later written later ih => exact rulesText_cons_error.2 (.inr ⟨_, written, ih⟩)

namespace Session

variable {α : Type} {s : Session} {styles : StyleSection} {call : Call} {e : Error}

/-- A section **fails at** its `n`-th entry if each entry before can be made and this one cannot. -/
def FailsAt (s : Session) (n : Nat) (e : Error) : StyleSection → Prop
  | .tags rules => RulesFailAt s.options 0 rules n e
  | .classes rules =>
    Batch.FailsAt (classWriter s.options) s.options.obfuscate
      (s.classNames.reserve .styleClass) s.generator rules n e
  | .animations frames =>
    Batch.FailsAt (animationWriter s.options) s.options.obfuscate
      (s.animationNames.reserve .animation) s.generator frames n e

/-- Named entries that fail do so at one of them. -/
theorem failsAt_of_generateNamed {kind : NameKind} {w : EntryWriter α} {entries : Table α}
    (h : (s.generateNamed kind w entries).result = .error e) :
    ∃ n, Batch.FailsAt w s.options.obfuscate ((s.names kind).reserve kind) s.generator entries
      n e := by
  cases hbatch : (s.batch kind w entries).result with
  | error e' =>
    rw [(generateNamed_of_batch_error hbatch).1] at h
    cases h
    exact Batch.failsAt_of_run hbatch
  | ok out =>
    rw [(generateNamed_of_batch_ok hbatch).1] at h
    cases h

/-- A batch that fails at an entry has drawn the letters for the keys up to this entry, and has done
nothing else. -/
theorem generateNamed_of_failsAt {kind : NameKind} {w : EntryWriter α} {entries : Table α} {n : Nat}
    (h : Batch.FailsAt w s.options.obfuscate ((s.names kind).reserve kind) s.generator entries
      n e) :
    (s.generateNamed kind w entries).result = .error e ∧
      (s.generateNamed kind w entries).session =
        { s with
          generator := s.nameState.lettersAfter
            (.upTo n ⟨some kind, Table.keys entries, s.options.obfuscate⟩) } := by
  obtain ⟨result_eq, session_eq⟩ := generateNamed_of_batch_error h.result_eq
  rw [result_eq, session_eq, batch, h.generator_eq]
  exact ⟨rfl, rfl⟩

/-- A section that cannot be made fails at one of its entries. -/
theorem failsAt_of_generate (h : (s.generate styles).result = .error e) :
    ∃ n, s.FailsAt n e styles := by
  cases styles with
  | tags rules => exact rulesFailAt_of_rulesText (Result.map_eq_error.1 h)
  | classes rules => exact failsAt_of_generateNamed h
  | animations frames => exact failsAt_of_generateNamed h

/-- A section that fails at an entry has drawn letters for the names up to that entry. -/
theorem generate_of_failsAt {n : Nat} (h : s.FailsAt n e styles) :
    (s.generate styles).result = .error e ∧
      (s.generate styles).session =
        { s with
          generator :=
            s.nameState.lettersAfter (.upTo n (styles.request s.options.obfuscate)) } := by
  cases styles with
  | tags rules =>
    exact ⟨Result.map_eq_error.2 (rulesText_of_rulesFailAt h), rfl⟩
  | classes rules => exact generateNamed_of_failsAt h
  | animations frames => exact generateNamed_of_failsAt h

/-- A call fails where its section does. -/
theorem generate_error_of_perform (h : call.sections = [styles])
    (failed : (s.perform call).result = .error e) : (s.generate styles).result = .error e := by
  rcases s.perform_of_sections h with makes | creates
  · rw [makes] at failed
    exact Outcome.error_of_map_error failed
  · rw [creates] at failed
    exact generate_error_of_create (Outcome.error_of_map_error failed)

/-- A section that fails makes its call fail, and the call does nothing more. -/
theorem perform_of_generate_error (h : call.sections = [styles])
    (failed : (s.generate styles).result = .error e) :
    (s.perform call).result = .error e ∧
      (s.perform call).session = (s.generate styles).session := by
  rcases s.perform_of_sections h with makes | creates
  · rw [makes]
    exact ⟨Result.map_eq_error.2 failed, rfl⟩
  · obtain ⟨result_eq, session_eq⟩ := create_of_generate_error failed
    rw [creates]
    exact ⟨Result.map_eq_error.2 result_eq, session_eq⟩

end Session

/-- The names do not depend on the styles. Two runs start with the same letters to come. If they
make the same requests for names, and can make all that they are asked for, they issue the same
names for all keys, and leave the same names and the same letters to come; whatever the styles and
the other options are. And a call fails at one of the entries of its section if it fails at all; it
then leaves everything but the letters as it was, and has drawn those for the keys up to the failing
one, again whatever the styles are. -/
theorem names_independent_of_styles {g : Generator} {k k' : Option Sink}
    {u u' : Option Options.Update} {s t : Session} (hs : Session.start k g u = .ok s)
    (ht : Session.start k' g u' = .ok t) :
    (∀ calls calls' : List Call, s.requests calls = t.requests calls' →
      s.makesAll calls = true → t.makesAll calls' = true →
      s.nameTables calls = t.nameTables calls' ∧
        (∀ kind, (s.after calls).names kind = (t.after calls').names kind) ∧
        (s.after calls).generator = (t.after calls').generator) ∧
    ∀ (r : Session) (call : Call) (styles : StyleSection), call.sections = [styles] →
      (∀ n e, r.FailsAt n e styles →
        (r.perform call).result = .error e ∧
          (r.perform call).session =
            { r with
              generator :=
                r.nameState.lettersAfter (.upTo n (styles.request r.options.obfuscate)) }) ∧
      ∀ e, (r.perform call).result = .error e → ∃ n, r.FailsAt n e styles := by
  -- neither the sink nor the options decide what names are taken at the start
  have same_start : s.nameState = t.nameState := by
    cases k <;> cases k' <;> cases u <;> cases u' <;> cases hs <;> cases ht <;> rfl
  refine ⟨fun calls calls' same made made' => ?_, fun r call styles h => ⟨?_, ?_⟩⟩
  · -- both runs serve the same requests from the same start
    have served := Session.serveAll_requests made
    rw [same, same_start, Session.serveAll_requests made'] at served
    simp only [Except.ok.injEq, Prod.mk.injEq, Session.nameState, NameState.mk.injEq] at served
    obtain ⟨tables_eq, names_eq, generator_eq⟩ := served
    exact ⟨tables_eq.symm, fun kind => (congrFun names_eq kind).symm, generator_eq.symm⟩
  · intro n e fails
    obtain ⟨failed, session_eq⟩ := Session.generate_of_failsAt fails
    rw [← session_eq]
    exact Session.perform_of_generate_error h failed
  · exact fun e failed => Session.failsAt_of_generate (Session.generate_error_of_perform h failed)

/-- A class and an animation with other styles in a run that minifies, and a class without a text
after one with a text. -/
theorem names_independent_of_styles_plain :
    let calls : List Call :=
      [.create (.tags [("p", [("color", .text "red")])]), .generate (.classes [("a", [])]),
        .create (.animations [("spin", [("from", [("top", .text "0")])])])]
    let calls' : List Call :=
      [.generate (.tags []), .create (.classes [("a", [("hover", .map [("top", .text "0")])])]),
        .createJson .animations (.object [("spin", .object [])])]
    let failing := StyleSection.classes [("b", []), ("c", [("font-size", .text "0")]), ("d", [])]
    ∃ s t, Session.start (some (.sheet "")) (.ofSeed 7) (some { obfuscate := some false }) = .ok s ∧
      Session.start (some (.external [])) (.ofSeed 7)
        (some { obfuscate := some false, minify := some true }) = .ok t ∧
      s.requests calls = t.requests calls' ∧ s.makesAll calls = true ∧ t.makesAll calls' = true ∧
      s.nameTables calls = [[], [("a", "a")], [("spin", "spin")]] ∧
      s.nameTables calls = t.nameTables calls' ∧
      s.FailsAt 2 (.hyphenatedProperty "font-size") failing ∧
      (s.perform (.create failing)).session =
        { s with
          generator := s.nameState.lettersAfter ⟨some .styleClass, ["b", "c"], false⟩ } := by
  intro calls calls' failing
  let s := ((Session.new (.sheet "") (.ofSeed 7)).setOptions { obfuscate := some false }).session
  have hs : Session.start (some (.sheet "")) (.ofSeed 7) (some { obfuscate := some false }) =
      .ok s := rfl
  let t := ((Session.new (.external []) (.ofSeed 7)).setOptions
    { obfuscate := some false, minify := some true }).session
  have ht : Session.start (some (.external [])) (.ofSeed 7)
      (some { obfuscate := some false, minify := some true }) = .ok t := rfl
  obtain ⟨alike, failed⟩ := names_independent_of_styles hs ht
  have same : s.requests calls = t.requests calls' := by decide +kernel
  have fails : s.FailsAt 2 (.hyphenatedProperty "font-size") failing :=
    .later rfl rfl (.unwritten rfl (by decide +kernel))
  refine ⟨s, t, hs, ht, same, by decide +kernel, by decide +kernel, by decide +kernel, ?_, fails,
    ?_⟩
  · exact (alike calls calls' same (by decide +kernel) (by decide +kernel)).1
  · exact ((failed s (.create failing) failing rfl).1 2 _ fails).2

end StyleTree
