import StyleTree.CommandLine.Directory
import StyleTree.Proofs.DocumentLayouts

/-! # Runs of the command

A run of the command reads, compiles and writes, in this order. Whatever keeps it from compiling
keeps it from writing anything, and what it writes goes where it has been told to and nowhere else.

* **`Workplace.serve`** carries out a request, and **`Invocation.Ends`** has one case for every way
  in which a run can end; **`Invocation.ends_run`** says that there are no others.
* **`Workplace.ChangesOnly`** says which files a run may change.
* **`Invocation.Compiles`** says what the input of a run gives, and **`Invocation.Delivers`** where
  it goes. -/

namespace StyleTree

namespace Workplace

/-- Do what the arguments of the command ask for: how it ended, and the workplace after it. -/
def serve (unseeded : Generator) (request : Request) (w : Workplace) : Exit × Workplace :=
  (request.run host unseeded).run w

/-- The command serves what its arguments ask for. -/
theorem command_eq_serve (arguments : List String) (unseeded : Generator) (w : Workplace) :
    command arguments unseeded w = w.serve unseeded (.ofArguments arguments) := rfl

/-! ## Writing -/

/-- The workplace after a text was written to where a path leads, if that is possible. -/
def put? (w : Workplace) (path text : String) : Option Workplace :=
  (Place.ofPath? path).bind (w.writeAt? text)

/-- The workplace after a text was written to where a path leads, if there is a path. -/
def putWanted? (w : Workplace) (path : Option String) (text : String) : Option Workplace :=
  match path with
  | none => some w
  | some path => w.put? path text

/-- The workplace after a style sheet was written to where a path leads or, if there is no path,
printed. -/
def putSheet? (w : Workplace) (path : Option String) (css : String) : Option Workplace :=
  match path with
  | none => some { w with printout := w.printout.print css }
  | some path => w.put? path css

/-- Some paths lead to all files that have **changed** between two workplaces. -/
def ChangesOnly (paths : List String) (before after : Workplace) : Prop :=
  ∀ name, (∀ path ∈ paths, Place.ofPath? path ≠ some (.file name)) →
    Table.find? after.files name = Table.find? before.files name

@[refl] theorem ChangesOnly.refl (paths : List String) (w : Workplace) :
    ChangesOnly paths w w :=
  fun _ _ => rfl

/-- Steps one after the other change no other files if neither does. -/
theorem ChangesOnly.trans {paths : List String} {w v u : Workplace} (h : ChangesOnly paths w v)
    (later : ChangesOnly paths v u) : ChangesOnly paths w u :=
  fun name apart => (later name apart).trans (h name apart)

variable {w v : Workplace} {path text : String}

/-- A place that takes a text takes any other, as long as it may be empty if the first one is. -/
theorem exists_writeAt? {text' : String} {p : Place} (h : w.writeAt? text p = some v)
    (empty : text = "" → text' = "") (w' : Workplace) : ∃ v', w'.writeAt? text' p = some v' := by
  cases p with
  | folder f => cases h
  | file name => exact ⟨_, rfl⟩
  | outside name => exact ⟨_, rfl⟩
  | device d =>
    cases d with
    | full =>
      -- there is room for the empty text only
      have nothing : text = "" := by
        by_contra some_text
        simp [writeAt?, some_text] at h
      exact ⟨w', if_pos (empty nothing)⟩
    | _ => exact ⟨_, rfl⟩

/-- A path that takes one text takes any other, in any workplace, unless the first text is empty and
the other one is not: a full device takes the empty text only. -/
theorem exists_put? {text' : String} (h : w.put? path text = some v)
    (empty : text = "" → text' = "") (w' : Workplace) : ∃ v', w'.put? path text' = some v' := by
  obtain ⟨p, leads, written⟩ := Option.bind_eq_some_iff.1 h
  obtain ⟨v', again⟩ := exists_writeAt? written empty w'
  exact ⟨v', Option.bind_eq_some_iff.2 ⟨p, leads, again⟩⟩

/-- A file that a text is written to holds the text, and every other file what it held before. -/
theorem find?_put? (h : w.put? path text = some v) (name : String) :
    Table.find? v.files name =
      if Place.ofPath? path = some (.file name) then some text.toUTF8
      else Table.find? w.files name := by
  obtain ⟨p, leads, written⟩ := Option.bind_eq_some_iff.1 h
  rw [leads]
  -- only a file of the workplace keeps what is written to it
  cases p with
  | folder f => cases written
  | file other =>
    cases written
    rw [Table.find?_insert]
    exact if_congr (by simp [eq_comm]) rfl rfl
  | outside other =>
    cases written
    simp
  | device d =>
    have files_eq : v.files = w.files := by
      cases d with
      | full =>
        simp only [writeAt?, Option.ite_none_right_eq_some, Option.some.injEq] at written
        rw [written.2]
      | _ =>
        cases written
        rfl
    simp [files_eq]

/-- What of a text shows on the output when it is written to a path: all of it if the path leads
there, else nothing. -/
def shownAt (path : Option String) (text : String) : String :=
  if path.bind Place.ofPath? = some (.device .output) then text else ""

/-- What is written shows past the printer, if it does. -/
theorem printout_put? (h : w.put? path text = some v) :
    v.printout = w.printout.write (shownAt (some path) text) := by
  have nothing (p : Printout) : p.write "" = p := by simp [Printout.write]
  obtain ⟨p, leads, written⟩ := Option.bind_eq_some_iff.1 h
  rw [shownAt, Option.bind_some, leads]
  -- only the output itself shows anything, and a full device takes nothing but the empty text
  cases p with
  | folder f => cases written
  | file name =>
    cases written
    simp [nothing]
  | outside name =>
    cases written
    simp [nothing]
  | device d =>
    cases d with
    | output =>
      cases written
      simp
    | full =>
      simp only [writeAt?, Option.ite_none_right_eq_some, Option.some.injEq] at written
      simp [nothing, written.2]
    | _ =>
      cases written
      simp [nothing]

/-- The output gains the text if the path leads there. -/
theorem printout_putWanted? {path : Option String} (h : w.putWanted? path text = some v) :
    v.printout = w.printout.write (shownAt path text) := by
  cases path with
  | none =>
    cases h
    simp [shownAt, Printout.write]
  | some p => exact printout_put? h

/-- Printing changes no file. -/
theorem changesOnly_print (paths : List String) (w : Workplace) (text : String) :
    ChangesOnly paths w { w with printout := w.printout.print text } :=
  fun _ _ => rfl

/-- Writing changes at most the file to which the path leads. -/
theorem changesOnly_put? {paths : List String} (hpath : path ∈ paths)
    (h : w.put? path text = some v) : ChangesOnly paths w v := by
  intro name apart
  rw [find?_put? h, if_neg (apart path hpath)]

/-- What is written if it is wanted changes at most the file to which its path leads. -/
theorem changesOnly_putWanted? {path : Option String} {paths : List String}
    (hpath : ∀ p ∈ path, p ∈ paths) (h : w.putWanted? path text = some v) :
    ChangesOnly paths w v := by
  cases path with
  | none =>
    cases h
    rfl
  | some p => exact changesOnly_put? (hpath p rfl) h

/-- A style sheet that is printed changes no file, and one that is written at most its own. -/
theorem changesOnly_putSheet? {path : Option String} {paths : List String}
    (hpath : ∀ p ∈ path, p ∈ paths) (h : w.putSheet? path text = some v) :
    ChangesOnly paths w v := by
  cases path with
  | none =>
    cases h
    exact changesOnly_print paths w text
  | some p => exact changesOnly_put? (hpath p rfl) h

end Workplace

/-! ## What the input gives -/

namespace Invocation

variable {i : Invocation} {g : Generator} {w v u : Workplace} {d : Document}
  {names : DocumentNames} {css : String}

/-- The text that an invocation reads, if there is one. -/
def sourceText? (i : Invocation) (w : Workplace) : Option String :=
  match i.input with
  | some path => (Place.ofPath? path).bind w.textAt?
  | none => String.fromUTF8? w.input

/-- The input of an invocation is **unfit** if it cannot be read as a text, is not a document, or is
one that cannot be compiled. -/
inductive Unfit (i : Invocation) (g : Generator) (w : Workplace) : Prop
  | unreadable (source : i.sourceText? w = none)
  | malformed {text : String} {e : Error} (source : i.sourceText? w = some text)
      (read : Document.ofText text = .error e)
  | uncompiled {text : String} {d : Document} {e : Error} (source : i.sourceText? w = some text)
      (read : Document.ofText text = .ok d)
      (failed : ((Session.new (.sheet "") g).compileDocument d i.overrides).result = .error e)

/-- The input of an invocation is the text of a document, and the document **compiles** to names and
a style sheet in a new session with the letters of a generator. -/
structure Compiles (i : Invocation) (g : Generator) (w : Workplace) (d : Document)
    (names : DocumentNames) (css : String) : Prop where
  source : ∃ text, i.sourceText? w = some text ∧ Document.ofText text = .ok d
  result : ((Session.new (.sheet "") g).compileDocument d i.overrides).result = .ok names
  css_eq : ((Session.new (.sheet "") g).compileDocument d i.overrides).session.css? = some css

/-- Every input is unfit, or it compiles. -/
theorem unfit_or_compiles (i : Invocation) (g : Generator) (w : Workplace) :
    i.Unfit g w ∨ ∃ d names css, i.Compiles g w d names css := by
  cases source : i.sourceText? w with
  | none => exact .inl (.unreadable source)
  | some text =>
    cases read : Document.ofText text with
    | error e => exact .inl (.malformed source read)
    | ok d =>
      cases result : ((Session.new (.sheet "") g).compileDocument d i.overrides).result with
      | error e => exact .inl (.uncompiled source read result)
      | ok names =>
        obtain ⟨css, sheet⟩ := Session.exists_sheet_compileDocument
          (s := Session.new (.sheet "") g) rfl d i.overrides
        refine .inr ⟨d, names, css, ⟨text, source, read⟩, result, ?_⟩
        rw [Session.css?, sheet]

/-! ## How a run ends -/

/-- What a step leaves is what the next one starts from. -/
theorem run_bind_of_run {α β : Type} {x : StateM Workplace α} {a : α} (h : x.run w = (a, v))
    (next : α → StateM Workplace β) : (x >>= next).run w = (next a).run v := by
  rw [StateT.run_bind, h]
  rfl

/-- Reading gives the text of the input, if there is one, and changes nothing. -/
theorem run_readDocument (i : Invocation) (w : Workplace) :
    ∃ f, (i.readDocument Workplace.host).run w = ((i.sourceText? w).elim (.error f) .ok, w) := by
  rw [sourceText?, readDocument]
  cases i.input with
  | none =>
    refine ⟨.readInput, ?_⟩
    dsimp only
    rw [run_bind_of_run (x := Workplace.host.readInput) (a := String.fromUTF8? w.input) rfl]
    cases String.fromUTF8? w.input <;> rfl
  | some path =>
    refine ⟨.readFile path, ?_⟩
    dsimp only
    rw [run_bind_of_run (x := Workplace.host.readFile path)
      (a := (Place.ofPath? path).bind w.textAt?) rfl]
    cases (Place.ofPath? path).bind w.textAt? <;> rfl

/-- Writing to a path puts the text where the path leads. -/
theorem run_writeFile (path text : String) (w : Workplace) :
    (Workplace.host.writeFile path text).run w =
      (w.put? path text).elim (false, w) fun v => (true, v) := by
  show (Workplace.writeFile path text).run w = _
  rw [Workplace.writeFile, run_bind_of_run (x := get) (a := w) rfl, Workplace.put?]
  cases (Place.ofPath? path).bind (w.writeAt? text) <;> rfl

/-- Writing if it is wanted succeeds exactly if the path takes the text, and else leaves all as it
was. -/
theorem run_writeWanted (path : Option String) (text : String) (w : Workplace) :
    ∃ f, (writeWanted Workplace.host path text).run w =
      (w.putWanted? path text).elim (.error f, w) fun v => (.ok (), v) := by
  cases path with
  | none => exact ⟨.readInput, rfl⟩
  | some path =>
    refine ⟨.writeFile path, ?_⟩
    have written := run_writeFile path text w
    rw [Workplace.putWanted?, writeWanted]
    cases h : w.put? path text with
    | none =>
      rw [h] at written
      rw [run_bind_of_run (a := false) written]
      rfl
    | some v =>
      rw [h] at written
      rw [run_bind_of_run (a := true) written]
      rfl

/-- Writing the style sheet succeeds exactly if it can be put, and else leaves all as it was. -/
theorem run_writeSheet (i : Invocation) (css : String) (w : Workplace) :
    ∃ f, (i.writeSheet Workplace.host css).run w =
      (w.putSheet? i.output css).elim (.error f, w) fun v => (.ok (), v) := by
  rw [writeSheet]
  cases i.output with
  | none => exact ⟨.readInput, rfl⟩
  | some path => exact run_writeWanted (some path) css w

/-- What a run computes from a text is what the document in it compiles to. -/
theorem compileText_of_document {text : String} (read : Document.ofText text = .ok d) :
    i.compileText g text =
      let compiled := (Session.new (.sheet "") g).compileDocument d i.overrides
      compiled.result.map fun names => (compiled.session.css?.getD "", names) := by
  rw [compileText, read]
  dsimp only [bind, Except.bind]
  cases ((Session.new (.sheet "") g).compileDocument d i.overrides).result <;> rfl

/-- The ways in which a run can **end**, with what is left of the workplace. -/
inductive Ends (i : Invocation) (g : Generator) (w : Workplace) :
    Except Failure Unit → Workplace → Prop
  /-- There is nothing to write. -/
  | unfit (f : Failure) (h : i.Unfit g w) : Ends i g w (.error f) w
  /-- The style sheet cannot be written. -/
  | sheetUnwritten {d : Document} {names : DocumentNames} {css : String} (f : Failure)
      (compiles : i.Compiles g w d names css) (sheet : w.putSheet? i.output css = none) :
      Ends i g w (.error f) w
  /-- The style sheet is written, but the names cannot be. -/
  | namesUnwritten {d : Document} {names : DocumentNames} {css : String} {v : Workplace}
      (f : Failure) (compiles : i.Compiles g w d names css)
      (sheet : w.putSheet? i.output css = some v)
      (unnamed : v.putWanted? i.names names.toText = none) : Ends i g w (.error f) v
  /-- All is written. -/
  | done {d : Document} {names : DocumentNames} {css : String} {v u : Workplace}
      (compiles : i.Compiles g w d names css) (sheet : w.putSheet? i.output css = some v)
      (named : v.putWanted? i.names names.toText = some u) : Ends i g w (.ok ()) u

/-- A run with an unfit input fails and changes nothing. -/
theorem run_of_unfit (h : i.Unfit g w) :
    ∃ f, (i.run Workplace.host g).run w = (.error f, w) := by
  obtain ⟨f, reads⟩ := run_readDocument i w
  rw [run]
  cases h with
  | unreadable source =>
    rw [source] at reads
    exact ⟨f, run_bind_of_run reads _⟩
  | malformed source read =>
    rw [source] at reads
    rw [run_bind_of_run reads]
    simp only [Option.elim_some, compileText, read]
    exact ⟨_, rfl⟩
  | uncompiled source read failed =>
    rw [source] at reads
    rw [run_bind_of_run reads]
    simp only [Option.elim_some, compileText_of_document read, failed]
    exact ⟨_, rfl⟩

/-- A run whose input compiles puts the style sheet and then the names where they belong, as far as
that is possible. -/
theorem run_of_compiles (h : i.Compiles g w d names css) :
    ∃ f f', (i.run Workplace.host g).run w =
      (w.putSheet? i.output css).elim (.error f, w) fun v =>
        (v.putWanted? i.names names.toText).elim (.error f', v) fun u => (.ok (), u) := by
  obtain ⟨⟨text, source, read⟩, result, css_eq⟩ := h
  obtain ⟨_, reads⟩ := run_readDocument i w
  rw [source] at reads
  rw [run, run_bind_of_run reads]
  simp only [Option.elim_some, compileText_of_document read, result, css_eq, Except.map,
    Option.getD_some]
  obtain ⟨f, sheet_written⟩ := run_writeSheet i css w
  cases sheet : w.putSheet? i.output css with
  | none =>
    rw [sheet] at sheet_written
    rw [run_bind_of_run (a := .error f) sheet_written]
    exact ⟨f, f, rfl⟩
  | some v =>
    rw [sheet] at sheet_written
    rw [run_bind_of_run (a := .ok ()) sheet_written]
    obtain ⟨f', names_written⟩ := run_writeWanted i.names names.toText v
    exact ⟨f, f', names_written⟩

/-- A run ends in one of these ways. -/
theorem ends_run (i : Invocation) (g : Generator) (w : Workplace) :
    i.Ends g w ((i.run Workplace.host g).run w).1 ((i.run Workplace.host g).run w).2 := by
  rcases i.unfit_or_compiles g w with unfit | ⟨d, names, css, compiles⟩
  · obtain ⟨f, fails⟩ := run_of_unfit unfit
    rw [fails]
    exact .unfit f unfit
  · obtain ⟨f, f', ends⟩ := run_of_compiles compiles
    rw [ends]
    cases sheet : w.putSheet? i.output css with
    | none => exact .sheetUnwritten f compiles sheet
    | some v =>
      dsimp only [Option.elim]
      cases named : v.putWanted? i.names names.toText with
      | none => exact .namesUnwritten f' compiles sheet named
      | some u => exact .done compiles sheet named

/-! ## Where the results go -/

/-- The style sheet and the names **go apart** if their paths do not lead to the same place. -/
def GoesApart (i : Invocation) : Prop :=
  ∀ output ∈ i.output, ∀ names ∈ i.names, Place.ofPath? output ≠ Place.ofPath? names

instance : DecidablePred GoesApart := fun i =>
  inferInstanceAs (Decidable (∀ output ∈ i.output, ∀ names ∈ i.names,
    Place.ofPath? output ≠ Place.ofPath? names))

/-- A run **delivers** a style sheet and names if between the workplaces before and after it lies
nothing but the writing of the sheet and then of the names, each to where its path leads. So the
files that the paths lead to hold them, the style sheet is printed if there is no path for it, and
nothing else shows on the output unless a path leads to it. -/
structure Delivers (i : Invocation) (before : Workplace) (css : String) (names : DocumentNames)
    (after : Workplace) : Prop where
  written : ∃ v, before.putSheet? i.output css = some v ∧
    v.putWanted? i.names names.toText = some after
  sheetFile : ∀ path ∈ i.output, ∀ file, Place.ofPath? path = some (.file file) →
    Table.find? after.files file = some css.toUTF8
  namesFile : ∀ path ∈ i.names, ∀ file, Place.ofPath? path = some (.file file) →
    Table.find? after.files file = some names.toText.toUTF8
  /-- With a path for the style sheet nothing is printed. -/
  silent : i.output ≠ none → after.printout.text =
    Workplace.shownAt i.output css ++ Workplace.shownAt i.names names.toText
  /-- Without one the style sheet is printed. Only names that are written past the printer can come
  in between. -/
  printed : i.output = none → ∃ shown held, shown ++ held = css ∧
    after.printout.text = shown ++ Workplace.shownAt i.names names.toText ++ held

/-- What is written from an empty output on is delivered, as long as the names do not take the place
of the style sheet. -/
theorem delivers_of_put (fresh : w.printout = {}) (apart : i.GoesApart)
    (sheet : w.putSheet? i.output css = some v)
    (named : v.putWanted? i.names names.toText = some u) : i.Delivers w css names u where
  written := ⟨v, sheet, named⟩
  sheetFile := by
    intro path hpath file leads
    rw [hpath] at sheet
    -- the names are written later, but to another place
    have written : Table.find? v.files file = some css.toUTF8 := by
      rw [Workplace.find?_put? sheet, if_pos leads]
    cases hnames : i.names with
    | none =>
      rw [hnames] at named
      cases named
      exact written
    | some other =>
      rw [hnames] at named
      rw [Workplace.find?_put? named, if_neg, written]
      exact fun same => apart path hpath other hnames (leads.trans same.symm)
  namesFile := by
    intro path hpath file leads
    rw [hpath] at named
    rw [Workplace.find?_put? named, if_pos leads]
  silent := by
    intro wanted
    obtain ⟨path, hpath⟩ := Option.ne_none_iff_exists'.1 wanted
    rw [hpath] at sheet ⊢
    rw [Workplace.printout_putWanted? named, Workplace.printout_put? sheet, fresh]
    simp [Printout.write, Printout.text]
  printed := by
    intro unwanted
    rw [unwanted] at sheet
    cases sheet
    refine ⟨(w.printout.print css).shown, (w.printout.print css).held, ?_, ?_⟩
    · have printed := Printout.text_print w.printout css
      simpa [fresh, Printout.text] using printed
    · rw [Workplace.printout_putWanted? named, Printout.write, Printout.text]

end Invocation

/-! ## How the command ends -/

/-- The paths that a request names for what it writes. -/
def Request.outputs : Request → List String
  | .compile i => i.output.toList ++ i.names.toList
  | .help | .version | .usageError => []

namespace Workplace

variable {i : Invocation} {unseeded : Generator} {w v : Workplace}

/-- How the command ends after a run. -/
def exitOf : Except Failure Unit → Exit
  | .ok () => .success
  | .error f => .failure f

/-- The command ends as its run does. -/
theorem serve_compile_of_run {result : Except Failure Unit}
    (h : (i.run host (i.generator unseeded)).run w = (result, v)) :
    w.serve unseeded (.compile i) = (exitOf result, v) := by
  rw [serve, Request.run, Invocation.run_bind_of_run h]
  cases result <;> rfl

/-- The command ends in one of the ways of a run. -/
theorem ends_serve (i : Invocation) (unseeded : Generator) (w : Workplace) :
    ∃ result v, i.Ends (i.generator unseeded) w result v ∧
      w.serve unseeded (.compile i) = (exitOf result, v) :=
  ⟨_, _, i.ends_run (i.generator unseeded) w, serve_compile_of_run rfl⟩

/-- A run that ends well has written all. -/
theorem compiles_of_success (h : (w.serve unseeded (.compile i)).1.code = 0) :
    ∃ d names css v, i.Compiles (i.generator unseeded) w d names css ∧
      w.putSheet? i.output css = some v ∧
      v.putWanted? i.names names.toText = some (w.serve unseeded (.compile i)).2 := by
  obtain ⟨result, u, ends, served⟩ := ends_serve i unseeded w
  rw [served] at h ⊢
  cases ends with
  | done compiles sheet named => exact ⟨_, _, _, _, compiles, sheet, named⟩
  | _ => cases h

/-- A run that can write what its input compiles to ends well. -/
theorem serve_of_compiles {d : Document} {names : DocumentNames} {css : String} {u : Workplace}
    (compiles : i.Compiles (i.generator unseeded) w d names css)
    (sheet : w.putSheet? i.output css = some v)
    (named : v.putWanted? i.names names.toText = some u) :
    w.serve unseeded (.compile i) = (.success, u) := by
  obtain ⟨f, f', ends⟩ := Invocation.run_of_compiles compiles
  rw [sheet, Option.elim_some, named, Option.elim_some] at ends
  exact serve_compile_of_run ends

/-- No request changes any other files than those that it names, however it ends. -/
theorem changesOnly_serve (request : Request) (unseeded : Generator) (w : Workplace) :
    ChangesOnly request.outputs w (w.serve unseeded request).2 := by
  cases request with
  | help => exact changesOnly_print _ w helpText
  | version => exact changesOnly_print _ w versionText
  | usageError => exact fun _ _ => rfl
  | compile i =>
    have output : ∀ path ∈ i.output, path ∈ (Request.compile i).outputs := by
      simp +contextual [Request.outputs]
    have names : ∀ path ∈ i.names, path ∈ (Request.compile i).outputs := by
      simp +contextual [Request.outputs]
    obtain ⟨result, u, ends, served⟩ := ends_serve i unseeded w
    rw [served]
    cases ends with
    | unfit f h => rfl
    | sheetUnwritten f compiles sheet => rfl
    | namesUnwritten f compiles sheet unnamed => exact changesOnly_putSheet? output sheet
    | done compiles sheet named =>
      exact (changesOnly_putSheet? output sheet).trans (changesOnly_putWanted? names named)

/-- Where a style sheet can be put, another one can be, too. -/
theorem exists_putSheet? {path : Option String} {css css' : String}
    (h : w.putSheet? path css = some v) (empty : css = "" → css' = "") :
    ∃ v', w.putSheet? path css' = some v' := by
  cases path with
  | none => exact ⟨_, rfl⟩
  | some path => exact exists_put? h empty w

/-- A text that can be put where it is wanted in one workplace can be put there in any other. -/
theorem exists_putWanted? {path : Option String} {text : String}
    (h : w.putWanted? path text = some v) (w' : Workplace) :
    ∃ v', w'.putWanted? path text = some v' := by
  cases path with
  | none => exact ⟨_, rfl⟩
  | some path => exact exists_put? h id w'

end Workplace

/-- With minifying on top, an input compiles to the same names. -/
theorem Invocation.Compiles.minified {i : Invocation} {g : Generator} {w : Workplace}
    {d : Document} {names : DocumentNames} {css : String} (h : i.Compiles g w d names css)
    (plain : i.minify = false) :
    ∃ css', { i with minify := true }.Compiles g w d names css' ∧ (css = "" → css' = "") ∧
      (¬ d.TurnsMinifyingOn → d.NoLineFeed → css' = StyleTree.minify css) := by
  obtain ⟨source, result, css_eq⟩ := h
  have overrides : i.overrides = .empty := by
    rw [Invocation.overrides, plain]
    rfl
  obtain ⟨result_eq, css₀, css', sheet, sheet', empty, layout⟩ :=
    Session.compileDocument_minifying d g
  rw [overrides] at result css_eq
  rw [Session.css?, sheet, Option.some.injEq] at css_eq
  subst css_eq
  refine ⟨css', ⟨source, result_eq.trans result, ?_⟩, empty, layout⟩
  show ((Session.new (.sheet "") g).compileDocument d .minifying).session.css? = some css'
  rw [Session.css?, sheet']

end StyleTree
