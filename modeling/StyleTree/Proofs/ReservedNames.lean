import StyleTree.Proofs.FirstFreeName

/-! # Reserved names

A reservation can be asked for name after name, whether or not it has one to give. It stages the
names that it hands out and no others. They come into the registry if the reservation is committed,
and are forgotten if it is dropped.

* **`Reservation.issueAll`** asks for names; `Reservation.reservation_issueAll` says what is staged
  then, and `Reservation.issueAll_without` that a request for a taken name might as well not be
  made.
* **`NamePool.run`** follows a registry through reservations and direct insertions;
  `NamePool.names_run` says which names it has gained.
* **`returned_names_staged`** is the main result. -/

namespace StyleTree

/-- A name to ask for. -/
structure NameCall where
  /-- The base of the name. -/
  base : String
  /-- Whether it is to have random letters. -/
  obfuscate : Bool
deriving DecidableEq, Repr

/-- What comes of asking for names. -/
structure Round where
  /-- The answers, in order. -/
  answers : List (Except Error String)
  /-- The reservation with all names staged. -/
  reservation : Reservation
  /-- The generator after all letters that were drawn. -/
  generator : Generator

/-- The names that were handed out, in order. -/
def Round.returned (o : Round) : List String := o.answers.filterMap Except.toOption

namespace Reservation

variable {r : Reservation} {g : Generator}

/-! ## One request -/

/-- A plain name that is taken is refused. -/
theorem issue_plain_of_taken {base : String} (h : r.isTaken base = true) (g : Generator) :
    r.issue false base g = ⟨.error (.nameConflict r.kind base), r, g, []⟩ := by
  rw [issue, if_neg Bool.false_ne_true, issuePlain, if_pos h]

/-- A plain name that is free is issued as it is. -/
theorem issue_plain_of_free {base : String} (h : r.isTaken base = false) (g : Generator) :
    r.issue false base g = ⟨.ok base, r.stage base, g, []⟩ := by
  rw [issue, if_neg Bool.false_ne_true, issuePlain, if_neg (Bool.not_eq_true _ ▸ h)]

/-- Without random letters a request fails exactly if its base is taken. -/
theorem issue_plain_error_iff {base : String} :
    (∃ e, (r.issue false base g).name = .error e) ↔ r.isTaken base = true := by
  cases taken : r.isTaken base with
  | true => simp [issue_plain_of_taken taken]
  | false => simp [issue_plain_of_free taken]

/-- A request that fails stages nothing. -/
theorem reservation_of_issue_error {obfuscate : Bool} {base : String} {e : Error}
    (h : (r.issue obfuscate base g).name = .error e) :
    (r.issue obfuscate base g).reservation = r := by
  cases obfuscate with
  | false => rw [issue_plain_of_taken (issue_plain_error_iff.1 ⟨e, h⟩)]
  | true =>
    rw [issue, if_pos rfl, issueObfuscated] at h ⊢
    cases hfound : (r.search base Keystream.period g).found with
    | none => rfl
    | some name => rw [hfound] at h; cases h

/-! ## Requests one after the other -/

/-- Ask for names, one after the other; a failure does not stop those behind it. -/
def issueAll (r : Reservation) (g : Generator) : List NameCall → Round
  | [] => ⟨[], r, g⟩
  | call :: rest =>
    let issue := r.issue call.obfuscate call.base g
    let later := issueAll issue.reservation issue.generator rest
    { later with answers := issue.name :: later.answers }

@[simp] theorem issueAll_nil (r : Reservation) (g : Generator) : r.issueAll g [] = ⟨[], r, g⟩ := rfl

/-- Names are asked for one part after the other. -/
theorem issueAll_append (r : Reservation) (g : Generator) (earlier later : List NameCall) :
    r.issueAll g (earlier ++ later) =
      { (r.issueAll g earlier).reservation.issueAll (r.issueAll g earlier).generator later with
        answers := (r.issueAll g earlier).answers ++
          ((r.issueAll g earlier).reservation.issueAll (r.issueAll g earlier).generator
            later).answers } := by
  induction earlier generalizing r g with
  | nil => rfl
  | cons call rest ih => rw [List.cons_append, issueAll, ih]; rfl

/-- Every request is answered. -/
@[simp] theorem length_answers (r : Reservation) (g : Generator) (calls : List NameCall) :
    (r.issueAll g calls).answers.length = calls.length := by
  induction calls generalizing r g with
  | nil => rfl
  | cons call rest ih => rw [issueAll, List.length_cons, ih, List.length_cons]

/-- Each request has its own answer. -/
theorem getElem?_answers (r : Reservation) (g : Generator) (earlier later : List NameCall)
    (call : NameCall) :
    (r.issueAll g (earlier ++ call :: later)).answers[earlier.length]? =
      some ((r.issueAll g earlier).reservation.issue call.obfuscate call.base
        (r.issueAll g earlier).generator).name := by
  have here := length_answers r g earlier
  rw [issueAll_append, List.getElem?_append_right (Nat.le_of_eq here), here, Nat.sub_self]
  rfl

/-! ## What is staged -/

/-- Exactly the names that are handed out are staged, behind those that were staged before. -/
theorem reservation_issueAll (r : Reservation) (g : Generator) (calls : List NameCall) :
    (r.issueAll g calls).reservation =
      { r with staged := r.staged ++ (r.issueAll g calls).returned } := by
  induction calls generalizing r g with
  | nil => simp [Round.returned]
  | cons call rest ih =>
    rw [issueAll, ih]
    cases hname : (r.issue call.obfuscate call.base g).name with
    | error e => rw [reservation_of_issue_error hname]; rfl
    | ok name =>
      obtain ⟨-, -, staged⟩ := issue_ok hname
      rw [staged, Round.returned, Round.returned, stage, List.append_assoc]
      rfl

/-- Asking for names stages none that is taken. -/
theorem Fresh.issueAll (h : r.Fresh) (g : Generator) (calls : List NameCall) :
    (r.issueAll g calls).reservation.Fresh := by
  induction calls generalizing r g with
  | nil => exact h
  | cons call rest ih =>
    rw [Reservation.issueAll]
    refine ih ?_ _
    cases hname : (r.issue call.obfuscate call.base g).name with
    | error e => rwa [reservation_of_issue_error hname]
    | ok name =>
      obtain ⟨free, -, staged⟩ := issue_ok hname
      rw [staged]
      exact h.stage free

/-- A request for a taken base might as well not be made. -/
theorem issueAll_without {base : String} {earlier : List NameCall}
    (h : (r.issueAll g earlier).reservation.isTaken base = true) (later : List NameCall) :
    r.issueAll g (earlier ++ later) =
      { r.issueAll g (earlier ++ ⟨base, false⟩ :: later) with
        answers :=
          (r.issueAll g (earlier ++ ⟨base, false⟩ :: later)).answers.eraseIdx earlier.length } := by
  have here := length_answers r g earlier
  -- the reservation and the generator are handed on as they were before the request
  rw [issueAll_append, issueAll_append, issueAll, issue_plain_of_taken h,
    List.eraseIdx_append_of_length_le (Nat.le_of_eq here), here, Nat.sub_self,
    List.eraseIdx_cons_zero]

end Reservation

/-! ## Registries in use -/

/-- A registry, and the random letters that are to come. -/
structure NamePool where
  /-- The names recorded so far. -/
  registry : Registry
  /-- The source of random letters. -/
  generator : Generator

/-- What can be done to a registry in one go. -/
inductive NamePool.Step
  /-- Record a name. -/
  | insert (name : String)
  /-- Reserve names, and then commit the reservation or drop it. -/
  | batch (kind : NameKind) (calls : List NameCall) (committed : Bool)
deriving DecidableEq, Repr

namespace NamePool

/-- Ask a new reservation for names. -/
def round (p : NamePool) (kind : NameKind) (calls : List NameCall) : Round :=
  (p.registry.reserve kind).issueAll p.generator calls

/-- Take a step. A reservation that is dropped gives back the registry that it was made for. -/
def step (p : NamePool) : Step → NamePool
  | .insert name => { p with registry := p.registry.insert name }
  | .batch kind calls true =>
    ⟨(p.round kind calls).reservation.commit, (p.round kind calls).generator⟩
  | .batch kind calls false =>
    ⟨(p.round kind calls).reservation.registry, (p.round kind calls).generator⟩

/-- Take steps, one after the other. -/
def run (p : NamePool) (steps : List Step) : NamePool := steps.foldl step p

/-- The names that a step brings into the registry, in order: one that is not recorded yet, or those
that a reservation has handed out before it was committed. -/
def gained (p : NamePool) : Step → List String
  | .insert name => if name ∈ p.registry.names then [] else [name]
  | .batch kind calls true => (p.round kind calls).returned
  | .batch _ _ false => []

/-- The names that steps bring into the registry, in order. -/
def gainedAll (p : NamePool) : List Step → List String
  | [] => []
  | step :: rest => p.gained step ++ gainedAll (p.step step) rest

variable (p : NamePool) (kind : NameKind) (calls : List NameCall)

/-- What a round stages is fresh. -/
theorem fresh_round : (p.round kind calls).reservation.Fresh :=
  (Reservation.fresh_reserve p.registry kind).issueAll p.generator calls

/-- A new reservation has staged the names that it has handed out. -/
theorem reservation_round :
    (p.round kind calls).reservation = ⟨kind, p.registry, (p.round kind calls).returned⟩ :=
  Reservation.reservation_issueAll (p.registry.reserve kind) p.generator calls

/-- The names handed out differ from each other and from those recorded before. -/
theorem nodup_names_returned : (p.registry.names ++ (p.round kind calls).returned).Nodup := by
  have fresh := p.fresh_round kind calls
  rwa [reservation_round] at fresh

/-- Taken are the names that were recorded before and those handed out since. -/
theorem isTaken_round {name : String} :
    (p.round kind calls).reservation.isTaken name = true ↔
      name ∈ p.registry.names ∨ name ∈ (p.round kind calls).returned := by
  rw [reservation_round, Reservation.isTaken_iff]

/-- A round committed registers what it returned, in that order. -/
theorem names_commit_round :
    (p.round kind calls).reservation.commit.names =
      p.registry.names ++ (p.round kind calls).returned := by
  rw [Reservation.names_commit (p.fresh_round kind calls), reservation_round]

/-- A round in progress leaves the registry as it is. -/
theorem registry_round : (p.round kind calls).reservation.registry = p.registry := by
  rw [reservation_round]

/-- A step brings the names that it gains into the registry, and no others. -/
theorem names_step (step : Step) :
    (p.step step).registry.names = p.registry.names ++ p.gained step := by
  cases step with
  | insert name =>
    rw [gained, NamePool.step]
    split
    · next recorded => rw [Registry.insert_of_mem recorded, List.append_nil]
    · next new => rw [Registry.names_insert_of_not_mem new]
  | batch kind calls committed =>
    cases committed with
    | true => exact p.names_commit_round kind calls
    | false =>
      rw [gained, NamePool.step, registry_round, List.append_nil]

/-- A run brings the names that its steps gain into the registry, and no others. -/
theorem names_run (steps : List Step) :
    (p.run steps).registry.names = p.registry.names ++ p.gainedAll steps := by
  induction steps generalizing p with
  | nil => rw [gainedAll, List.append_nil]; rfl
  | cons step rest ih =>
    rw [run, List.foldl_cons, ← run, ih, names_step, gainedAll, List.append_assoc]

end NamePool

/-- Reservations stage exactly the names they hand out. In a run of reservations, each committed or
dropped, and of names inserted between them, the registry gains the names inserted and those handed
out by the reservations that are committed, each once and no others. Wherever a reservation stands
in the run, it has staged the names that it has handed out; they differ from each other and from the
names recorded before it. Committing it records just these names, and dropping it leaves the
registry as it was. A request that fails stages nothing. With random letters it fails if and only if
its search would never end. Without them it draws no letters and fails if and only if its base was
recorded before or has been handed out since; and if it fails, all other requests are answered as if
it had not been made. -/
theorem returned_names_staged (p : NamePool) :
    (∀ steps, (p.run steps).registry.names = p.registry.names ++ p.gainedAll steps) ∧
    ∀ (steps : List NamePool.Step) (kind : NameKind) (calls : List NameCall),
      let q := p.run steps
      let o := q.round kind calls
      o.answers.length = calls.length ∧ o.reservation.staged = o.returned ∧
      o.returned.Nodup ∧ (∀ name ∈ o.returned, name ∉ q.registry.names) ∧
      (q.step (.batch kind calls true)).registry.names = q.registry.names ++ o.returned ∧
      (q.step (.batch kind calls true)).registry.size = q.registry.size + o.returned.length ∧
      (q.step (.batch kind calls false)).registry = q.registry ∧
      ∀ earlier call later, calls = earlier ++ call :: later →
        let before := q.round kind earlier
        let issue := before.reservation.issue call.obfuscate call.base before.generator
        o.answers[earlier.length]? = some issue.name ∧
        (∀ e, issue.name = .error e → issue.reservation = before.reservation) ∧
        (call.obfuscate = true →
          ((∃ e, issue.name = .error e) ↔ ∀ tries,
            (before.reservation.search call.base tries before.generator).found = none)) ∧
        (call.obfuscate = false →
          issue.generator = before.generator ∧
          ((∃ e, issue.name = .error e) ↔
            call.base ∈ q.registry.names ∨ call.base ∈ before.returned) ∧
          ∀ e, issue.name = .error e →
            e = .nameConflict kind call.base ∧
              q.round kind (earlier ++ later) =
                { o with answers := o.answers.eraseIdx earlier.length }) := by
  refine ⟨p.names_run, fun steps kind calls => ?_⟩
  intro q o
  -- registered and returned names together repeat none, which gives the third and fourth part
  have distinct := List.nodup_append.1 (q.nodup_names_returned kind calls)
  refine ⟨Reservation.length_answers ..,
    congrArg Reservation.staged (q.reservation_round kind calls), distinct.2.1, ?_, q.names_commit_round kind calls, ?_, q.registry_round kind calls, ?_⟩
  · intro name returned recorded
    exact distinct.2.2 name recorded name returned rfl
  · rw [Registry.size, NamePool.step, NamePool.names_commit_round, List.length_append]
    rfl
  · rintro earlier ⟨base, obfuscate⟩ later rfl
    intro before issue
    refine ⟨Reservation.getElem?_answers ..,
      fun e failed => Reservation.reservation_of_issue_error failed, ?_, ?_⟩
    · -- with letters: the search decides
      rintro ⟨⟩
      exact Reservation.issue_error_iff.trans Reservation.search_never_finds_iff.symm
    · -- without letters: the base itself is taken or it is issued
      rintro ⟨⟩
      refine ⟨Reservation.generator_issue_plain .., ?_, fun e failed => ?_⟩
      · rw [Reservation.issue_plain_error_iff, NamePool.isTaken_round]
      · have taken := Reservation.issue_plain_error_iff.1 ⟨e, failed⟩
        have conflict :=
          congrArg Issue.name (Reservation.issue_plain_of_taken taken before.generator)
        rw [show before.reservation.kind = kind by rw [NamePool.reservation_round]] at conflict
        exact ⟨Except.error.inj (failed.symm.trans conflict),
          Reservation.issueAll_without taken later⟩

/-- A name that was made with random letters is handed out, and its base after it; the name itself
is not handed out again. A name whose reservation was dropped is free. -/
theorem returned_names_staged_conflict :
    let p : NamePool := ⟨Registry.empty.insert "spin", .ofSeed 9⟩
    let q := p.run [.insert "nav", .batch .animation [⟨"box", false⟩] false]
    let calls : List NameCall := [⟨"box", true⟩, ⟨"box_pquat", false⟩, ⟨"box", false⟩]
    let before := q.round .styleClass [⟨"box", true⟩]
    let o := q.round .styleClass calls
    q.registry.names = ["spin", "nav"] ∧ o.returned = ["box_pquat", "box"] ∧
      (q.step (.batch .styleClass calls true)).registry.names =
        ["spin", "nav", "box_pquat", "box"] ∧
      (q.step (.batch .styleClass calls false)).registry = q.registry ∧
      (before.reservation.issue false "box_pquat" before.generator).name =
        .error (.nameConflict .styleClass "box_pquat") ∧
      (∃ tries, ((q.registry.reserve .styleClass).search "box" tries q.generator).found ≠ none) ∧
      q.round .styleClass [⟨"box", true⟩, ⟨"box", false⟩] =
        { o with answers := o.answers.eraseIdx 1 } := by
  intro p q calls before o
  have names_eq : q.registry.names = ["spin", "nav"] := by decide +kernel
  have generator_eq : q.generator = .ofSeed 9 := Reservation.generator_issue_plain ..
  have candidate_eq : q.generator.candidate "box" 0 = "box_pquat" := by
    rw [generator_eq, Generator.candidate, Generator.block_eq_take_drop (n := 15) (by decide),
      Generator.letters_ofSeed_nine]
    rfl
  have free : (q.registry.reserve .styleClass).Free (q.generator.candidate "box" 0) := by
    rw [candidate_eq, Reservation.free_iff]
    decide +kernel
  have issued := Reservation.issue_of_first_free free fun _ h => absurd h (Nat.not_lt_zero _)
  rw [candidate_eq] at issued
  -- only the first request draws letters, so the others can be evaluated
  have before_eq : before.returned = ["box_pquat"] := by
    show Round.returned ((q.registry.reserve .styleClass).issueAll q.generator [⟨"box", true⟩]) = _
    rw [Reservation.issueAll, issued]
    rfl
  have returned_eq : o.returned = ["box_pquat", "box"] := by
    show Round.returned ((q.registry.reserve .styleClass).issueAll q.generator
      [⟨"box", true⟩, ⟨"box_pquat", false⟩, ⟨"box", false⟩]) = _
    rw [Reservation.issueAll, issued]
    rfl
  obtain ⟨-, -, -, -, committed, -, dropped, each⟩ :=
    (returned_names_staged p).2 [.insert "nav", .batch .animation [⟨"box", false⟩] false]
      .styleClass calls
  have letters_iff := (each [] ⟨"box", true⟩ _ rfl).2.2.1 rfl
  obtain ⟨-, fails_iff, fails⟩ := (each [⟨"box", true⟩] ⟨"box_pquat", false⟩ _ rfl).2.2.2 rfl
  obtain ⟨e, failed⟩ := fails_iff.2 (.inr (before_eq ▸ .head _))
  obtain ⟨rfl, without⟩ := fails e failed
  refine ⟨names_eq, returned_eq, ?_, dropped, failed, ?_, without⟩
  · rw [committed, returned_eq, show (p.run _).registry.names = _ from names_eq]
    rfl
  · by_contra never
    obtain ⟨e, failed⟩ := letters_iff.2 (not_exists_not.1 never)
    cases issued.symm ▸ failed

end StyleTree
