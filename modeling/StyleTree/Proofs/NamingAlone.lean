import StyleTree.Proofs.IssuedNames
import StyleTree.Proofs.Results

/-! # Naming alone

A batch names its entries and writes them in turns, but what is written has no say in the names. So
the names and the letters drawn for them are those that the keys alone would have been given; and if
the batch fails, those that the keys up to the failing entry would have been given.

* **`Reservation.nameAll`** names keys, with nothing to be written.
* **`Batch.nameAll_of_run`** compares it with a batch that completes.
* **`Batch.FailsAt`** says where and how a batch fails, and **`Batch.FailsAt.generator_eq`**
  compares the letters drawn until then.
* **`Batch.named_of_failure?_eq`** compares two batches whose entries fail alike. -/

namespace StyleTree

/-- What comes of naming keys. -/
structure Naming where
  /-- The names by their keys and the reservation with them staged, or the first error. -/
  result : Except Error (Table String × Reservation)
  /-- The generator after all letters that were drawn. -/
  generator : Generator

/-- Ask for a name for each key, one after another. -/
def Reservation.nameAll (r : Reservation) (obfuscate : Bool) (g : Generator) :
    List String → Naming
  | [] => ⟨.ok ([], r), g⟩
  | base :: rest =>
    let issue := r.issue obfuscate base g
    match issue.name with
    | .error e => ⟨.error e, issue.generator⟩
    | .ok name =>
      let later := nameAll issue.reservation obfuscate issue.generator rest
      ⟨later.result.map fun (names, r) => ((base, name) :: names, r), later.generator⟩

namespace Reservation

variable {r : Reservation} {obfuscate : Bool} {g : Generator} {base : String}

@[simp] theorem nameAll_nil (r : Reservation) (obfuscate : Bool) (g : Generator) :
    r.nameAll obfuscate g [] = ⟨.ok ([], r), g⟩ := rfl

/-- A key without a name is the last one that letters are drawn for. -/
theorem generator_nameAll_of_error {e : Error} (h : (r.issue obfuscate base g).name = .error e)
    (rest : List String) :
    (r.nameAll obfuscate g (base :: rest)).generator = (r.issue obfuscate base g).generator := by
  simp only [nameAll, h]

/-- After a key with a name the others are named. -/
theorem nameAll_of_ok {name : String} (h : (r.issue obfuscate base g).name = .ok name)
    (rest : List String) :
    r.nameAll obfuscate g (base :: rest) =
      let later := (r.issue obfuscate base g).reservation.nameAll obfuscate
        (r.issue obfuscate base g).generator rest
      ⟨later.result.map fun (names, r) => ((base, name) :: names, r), later.generator⟩ := by
  simp only [nameAll, h]

end Reservation

namespace Batch

variable {α : Type} {w : EntryWriter α} {obfuscate : Bool} {r : Reservation} {g : Generator}
  {entries : Table α} {e : Error}

/-- A batch that completes has issued the names that its keys alone are given, with the same
letters. -/
theorem nameAll_of_run {made : Generated} {r' : Reservation}
    (h : (run w obfuscate r g entries).result = .ok (made, r')) :
    r.nameAll obfuscate g (Table.keys entries) =
      ⟨.ok (made.names, r'), (run w obfuscate r g entries).generator⟩ := by
  induction entries generalizing r g made with
  | nil =>
    simp only [run_nil, Batch.done, Except.ok.injEq, Prod.mk.injEq] at h
    obtain ⟨rfl, rfl⟩ := h
    rfl
  | cons head rest ih =>
    obtain ⟨base, entry⟩ := head
    obtain ⟨name, css, later, hname, hcss, hlater, rfl⟩ := run_cons_ok.1 h
    rw [Table.keys_cons, Reservation.nameAll_of_ok hname, ih hlater]
    simp only [run, hname, hcss, prepend]
    rfl

/-- A batch **fails at** its `n`-th entry if each entry before has a name and a text under it, and
this one has no name or no text. -/
inductive FailsAt (w : EntryWriter α) (obfuscate : Bool) :
    Reservation → Generator → Table α → Nat → Error → Prop
  /-- The first entry has no name. -/
  | unnamed {r : Reservation} {g : Generator} {base : String} {entry : α} {rest : Table α}
      {e : Error} (unnamed : (r.issue obfuscate base g).name = .error e) :
    FailsAt w obfuscate r g ((base, entry) :: rest) 1 e
  /-- The first entry has no text under its name. -/
  | unwritten {r : Reservation} {g : Generator} {base name : String} {entry : α} {rest : Table α}
      {e : Error} (named : (r.issue obfuscate base g).name = .ok name)
      (unwritten : w.text name entry = .error e) :
    FailsAt w obfuscate r g ((base, entry) :: rest) 1 e
  /-- The first entry has both, and a later one has not. -/
  | later {r : Reservation} {g : Generator} {base name css : String} {entry : α} {rest : Table α}
      {n : Nat} {e : Error} (named : (r.issue obfuscate base g).name = .ok name)
      (written : w.text name entry = .ok css)
      (later : FailsAt w obfuscate (r.issue obfuscate base g).reservation
        (r.issue obfuscate base g).generator rest n e) :
    FailsAt w obfuscate r g ((base, entry) :: rest) (n + 1) e

/-- A batch that fails, fails at one of its entries. -/
theorem failsAt_of_run (h : (run w obfuscate r g entries).result = .error e) :
    ∃ n, FailsAt w obfuscate r g entries n e := by
  induction entries generalizing r g with
  | nil => simp [Batch.done] at h
  | cons head rest ih =>
    obtain ⟨base, entry⟩ := head
    obtain unnamed | ⟨name, hname, unwritten | ⟨css, hcss, failed⟩⟩ := run_cons_error.1 h
    · exact ⟨1, .unnamed unnamed⟩
    · exact ⟨1, .unwritten hname unwritten⟩
    · obtain ⟨n, fails⟩ := ih failed
      exact ⟨n + 1, .later hname hcss fails⟩

namespace FailsAt

variable {n : Nat}

/-- A batch that fails at an entry fails with its error. -/
theorem result_eq (h : FailsAt w obfuscate r g entries n e) :
    (run w obfuscate r g entries).result = .error e := by
  induction h with
  | unnamed unnamed => exact run_cons_error.2 (.inl unnamed)
  | unwritten named unwritten => exact run_cons_error.2 (.inr ⟨_, named, .inl unwritten⟩)
  | later named written later ih => exact run_cons_error.2 (.inr ⟨_, named, .inr ⟨_, written, ih⟩⟩)

/-- A batch that fails at an entry has drawn the letters for the keys up to this entry, whatever was
written. -/
theorem generator_eq (h : FailsAt w obfuscate r g entries n e) :
    (run w obfuscate r g entries).generator =
      (r.nameAll obfuscate g ((Table.keys entries).take n)).generator := by
  induction h with
  | unnamed unnamed =>
    rw [Table.keys_cons, List.take_succ_cons, Reservation.generator_nameAll_of_error unnamed]
    simp only [run, unnamed]
  | unwritten named unwritten =>
    rw [Table.keys_cons, List.take_succ_cons, Reservation.nameAll_of_ok named]
    simp only [run, named, unwritten, List.take_zero, Reservation.nameAll_nil]
  | later named written later ih =>
    rw [Table.keys_cons, List.take_succ_cons, Reservation.nameAll_of_ok named]
    simp only [run, named, written, prepend]
    exact ih

/-- A batch whose entries fail alike fails at the same entry. -/
theorem of_failure?_eq {w' : EntryWriter α} (h : FailsAt w obfuscate r g entries n e)
    (alike : ∀ name entry,
      Result.failure? (w'.text name entry) = Result.failure? (w.text name entry)) :
    FailsAt w' obfuscate r g entries n e := by
  induction h with
  | unnamed unnamed => exact .unnamed unnamed
  | @unwritten r g base name entry rest e named unwritten =>
    have fails := alike name entry
    rw [unwritten, Result.failure?_error, Result.failure?_eq_some_iff] at fails
    exact .unwritten named fails
  | @later r g base name css entry rest n e named written later ih =>
    have writes := alike name entry
    rw [written, Result.failure?_ok, Result.failure?_eq_none_iff] at writes
    obtain ⟨css', written'⟩ := writes
    exact .later named written' ih

end FailsAt

/-- Batches whose entries fail alike issue the same names, draw the same letters and end in the same
error. -/
theorem named_of_failure?_eq {w' : EntryWriter α} (obfuscate : Bool) (r : Reservation)
    (g : Generator) (entries : Table α)
    (alike : ∀ name entry,
      Result.failure? (w'.text name entry) = Result.failure? (w.text name entry)) :
    ((run w' obfuscate r g entries).result.map fun made => (made.1.names, made.2)) =
        ((run w obfuscate r g entries).result.map fun made => (made.1.names, made.2)) ∧
      (run w' obfuscate r g entries).generator = (run w obfuscate r g entries).generator := by
  cases hrun : (run w obfuscate r g entries).result with
  | error e =>
    obtain ⟨n, fails⟩ := failsAt_of_run hrun
    have fails' := fails.of_failure?_eq alike
    rw [fails'.result_eq, fails'.generator_eq, fails.generator_eq]
    exact ⟨rfl, rfl⟩
  | ok made =>
    cases hrun' : (run w' obfuscate r g entries).result with
    | error e =>
      obtain ⟨n, fails'⟩ := failsAt_of_run hrun'
      have fails := fails'.of_failure?_eq fun name entry => (alike name entry).symm
      rw [fails.result_eq] at hrun
      cases hrun
    | ok made' =>
      -- both have named the keys, and nothing else decides about names and letters
      have naming := nameAll_of_run hrun
      rw [nameAll_of_run hrun', Naming.mk.injEq, Except.ok.injEq] at naming
      exact ⟨congrArg Except.ok naming.1, naming.2⟩

end Batch

end StyleTree
