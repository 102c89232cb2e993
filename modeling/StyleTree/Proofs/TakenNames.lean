import StyleTree.Proofs.IssuedNames

/-! # Taken names

A reservation asks only which names are **taken**, not whether they are recorded or just staged. So
a batch comes out alike whether the names before it were staged in the same reservation or have been
committed since.

* **`Reservation.Interchangeable`** is the relation between reservations in which the same names are
  taken; `Reservation.Fresh.interchangeable_commit` is the case of committed names.
* **`Batch.run_interchangeable`** says that a batch comes out alike in both. -/

namespace StyleTree

namespace Reservation

variable {r r' : Reservation}

/-- The names that are taken, in the order in which they were issued. -/
def taken (r : Reservation) : List String := r.registry.names ++ r.staged

/-- A name is taken if it is among the taken ones. -/
theorem isTaken_iff_mem_taken {name : String} : r.isTaken name = true ↔ name ∈ r.taken := by
  rw [isTaken_iff, taken, List.mem_append]

/-- Two reservations are **interchangeable** if they are for the same kind of things and the same
names are taken in them. -/
structure Interchangeable (r r' : Reservation) : Prop where
  kind_eq : r'.kind = r.kind
  taken_eq : r'.taken = r.taken

namespace Interchangeable

/-- Reservations are interchangeable both ways. -/
@[symm] theorem symm (h : r.Interchangeable r') : r'.Interchangeable r :=
  ⟨h.kind_eq.symm, h.taken_eq.symm⟩

/-- The same names are taken in interchangeable reservations. -/
theorem isTaken_eq (h : r.Interchangeable r') (name : String) :
    r'.isTaken name = r.isTaken name := by
  rw [Bool.eq_iff_iff, isTaken_iff_mem_taken, isTaken_iff_mem_taken, h.taken_eq]

/-- A name staged in both leaves reservations interchangeable. -/
theorem stage (h : r.Interchangeable r') (name : String) :
    (r.stage name).Interchangeable (r'.stage name) := by
  refine ⟨h.kind_eq, ?_⟩
  have appended (r : Reservation) : (r.stage name).taken = r.taken ++ [name] :=
    (List.append_assoc ..).symm
  rw [appended, appended, h.taken_eq]

/-- The same candidates are passed over in the search for a name. -/
theorem search_eq (h : r.Interchangeable r') (base : String) (tries : Nat) (g : Generator) :
    r'.search base tries g = r.search base tries g := by
  induction tries generalizing g with
  | zero => rfl
  | succ tries ih =>
    have same := h.isTaken_eq (obfuscatedName base (g.letters suffixLength).1)
    cases htaken : r.isTaken (obfuscatedName base (g.letters suffixLength).1) with
    | true => rw [search_of_taken htaken, search_of_taken (same.trans htaken), ih]
    | false => rw [search_of_free htaken, search_of_free (same.trans htaken)]

/-- The same name is issued, and the same letters are drawn for it. -/
theorem issue (h : r.Interchangeable r') (obfuscate : Bool) (base : String) (g : Generator) :
    (r'.issue obfuscate base g).name = (r.issue obfuscate base g).name ∧
      (r'.issue obfuscate base g).generator = (r.issue obfuscate base g).generator ∧
      (r.issue obfuscate base g).reservation.Interchangeable
        (r'.issue obfuscate base g).reservation := by
  cases obfuscate with
  | false =>
    simp only [Reservation.issue, Bool.false_eq_true, ↓reduceIte, issuePlain, h.isTaken_eq]
    split
    · exact ⟨by rw [h.kind_eq], rfl, h⟩
    · exact ⟨rfl, rfl, h.stage base⟩
  | true =>
    simp only [Reservation.issue, ↓reduceIte, issueObfuscated, h.search_eq]
    cases (r.search base Keystream.period g).found with
    | none => exact ⟨by rw [h.kind_eq], rfl, h⟩
    | some name => exact ⟨rfl, rfl, h.stage name⟩

/-- Interchangeable reservations commit the same names. -/
theorem commit_eq (h : r.Interchangeable r') (fresh : r.Fresh) : r'.commit = r.commit := by
  have fresh' : r'.Fresh := by
    have nodup : r.taken.Nodup := fresh
    rwa [← h.taken_eq] at nodup
  apply Registry.ext_names
  rw [names_commit fresh, names_commit fresh']
  exact h.taken_eq

end Interchangeable

/-- Names that have been committed are as taken as they were when they were staged. -/
theorem Fresh.interchangeable_commit (fresh : r.Fresh) :
    (r.commit.reserve r.kind).Interchangeable r := by
  refine ⟨rfl, ?_⟩
  rw [taken, taken, Registry.reserve, List.append_nil, names_commit fresh]

end Reservation

namespace Batch

variable {α : Type} {r r' : Reservation}

/-- Two batches **come out alike** if they fail with the same error, or make the same and leave
interchangeable reservations. -/
inductive Alike : Except Error (Generated × Reservation) →
    Except Error (Generated × Reservation) → Prop
  | error (e : Error) : Alike (.error e) (.error e)
  | ok (made : Generated) {q q' : Reservation} (left : q.Interchangeable q') :
    Alike (.ok (made, q)) (.ok (made, q'))

/-- What fails in one of two batches that come out alike fails in the other. -/
theorem Alike.error_right {x x' : Except Error (Generated × Reservation)} {e : Error}
    (h : Alike x x') (hx : x = .error e) : x' = .error e := by
  cases h with
  | error e' => exact hx
  | ok made left => cases hx

/-- What one of two batches that come out alike makes, the other makes too. -/
theorem Alike.ok_right {x x' : Except Error (Generated × Reservation)} {made : Generated}
    {q : Reservation} (h : Alike x x') (hx : x = .ok (made, q)) :
    ∃ q', x' = .ok (made, q') ∧ q.Interchangeable q' := by
  cases h with
  | error e => cases hx
  | ok made' left =>
    cases hx
    exact ⟨_, rfl, left⟩

/-- What comes out alike can be added to alike. -/
theorem Alike.map {x x' : Except Error (Generated × Reservation)} (h : Alike x x')
    (f : Generated → Generated) :
    Alike (x.map fun (made, q) => (f made, q)) (x'.map fun (made, q) => (f made, q)) := by
  cases h with
  | error e => exact .error e
  | ok made left => exact .ok (f made) left

/-- A batch comes out alike where the same names are taken, and draws the same letters. -/
theorem run_interchangeable (w : EntryWriter α) (obfuscate : Bool) (h : r.Interchangeable r')
    (g : Generator) (entries : Table α) :
    Alike (run w obfuscate r g entries).result (run w obfuscate r' g entries).result ∧
      (run w obfuscate r' g entries).generator = (run w obfuscate r g entries).generator := by
  -- on the entries: names are issued alike, and the reservations stay interchangeable
  induction entries generalizing r r' g with
  | nil => exact ⟨.ok {} h, rfl⟩
  | cons head rest ih =>
    obtain ⟨base, entry⟩ := head
    obtain ⟨name_eq, generator_eq, reservations⟩ := h.issue obfuscate base g
    simp only [run, name_eq, generator_eq]
    cases (r.issue obfuscate base g).name with
    | error e => exact ⟨.error e, rfl⟩
    | ok name =>
      cases hcss : w.text name entry with
      | error e =>
        simp only [hcss]
        exact ⟨.error e, trivial⟩
      | ok css =>
        obtain ⟨results, generators⟩ := ih reservations (r.issue obfuscate base g).generator
        simp only [hcss, prepend]
        exact ⟨results.map fun made => ⟨(base, name) :: made.names, css ++ made.css⟩, generators⟩

end Batch

end StyleTree
