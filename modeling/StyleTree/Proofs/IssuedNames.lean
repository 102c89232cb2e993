import StyleTree.Proofs.Results
import StyleTree.Session.Batch

/-! # Issued names

What a name looks like and why no name is issued twice. A name is **named after** its base; a
reservation is **fresh** while no name is recorded or staged twice, and staging a free name keeps it
so.

* **`Reservation.issue_ok`** says what it means that a name has been issued.
* **`Batch.Completes`** says how a batch succeeds, entry by entry, and `Batch.completes_of_run` that
  every batch with a result has succeeded in this way. What holds of a successful batch is proved by
  induction on it. -/

namespace StyleTree

/-! ## Letters -/

namespace Generator

/-- The letters that a word can be scaled to are the small ones. -/
theorem isLower_letterOfIndex : ∀ index < 26, (letterOfIndex index).isLower := by
  decide

/-- A word is scaled to one of 26 letters. -/
theorem scale_fst_lt (word : UInt32) : (scale word).1 < 26 := by
  have := word.toNat_lt
  simp only [scale, UInt32.size]
  omega

/-- Where a further word can carry, the letter is not the last one. -/
theorem scale_fst_lt_of_carry {word : UInt32} (h : UInt32.size - 26 < (scale word).2) :
    (scale word).1 < 25 := by
  have := word.toNat_lt
  simp only [scale, UInt32.size] at *
  omega

/-- A drawn letter is a small letter. -/
theorem isLower_letter (g : Generator) : g.letter.1.isLower := by
  simp only [letter]
  split
  · next h =>
    -- a further word may carry one letter on, which the last letter leaves no room for
    apply isLower_letterOfIndex
    have index_lt := scale_fst_lt_of_carry h
    have fraction_lt : (scale (g.stream.word g.position)).2 < UInt32.size :=
      Nat.mod_lt _ (by decide)
    have further_lt := scale_fst_lt (g.stream.word (g.position + 1))
    have carry_le : ((scale (g.stream.word g.position)).2
        + (scale (g.stream.word (g.position + 1))).1) / UInt32.size ≤ 1 := by
      simp only [UInt32.size] at *
      omega
    omega
  · exact isLower_letterOfIndex _ (scale_fst_lt _)

/-- All letters that are drawn are small letters. -/
theorem isLower_of_mem_letters {n : Nat} {g : Generator} {c : Char} (h : c ∈ (g.letters n).1) :
    c.isLower := by
  induction n generalizing g with
  | zero => simp at h
  | succ n ih =>
    rw [letters_succ] at h
    rcases List.mem_cons.1 h with rfl | h
    · exact isLower_letter g
    · exact ih h

end Generator

/-! ## Names and their bases -/

/-- A name is **named after** a base if it is the base itself or, with random letters, the base with
an underscore and five small letters. -/
def NamedAfter (obfuscate : Bool) (base name : String) : Prop :=
  if obfuscate then
    ∃ letters : List Char, letters.length = 5 ∧ (∀ c ∈ letters, c.isLower) ∧
      name = base ++ "_" ++ String.ofList letters
  else name = base

/-- Without letters the only name after a base is the base. -/
@[simp] theorem namedAfter_plain {base name : String} :
    NamedAfter false base name ↔ name = base := by
  simp [NamedAfter]

/-- A base with letters from a generator is a name after that base. -/
theorem namedAfter_obfuscatedName (base : String) (g : Generator) :
    NamedAfter true base (obfuscatedName base (g.letters suffixLength).1) := by
  refine ⟨(g.letters suffixLength).1, ?_, ?_, rfl⟩
  · rw [Generator.length_letters, suffixLength]
  · intro c hc
    exact Generator.isLower_of_mem_letters hc

/-- Letters and an underscore bring no character into a name that its base does not have, unless it
is one of them. -/
theorem not_mem_of_namedAfter {obfuscate : Bool} {base name : String} {c : Char}
    (h : NamedAfter obfuscate base name) (hc : c ∉ base.toList) (hunderscore : c ≠ '_')
    (hlower : c.isLower = false) : c ∉ name.toList := by
  cases obfuscate with
  | false => rwa [namedAfter_plain.1 h]
  | true =>
    obtain ⟨letters, -, lower, rfl⟩ := h
    intro hmem
    simp only [String.toList_append, String.toList_ofList, List.mem_append] at hmem
    rcases hmem with (hmem | hmem) | hmem
    · exact hc hmem
    · exact hunderscore (by simpa using hmem)
    · simp [lower c hmem] at hlower

namespace Registry

/-- Names that are new and differ from each other are recorded one after another. -/
theorem names_insertAll {r : Registry} {names : List String} (h : (r.names ++ names).Nodup) :
    (r.insertAll names).names = r.names ++ names := by
  induction names generalizing r with
  | nil => simp
  | cons name names ih =>
    have new : name ∉ r.names := by
      intro hmem
      exact (List.nodup_append.1 h).2.2 _ hmem _ List.mem_cons_self rfl
    have inserted := names_insert_of_not_mem new
    rw [insertAll_cons, ih (by rw [inserted]; simpa using h), inserted]
    simp

end Registry

namespace Reservation

/-- No name is recorded or staged twice. -/
def Fresh (r : Reservation) : Prop := (r.registry.names ++ r.staged).Nodup

/-- A reservation without names is fresh. -/
theorem fresh_reserve (registry : Registry) (kind : NameKind) : (registry.reserve kind).Fresh := by
  rw [Fresh, Registry.reserve, List.append_nil]
  exact registry.nodup

/-- A free name can be staged. -/
theorem Fresh.stage {r : Reservation} (h : r.Fresh) {name : String}
    (free : r.isTaken name = false) : (r.stage name).Fresh := by
  have new : name ∉ r.registry.names ++ r.staged := by
    rw [List.mem_append, ← isTaken_iff]
    simp [free]
  -- of the names so far and the new one, only the new one could repeat
  show (r.registry.names ++ (r.staged ++ [name])).Nodup
  rw [← List.append_assoc]
  refine List.nodup_append.2 ⟨h, by simp, ?_⟩
  intro a ha b hb
  rw [List.mem_singleton.1 hb]
  exact fun e => new (e ▸ ha)

/-- Committing records all staged names. -/
theorem names_commit {r : Reservation} (h : r.Fresh) :
    r.commit.names = r.registry.names ++ r.staged :=
  Registry.names_insertAll h

/-- A name that a search has found is free and named after the base. -/
theorem search_found {r : Reservation} {base : String} {tries : Nat} {g : Generator} {name : String}
    (h : (r.search base tries g).found = some name) :
    r.isTaken name = false ∧ NamedAfter true base name := by
  induction tries generalizing g with
  | zero => simp at h
  | succ tries ih =>
    cases htaken : r.isTaken (obfuscatedName base (g.letters suffixLength).1) with
    | true =>
      -- the search goes on with the letters behind those of the taken name
      rw [search_of_taken htaken] at h
      exact ih h
    | false =>
      rw [search_of_free htaken] at h
      rw [← Option.some.inj h]
      exact ⟨htaken, namedAfter_obfuscatedName base g⟩

/-- An issued name was free, is staged now and is named after its base. -/
theorem issue_ok {r : Reservation} {obfuscate : Bool} {base : String} {g : Generator}
    {name : String} (h : (r.issue obfuscate base g).name = .ok name) :
    r.isTaken name = false ∧ NamedAfter obfuscate base name ∧
      (r.issue obfuscate base g).reservation = r.stage name := by
  cases obfuscate with
  | false =>
    simp only [issue, Bool.false_eq_true, ↓reduceIte, issuePlain] at h ⊢
    cases htaken : r.isTaken base with
    | true => simp [htaken] at h
    | false =>
      simp only [htaken, Bool.false_eq_true, ↓reduceIte, Except.ok.injEq] at h ⊢
      subst h
      exact ⟨htaken, namedAfter_plain.2 rfl, rfl⟩
  | true =>
    simp only [issue, ↓reduceIte, issueObfuscated] at h ⊢
    cases hfound : (r.search base Keystream.period g).found with
    | none => simp [hfound] at h
    | some found =>
      simp only [hfound, Except.ok.injEq] at h ⊢
      subst h
      -- the search only ends at a name that is free
      obtain ⟨free, named⟩ := search_found hfound
      exact ⟨free, named, rfl⟩

/-- A name that is not issued is taken, or all names are that letters can make of the base. -/
theorem issue_error {r : Reservation} {obfuscate : Bool} {base : String} {g : Generator}
    {e : Error} (h : (r.issue obfuscate base g).name = .error e) :
    e = .nameConflict r.kind base ∨ e = .namesExhausted r.kind base := by
  cases obfuscate with
  | false =>
    simp only [issue, Bool.false_eq_true, ↓reduceIte, issuePlain] at h
    split at h
    · exact .inl (Except.error.inj h).symm
    · cases h
  | true =>
    simp only [issue, ↓reduceIte, issueObfuscated] at h
    split at h
    · cases h
    · exact .inr (Except.error.inj h).symm

/-- Without random letters none are drawn. -/
theorem generator_issue_plain (r : Reservation) (base : String) (g : Generator) :
    (r.issue false base g).generator = g := by
  simp only [issue, Bool.false_eq_true, ↓reduceIte, issuePlain]
  split <;> rfl

end Reservation

/-! ## Batches -/

namespace Batch

variable {α : Type} {w : EntryWriter α} {obfuscate : Bool} {r r' : Reservation}
  {entries : Table α} {made : Generated}

/-- With a first entry a batch has a result if that entry has a name and a text under it and the
others have a result after it. -/
theorem run_cons_ok {g : Generator} {base : String} {entry : α} {rest : Table α} :
    (run w obfuscate r g ((base, entry) :: rest)).result = .ok (made, r') ↔
      ∃ name css later, (r.issue obfuscate base g).name = .ok name ∧ w.text name entry = .ok css ∧
        (run w obfuscate (r.issue obfuscate base g).reservation
          (r.issue obfuscate base g).generator rest).result = .ok (later, r') ∧
        made = ⟨(base, name) :: later.names, css ++ later.css⟩ := by
  simp only [run]
  cases hname : (r.issue obfuscate base g).name with
  | error e => simp
  | ok name =>
    cases hcss : w.text name entry with
    | error e => simp [hcss]
    | ok css =>
      simp only [hcss, prepend, Result.map_eq_ok, Prod.exists, Prod.mk.injEq, Except.ok.injEq]
      constructor
      · rintro ⟨later, q, hlater, rfl, rfl⟩
        exact ⟨name, css, later, rfl, hcss, hlater, rfl⟩
      · rintro ⟨_, css', later, rfl, hcss', hlater, rfl⟩
        obtain rfl : css = css' := Except.ok.inj (hcss.symm.trans hcss')
        exact ⟨later, r', hlater, rfl, rfl⟩

/-- With a first entry a batch fails if that entry has no name, or no text under its name, or if it
has both and the others fail after it. -/
theorem run_cons_error {g : Generator} {base : String} {entry : α} {rest : Table α} {e : Error} :
    (run w obfuscate r g ((base, entry) :: rest)).result = .error e ↔
      (r.issue obfuscate base g).name = .error e ∨
        ∃ name, (r.issue obfuscate base g).name = .ok name ∧
          (w.text name entry = .error e ∨
            ∃ css, w.text name entry = .ok css ∧
              (run w obfuscate (r.issue obfuscate base g).reservation
                (r.issue obfuscate base g).generator rest).result = .error e) := by
  simp only [run]
  cases hname : (r.issue obfuscate base g).name with
  | error e' => simp
  | ok name =>
    cases hcss : w.text name entry with
    | error e' => simp [hcss]
    | ok css => simp [hcss, prepend, Result.map_eq_error]

/-- How a batch **completes**: each entry is given a free name after its key, which is staged, and
has a text under that name. -/
inductive Completes (w : EntryWriter α) (obfuscate : Bool) :
    Reservation → Table α → Generated → Reservation → Prop
  /-- Nothing is left to do. -/
  | done (r : Reservation) : Completes w obfuscate r [] {} r
  /-- The first entry has a name and a text, and the others complete after it. -/
  | entry {r r' : Reservation} {base name css : String} {entry : α} {rest : Table α}
      {made : Generated} (free : r.isTaken name = false) (named : NamedAfter obfuscate base name)
      (written : w.text name entry = .ok css)
      (later : Completes w obfuscate (r.stage name) rest made r') :
      Completes w obfuscate r ((base, entry) :: rest) ⟨(base, name) :: made.names, css ++ made.css⟩
        r'

/-- A batch that has a result has completed. -/
theorem completes_of_run {g : Generator}
    (h : (run w obfuscate r g entries).result = .ok (made, r')) :
    Completes w obfuscate r entries made r' := by
  -- induction on the entries: each one leaves another reservation and generator to those behind it
  induction entries generalizing r g made with
  | nil =>
    simp only [run_nil, Batch.done, Except.ok.injEq, Prod.mk.injEq] at h
    obtain ⟨rfl, rfl⟩ := h
    exact .done r
  | cons head rest ih =>
    obtain ⟨base, entry⟩ := head
    obtain ⟨name, css, later, hname, hcss, hlater, rfl⟩ := run_cons_ok.1 h
    obtain ⟨free, named, staged⟩ := Reservation.issue_ok hname
    -- the name is staged by now, so `ih` is about the reservation with it
    rw [staged] at hlater
    exact .entry free named hcss (ih hlater)

/-- A batch that fails has a name that was not issued, or an entry without a text. -/
theorem error_of_run {g : Generator} {e : Error}
    (h : (run w obfuscate r g entries).result = .error e) :
    (∃ base, e = .nameConflict r.kind base ∨ e = .namesExhausted r.kind base) ∨
      ∃ name, ∃ entry ∈ entries, w.text name entry.2 = .error e := by
  induction entries generalizing r g with
  | nil => simp [Batch.done] at h
  | cons head rest ih =>
    obtain ⟨base, entry⟩ := head
    obtain unnamed | ⟨name, hname, unwritten | ⟨css, -, failed⟩⟩ := run_cons_error.1 h
    · exact .inl ⟨base, Reservation.issue_error unnamed⟩
    · exact .inr ⟨name, (base, entry), List.mem_cons_self, unwritten⟩
    · obtain ⟨-, -, staged⟩ := Reservation.issue_ok hname
      rw [staged] at failed
      obtain unnamed | ⟨name', entry', mem, unwritten⟩ := ih failed
      · exact .inl unnamed
      · exact .inr ⟨name', entry', List.mem_cons_of_mem _ mem, unwritten⟩

/-- A completed batch has staged its names behind those that were staged before. -/
theorem Completes.staged (h : Completes w obfuscate r entries made r') :
    r' = { r with staged := r.staged ++ made.names.map Prod.snd } := by
  induction h with
  | done r => simp
  | entry free named written later ih =>
    rw [ih]
    simp [Reservation.stage]

/-- A completed batch has issued no name twice. -/
theorem Completes.fresh (h : Completes w obfuscate r entries made r') (hr : r.Fresh) :
    r'.Fresh := by
  induction h with
  | done r => exact hr
  | entry free named written later ih => exact ih (hr.stage free)

/-- A completed batch has issued a name for every key, in order. -/
theorem Completes.keys (h : Completes w obfuscate r entries made r') :
    Table.keys made.names = Table.keys entries := by
  induction h with
  | done r => rfl
  | entry free named written later ih => rw [Table.keys_cons, Table.keys_cons, ih]

/-- The names of a completed batch are named after their keys. -/
theorem Completes.namedAfter (h : Completes w obfuscate r entries made r') :
    ∀ issued ∈ made.names, NamedAfter obfuscate issued.1 issued.2 := by
  induction h with
  | done r => simp
  | entry free named written later ih =>
    intro issued hissued
    rcases List.mem_cons.1 hissued with rfl | hissued
    · exact named
    · exact ih issued hissued

/-- The registry in which the names of a completed batch are recorded. -/
theorem Completes.names_commit {registry : Registry} {kind : NameKind}
    (h : Completes w obfuscate (registry.reserve kind) entries made r') :
    r'.commit.names = registry.names ++ made.names.map Prod.snd := by
  rw [Reservation.names_commit (h.fresh (Reservation.fresh_reserve registry kind)), h.staged]
  simp [Registry.reserve]

/-- Without random letters a batch draws none, whether it completes or not. -/
theorem generator_run_plain (w : EntryWriter α) (r : Reservation) (g : Generator)
    (entries : Table α) : (run w false r g entries).generator = g := by
  induction entries generalizing r g with
  | nil => rfl
  | cons head rest ih =>
    obtain ⟨base, entry⟩ := head
    have drawn := Reservation.generator_issue_plain r base g
    simp only [run]
    cases (r.issue false base g).name with
    | error e => exact drawn
    | ok name =>
      cases hcss : w.text name entry with
      | error e => simpa [hcss] using drawn
      | ok css => simpa only [hcss, prepend, drawn] using ih _ g

end Batch

end StyleTree
