import Mathlib.Data.List.Sections
import Mathlib.Order.Bounds.Defs
import StyleTree.Proofs.LetterBlocks
import StyleTree.Text.SpinalCase

/-! # The first free name

The names that can be made of a base are its **candidates**: the base with one block of letters
after the other. The search for a name tries them in order and ends with the first that is free; if
none is, it goes on for as many tries as it is given. A request for a name gives it as many tries as
there can be different blocks, so it fails only if no candidate whatever is free.

* **`Generator.candidate`** is the candidate of an index.
* **`Reservation.search_of_taken_before`** passes over the taken candidates.
* **`first_free_name_issued`** is the main result. -/

namespace StyleTree

/-- The name that is tried for a base at an index. -/
def Generator.candidate (g : Generator) (base : String) (index : Nat) : String :=
  base ++ "_" ++ String.ofList (g.block index)

namespace Generator

/-- The first candidate has the letters that come next. -/
theorem candidate_zero (g : Generator) (base : String) :
    g.candidate base 0 = obfuscatedName base (g.letters suffixLength).1 := by
  rw [candidate, block_zero, obfuscatedName, suffixLength]

/-- Behind the first candidate stand those of the generator that is left by drawing it. -/
theorem candidate_succ (g : Generator) (base : String) (index : Nat) :
    g.candidate base (index + 1) = (g.letters suffixLength).2.candidate base index := by
  rw [candidate, candidate, block_succ, suffixLength]

/-- The first candidates, of which there is one more. -/
theorem map_candidate_range_succ (g : Generator) (base : String) (count : Nat) :
    (List.range (count + 1)).map (g.candidate base) =
      g.candidate base 0 ::
        (List.range count).map ((g.letters suffixLength).2.candidate base) := by
  rw [List.range_succ_eq_map, List.map_cons, List.map_map]
  refine congrArg _ (List.map_congr_left fun index _ => ?_)
  exact candidate_succ g base index

end Generator

namespace Reservation

variable {r : Reservation} {base : String} {g : Generator}

/-- A name is free for a reservation if it is neither recorded nor staged. -/
def Free (r : Reservation) (name : String) : Prop := name ∉ r.registry.names ∧ name ∉ r.staged

/-- Free names are those that are not taken. -/
theorem free_iff {name : String} : r.Free name ↔ r.isTaken name = false := by
  rw [Free, ← not_or, ← isTaken_iff, Bool.not_eq_true]

/-- Names that are not free are taken. -/
theorem not_free_iff {name : String} : ¬ r.Free name ↔ r.isTaken name = true := by
  rw [free_iff, Bool.not_eq_false]

/-- Candidates that are taken are passed over, and the search goes on with the tries and the letters
that are left. -/
theorem search_of_taken_before {count : Nat} (tries : Nat)
    (taken : ∀ index < count, ¬ r.Free (g.candidate base index)) :
    r.search base (count + tries) g =
      { r.search base tries (g.letters (5 * count)).2 with
        passed := (List.range count).map (g.candidate base) ++
          (r.search base tries (g.letters (5 * count)).2).passed } := by
  -- induction on the candidates, each of which is the first of another generator
  induction count generalizing g with
  | zero => rw [Nat.zero_add]; rfl
  | succ count ih =>
    have first := not_free_iff.1 (taken 0 (Nat.succ_pos count))
    rw [Generator.candidate_zero] at first
    have others (index : Nat) (h : index < count) :
        ¬ r.Free ((g.letters suffixLength).2.candidate base index) := by
      rw [← Generator.candidate_succ]
      exact taken (index + 1) (Nat.succ_lt_succ h)
    have left : (g.letters (5 * (count + 1))).2 =
        ((g.letters suffixLength).2.letters (5 * count)).2 := by
      rw [Nat.mul_succ, Nat.add_comm, Generator.letters_add, suffixLength]
    rw [Nat.add_right_comm, search_of_taken first, ih others, left,
      Generator.map_candidate_range_succ, Generator.candidate_zero, List.cons_append]

/-- A search whose tries are all taken finds nothing. -/
theorem search_of_none_free {tries : Nat}
    (taken : ∀ index < tries, ¬ r.Free (g.candidate base index)) :
    r.search base tries g =
      ⟨none, (g.letters (5 * tries)).2, (List.range tries).map (g.candidate base)⟩ := by
  have searched := search_of_taken_before 0 taken
  rw [Nat.add_zero, search_zero, List.append_nil] at searched
  exact searched

/-- A search that has tries enough finds the first free candidate. -/
theorem search_of_first_free {index tries : Nat} (enough : index < tries)
    (free : r.Free (g.candidate base index))
    (taken : ∀ earlier < index, ¬ r.Free (g.candidate base earlier)) :
    r.search base tries g =
      ⟨some (g.candidate base index), (g.letters (5 * (index + 1))).2,
        (List.range index).map (g.candidate base)⟩ := by
  obtain ⟨spare, rfl⟩ := Nat.exists_eq_add_of_lt enough
  have block_eq : g.candidate base index =
      obfuscatedName base ((g.letters (5 * index)).2.letters suffixLength).1 := by
    rw [Generator.candidate, Generator.block_eq_letters, obfuscatedName, suffixLength]
  have ends := search_of_free (block_eq ▸ free_iff.1 free) spare
  have left : (g.letters (5 * (index + 1))).2 =
      ((g.letters (5 * index)).2.letters suffixLength).2 := by
    rw [Nat.mul_succ, Generator.letters_add, suffixLength]
  rw [Nat.add_assoc, search_of_taken_before (spare + 1) taken, ends, block_eq, left,
    List.append_nil]

/-- A request has the first free candidate issued. -/
theorem issue_of_first_free {index : Nat} (free : r.Free (g.candidate base index))
    (taken : ∀ earlier < index, ¬ r.Free (g.candidate base earlier)) :
    r.issue true base g =
      ⟨.ok (g.candidate base index), r.stage (g.candidate base index),
        (g.letters (5 * (index + 1))).2, (List.range index).map (g.candidate base)⟩ := by
  -- the block of a free candidate comes among the first, so the search has tries enough
  obtain ⟨first, first_lt, block_eq⟩ := g.exists_lt_period_block_eq index
  have first_free : r.Free (g.candidate base first) := by
    rwa [Generator.candidate, block_eq]
  have index_le : index ≤ first := by
    by_contra before
    exact taken first (Nat.lt_of_not_le before) first_free
  have found := search_of_first_free (Nat.lt_of_le_of_lt index_le first_lt) free taken
  rw [issue, if_pos rfl, issueObfuscated, found]

/-- A request fails if no candidate is free. -/
theorem issue_of_none_free (taken : ∀ index, ¬ r.Free (g.candidate base index)) :
    (r.issue true base g).name = .error (.namesExhausted r.kind base) := by
  have searched : r.search base Keystream.period g = _ :=
    search_of_none_free fun index _ => taken index
  rw [issue, if_pos rfl, issueObfuscated, searched]

/-- There is a first free candidate if there is any. -/
theorem exists_first_free (h : ∃ index, r.Free (g.candidate base index)) :
    ∃ index, r.Free (g.candidate base index) ∧
      ∀ earlier < index, ¬ r.Free (g.candidate base earlier) := by
  classical
  exact ⟨Nat.find h, Nat.find_spec h, fun _ earlier => Nat.find_min h earlier⟩

/-- A search never finds anything, however many tries it is given, if and only if no candidate is
free. -/
theorem search_never_finds_iff :
    (∀ tries, (r.search base tries g).found = none) ↔
      ∀ index, ¬ r.Free (g.candidate base index) := by
  constructor
  · intro nothing index free
    obtain ⟨first, first_free, taken⟩ := exists_first_free ⟨index, free⟩
    have found := nothing (first + 1)
    rw [search_of_first_free (Nat.lt_succ_self first) first_free taken] at found
    cases found
  · intro taken tries
    rw [search_of_none_free fun index _ => taken index]

/-- A request fails if and only if no candidate is free. -/
theorem issue_error_iff :
    (∃ e, (r.issue true base g).name = .error e) ↔
      ∀ index, ¬ r.Free (g.candidate base index) := by
  constructor
  · rintro ⟨e, failed⟩ index free
    obtain ⟨first, first_free, taken⟩ := exists_first_free ⟨index, free⟩
    rw [issue_of_first_free first_free taken] at failed
    cases failed
  · intro taken
    exact ⟨_, issue_of_none_free taken⟩

end Reservation

/-- With random letters a request tries the base with one block of five small letters after the
other. If there is a least index at which the name is free, neither recorded nor staged, it is
issued and staged, after exactly as many retries as its index says and with exactly the letters
drawn of all blocks up to its own. A search goes on without finding anything, however many tries it
is given, if and only if there is no such index, and this is when the request fails; it is the case
if all names are taken that five small letters make of the base. -/
theorem first_free_name_issued (r : Reservation) (base : String) (g : Generator) :
    (∀ index, (g.block index).length = 5 ∧ ∀ c ∈ g.block index, c.isLower) ∧
    (∀ k, IsLeast {index | r.Free (base ++ "_" ++ String.ofList (g.block index))} k →
      (r.issue true base g).name = .ok (base ++ "_" ++ String.ofList (g.block k)) ∧
        (r.issue true base g).reservation =
          r.stage (base ++ "_" ++ String.ofList (g.block k)) ∧
        (r.issue true base g).passed.length = k ∧
        (r.issue true base g).generator = (g.letters (5 * (k + 1))).2) ∧
    ((∀ index, ¬ r.Free (base ++ "_" ++ String.ofList (g.block index))) ↔
      ∀ tries, (r.search base tries g).found = none) ∧
    ((∀ index, ¬ r.Free (base ++ "_" ++ String.ofList (g.block index))) ↔
      ∃ e, (r.issue true base g).name = .error e) ∧
    ((∀ letters : List Char, letters.length = 5 → (∀ c ∈ letters, c.isLower) →
        ¬ r.Free (base ++ "_" ++ String.ofList letters)) →
      ∀ tries, (r.search base tries g).found = none ∧
        (r.search base tries g).passed.length = tries) := by
  have lower (index : Nat) : ∀ c ∈ g.block index, c.isLower :=
    fun c hc => Generator.isLower_of_mem_block hc
  refine ⟨fun index => ⟨g.length_block index, lower index⟩, ?_,
    Reservation.search_never_finds_iff.symm, Reservation.issue_error_iff.symm, ?_⟩
  · -- the least free block is the first one that the search can stop at
    intro k least
    have issued := Reservation.issue_of_first_free (g := g) least.1
      fun earlier h free => Nat.not_le_of_lt h (least.2 free)
    rw [issued]
    refine ⟨rfl, rfl, ?_, rfl⟩
    rw [List.length_map, List.length_range]
  · intro all tries
    -- every block is five small letters, so it is among those taken
    have taken (index : Nat) : ¬ r.Free (g.candidate base index) :=
      all _ (g.length_block index) (lower index)
    rw [Reservation.search_of_none_free fun index _ => taken index]
    refine ⟨rfl, ?_⟩
    rw [List.length_map, List.length_range]

/-- The first candidate is recorded, the second staged and the third free; and a reservation in
which all names are staged that five small letters make of a base. -/
theorem first_free_name_issued_third :
    let g : Generator := .ofSeed 9
    let r : Reservation := ⟨.styleClass, Registry.empty.insert "box_pquat", ["box_tqqdq"]⟩
    let words : List (List Char) :=
      (List.replicate 5 ((List.range 26).map Generator.letterOfIndex)).sections
    let full : Reservation :=
      ⟨.animation, .empty, words.map fun letters => "spin" ++ "_" ++ String.ofList letters⟩
    IsLeast {index | r.Free ("box" ++ "_" ++ String.ofList (g.block index))} 2 ∧
      (r.issue true "box" g).name = .ok "box_zqozd" ∧
      (r.issue true "box" g).passed.length = 2 ∧
      (r.issue true "box" g).generator = (g.letters 15).2 ∧
      ∀ tries, (full.search "spin" tries g).found = none ∧
        (full.search "spin" tries g).passed.length = tries := by
  intro g r words full
  have block (index : Nat) (h : 5 * (index + 1) ≤ 15) :
      g.block index = ("pquattqqdqzqozd".toList.drop (5 * index)).take 5 := by
    rw [Generator.block_eq_take_drop h, Generator.letters_ofSeed_nine]
  have first : "box" ++ "_" ++ String.ofList (g.block 0) = "box_pquat" := by
    rw [block 0 (by decide)]
    rfl
  have second : "box" ++ "_" ++ String.ofList (g.block 1) = "box_tqqdq" := by
    rw [block 1 (by decide)]
    rfl
  have third : "box" ++ "_" ++ String.ofList (g.block 2) = "box_zqozd" := by
    rw [block 2 (by decide)]
    rfl
  -- the first block is registered and the second one staged
  have least : IsLeast {index | r.Free ("box" ++ "_" ++ String.ofList (g.block index))} 2 := by
    refine ⟨?_, fun index free => ?_⟩
    · rw [Set.mem_ofPred_eq, third, Reservation.free_iff]
      decide +kernel
    · by_contra before
      obtain rfl | rfl : index = 0 ∨ index = 1 := by omega
      · rw [Set.mem_ofPred_eq, first] at free
        exact free.1 (Registry.mem_insert.2 (.inr rfl))
      · rw [Set.mem_ofPred_eq, second] at free
        exact free.2 (.head _)
  obtain ⟨issued, -, retries, drawn⟩ := (first_free_name_issued r "box" g).2.1 2 least
  refine ⟨least, third ▸ issued, retries, drawn, ?_⟩
  refine (first_free_name_issued full "spin" g).2.2.2.2 fun letters length lower free => ?_
  -- every name with five small letters is taken in the full reservation
  have letter (c : Char) (hc : c.isLower) :
      c ∈ (List.range 26).map Generator.letterOfIndex := by
    have bounds := isLower_iff.1 hc
    refine List.mem_map.2 ⟨c.toNat - 97, List.mem_range.2 (by omega), ?_⟩
    rw [Generator.letterOfIndex, show 'a'.toNat + (c.toNat - 97) = c.toNat by
      simp only [Char.reduceToNat]; omega, Char.ofNat_toNat]
  have word : letters ∈ words := by
    refine List.mem_sections.2 (List.forall₂_iff_get.2 ⟨by simpa using length, fun i h h' => ?_⟩)
    rw [List.get_eq_getElem, List.get_eq_getElem, List.getElem_replicate]
    exact letter _ (lower _ (List.getElem_mem h))
  exact free.2 (List.mem_map.2 ⟨letters, word, rfl⟩)

end StyleTree
