import Mathlib.Data.Finset.Card
import Mathlib.Data.Nat.Periodic
import StyleTree.Proofs.IssuedNames

/-! # Blocks of letters

The letters that a generator has still to draw, read as consecutive **blocks** of five. Drawing the
letters of some blocks leaves a generator whose blocks are those behind them. Since the stream of
words starts again after its period, there are no more different blocks than the period is long.

* **`Generator.block`** is the block of an index, **`Generator.block_succ`** its recursion.
* **`Generator.exists_lt_period_block_eq`** finds every block among the first ones. -/

namespace StyleTree

namespace Generator

/-- The block of an index: the five letters behind those of the blocks before. -/
def block (g : Generator) (index : Nat) : List Char :=
  (g.letters (5 * (index + 1))).1.drop (5 * index)

/-- Letters are drawn one part after the other. -/
theorem letters_add (m n : Nat) (g : Generator) :
    g.letters (m + n) =
      ((g.letters m).1 ++ ((g.letters m).2.letters n).1, ((g.letters m).2.letters n).2) := by
  induction m generalizing g with
  | zero => rw [Nat.zero_add, letters_zero, List.nil_append]
  | succ m ih => rw [Nat.add_right_comm, letters_succ, letters_succ, ih, List.cons_append]

/-- A block is what is drawn when all letters before it have been drawn. -/
theorem block_eq_letters (g : Generator) (index : Nat) :
    g.block index = ((g.letters (5 * index)).2.letters 5).1 := by
  rw [block, Nat.mul_succ, letters_add]
  exact List.drop_left' (length_letters _ g)

/-- The first block are the first five letters. -/
@[simp] theorem block_zero (g : Generator) : g.block 0 = (g.letters 5).1 :=
  block_eq_letters g 0

/-- Behind the first block stand those of the generator that is left by drawing it. -/
theorem block_succ (g : Generator) (index : Nat) :
    g.block (index + 1) = (g.letters 5).2.block index := by
  rw [block_eq_letters, block_eq_letters, Nat.mul_succ, Nat.add_comm, letters_add]

/-- A block has five letters. -/
@[simp] theorem length_block (g : Generator) (index : Nat) : (g.block index).length = 5 := by
  rw [block_eq_letters, length_letters]

/-- A block is a slice of the letters of any run that is long enough. -/
theorem block_eq_take_drop {g : Generator} {index n : Nat} (h : 5 * (index + 1) ≤ n) :
    g.block index = ((g.letters n).1.drop (5 * index)).take 5 := by
  obtain ⟨later, rfl⟩ := Nat.exists_eq_add_of_le h
  rw [Nat.mul_succ, Nat.add_assoc, letters_add, letters_add, List.drop_left' (length_letters _ g),
    List.take_left' (length_letters _ _), block_eq_letters]

/-- The letters of a block are small. -/
theorem isLower_of_mem_block {g : Generator} {index : Nat} {c : Char} (h : c ∈ g.block index) :
    c.isLower := by
  rw [block_eq_letters] at h
  exact isLower_of_mem_letters h

/-- As long as no word leaves so large a fraction that a further one could carry, each word gives a
letter. -/
theorem letters_of_words {s : Keystream} {position : Nat} {words : List UInt32}
    (drawn : ∀ i (h : i < words.length), s.word (position + i) = words[i])
    (plain : ∀ word ∈ words, (scale word).2 ≤ UInt32.size - 26) :
    letters words.length ⟨s, position⟩ =
      (words.map fun word => letterOfIndex (scale word).1, ⟨s, position + words.length⟩) := by
  induction words generalizing position with
  | nil => rfl
  | cons word rest ih =>
    have here : s.word position = word := drawn 0 (Nat.succ_pos rest.length)
    have fraction := plain word (.head _)
    have first : letter ⟨s, position⟩ = (letterOfIndex (scale word).1, ⟨s, position + 1⟩) := by
      simp only [letter, here]
      rw [if_neg (Nat.not_lt_of_le fraction)]
    have next (i : Nat) (h : i < rest.length) : s.word (position + 1 + i) = rest[i] := by
      rw [Nat.add_assoc, Nat.add_comm 1]
      exact drawn (i + 1) (Nat.succ_lt_succ h)
    rw [List.length_cons, letters_succ, first, ih next fun later h => plain later (.tail _ h),
      List.map_cons, Nat.add_assoc, Nat.add_comm 1]

/-- The first letters come from the first block of words, one from each. -/
theorem letters_of_block {s : Keystream} {n : Nat} {words : List UInt32} (hn : n ≤ 16)
    (words_eq : (s.block 0).toList.take n = words)
    (plain : ∀ word ∈ words, (scale word).2 ≤ UInt32.size - 26) :
    (letters n ⟨s, 0⟩).1 = words.map fun word => letterOfIndex (scale word).1 := by
  have length_eq : words.length = n := by
    rw [← words_eq, List.length_take, Vector.length_toList]
    exact Nat.min_eq_left hn
  have drawn (i : Nat) (h : i < words.length) : s.word (0 + i) = words[i] := by
    have lt : i < 16 := by omega
    subst words_eq
    simp only [Nat.zero_add, Keystream.word, Nat.div_eq_of_lt lt, Nat.mod_eq_of_lt lt,
      List.getElem_take]
    rfl
  rw [← length_eq, letters_of_words drawn plain]

/-- The first letters of a seed. -/
theorem letters_ofSeed_nine : ((ofSeed 9).letters 15).1 = "pquattqqdqzqozd".toList := by
  let words : List UInt32 :=
    [2541201799, 2777516104, 3468389337, 156310276, 3300982726, 3227583987, 2776892183, 2711498130,
      656975804, 2765951344, 4130459728, 2656082664, 2409951298, 4263645606, 593414517]
  have words_eq : ((Keystream.ofSeed 9).block 0).toList.take 15 = words := by decide +kernel
  -- as a statement about all members, this would be decided for all words that there are
  have plain : (words.all fun word => (scale word).2 ≤ UInt32.size - 26) = true := by
    decide +kernel
  refine (letters_of_block (by decide) words_eq fun word h => ?_).trans (by decide +kernel)
  exact of_decide_eq_true (List.all_eq_true.1 plain word h)

/-! ## Repetition -/

/-- Two generators are **congruent** if they stand at the same place of the same stream, up to whole
periods. -/
structure Congruent (g g' : Generator) : Prop where
  stream_eq : g'.stream = g.stream
  position_mod_eq : g'.position % Keystream.period = g.position % Keystream.period

namespace Congruent

variable {g g' : Generator}

/-- Equally far on, congruent generators are at the same word. -/
theorem word_eq (h : g.Congruent g') (n : Nat) :
    g'.stream.word (g'.position + n) = g.stream.word (g.position + n) := by
  have periodic : Function.Periodic g.stream.word Keystream.period :=
    fun position => g.stream.word_add_period position
  rw [h.stream_eq, ← periodic.map_mod_nat (g'.position + n),
    ← periodic.map_mod_nat (g.position + n), Nat.add_mod, h.position_mod_eq, ← Nat.add_mod]

/-- Congruent generators draw the same letter and stay congruent. -/
theorem letter (h : g.Congruent g') :
    g'.letter.1 = g.letter.1 ∧ g.letter.2.Congruent g'.letter.2 := by
  have word := h.word_eq 0
  have further := h.word_eq 1
  simp only [Nat.add_zero] at word
  have moved (n : Nat) : (g'.position + n) % Keystream.period =
      (g.position + n) % Keystream.period := by
    rw [Nat.add_mod, h.position_mod_eq, ← Nat.add_mod]
  simp only [Generator.letter, word, further]
  split
  · exact ⟨rfl, h.stream_eq, moved 2⟩
  · exact ⟨rfl, h.stream_eq, moved 1⟩

/-- Congruent generators draw the same letters and stay congruent. -/
theorem letters (h : g.Congruent g') (n : Nat) :
    (g'.letters n).1 = (g.letters n).1 ∧ (g.letters n).2.Congruent (g'.letters n).2 := by
  induction n generalizing g g' with
  | zero => exact ⟨rfl, h⟩
  | succ n ih =>
    obtain ⟨letter_eq, left⟩ := h.letter
    obtain ⟨letters_eq, later⟩ := ih left
    rw [letters_succ, letters_succ, letter_eq, letters_eq]
    exact ⟨rfl, later⟩

end Congruent

/-- Drawing letters does not change the stream. -/
@[simp] theorem stream_letters (n : Nat) (g : Generator) : (g.letters n).2.stream = g.stream := by
  induction n generalizing g with
  | zero => rfl
  | succ n ih => rw [letters_succ, ih, stream_letter]

/-- A sequence of numbers below a bound, each of which is determined by the one before it, takes all
its values before the bound. -/
theorem exists_lt_eq_of_step {a : Nat → Nat} {bound : Nat} (below : ∀ i, a i < bound)
    (step : ∀ i j, a i = a j → a (i + 1) = a (j + 1)) (k : Nat) : ∃ j < bound, a j = a k := by
  have shift {i j : Nat} (h : a i = a j) (n : Nat) : a (i + n) = a (j + n) := by
    induction n with
    | zero => exact h
    | succ n ih => exact step _ _ ih
  -- a value that comes late comes before as well, by as much as the first repetition takes
  induction k using Nat.strong_induction_on with
  | _ k ih =>
    by_cases early : k < bound
    · exact ⟨k, early, rfl⟩
    · have maps : Set.MapsTo a (Finset.range (bound + 1)) (Finset.range bound) :=
        fun i _ => by simpa using below i
      obtain ⟨i, hi, j, hj, ne, repeated⟩ :=
        Finset.exists_ne_map_eq_of_card_lt_of_maps_to (by simp) maps
      have earlier {i j : Nat} (lt : i < j) (hj : j ∈ Finset.range (bound + 1))
          (repeated : a i = a j) : ∃ j < bound, a j = a k := by
        have j_le : j ≤ k := by
          rw [Finset.mem_range] at hj
          omega
        have same := shift repeated (k - j)
        rw [Nat.add_sub_cancel' j_le] at same
        obtain ⟨l, l_lt, l_eq⟩ := ih (i + (k - j)) (by omega)
        exact ⟨l, l_lt, l_eq.trans same⟩
      rcases Nat.lt_or_gt_of_ne ne with lt | gt
      · exact earlier lt hj repeated
      · exact earlier gt hi repeated.symm

/-- Each block is one of the first, of as many as the period is long. -/
theorem exists_lt_period_block_eq (g : Generator) (index : Nat) :
    ∃ first < Keystream.period, g.block first = g.block index := by
  -- the place in the period where a block starts determines the block and where the next one starts
  let start (i : Nat) : Nat := (g.letters (5 * i)).2.position % Keystream.period
  have congruent {i j : Nat} (h : start i = start j) :
      (g.letters (5 * j)).2.Congruent (g.letters (5 * i)).2 :=
    ⟨by rw [stream_letters, stream_letters], h⟩
  have next (i : Nat) : (g.letters (5 * (i + 1))).2 = ((g.letters (5 * i)).2.letters 5).2 := by
    rw [Nat.mul_succ, letters_add]
  have below (i : Nat) : start i < Keystream.period := Nat.mod_lt _ (by decide)
  have step (i j : Nat) (h : start i = start j) : start (i + 1) = start (j + 1) := by
    show (g.letters (5 * (i + 1))).2.position % _ = (g.letters (5 * (j + 1))).2.position % _
    rw [next, next]
    exact ((congruent h).letters 5).2.position_mod_eq
  obtain ⟨first, first_lt, same⟩ := exists_lt_eq_of_step below step index
  refine ⟨first, first_lt, ?_⟩
  rw [block_eq_letters, block_eq_letters]
  exact ((congruent same).letters 5).1

end Generator

end StyleTree
