import Mathlib.Data.List.Basic
import Mathlib.Data.List.Induction
import StyleTree.Proofs.StyleParts

/-! # Inserted hyphens

Spinal case makes the capital letters of a name small and inserts hyphens, and does nothing else.
The hyphens come at the **humps** of the name, where a capital letter directly follows a small one.
So whatever is joined by a hyphen keeps its parts apart: the scan over a name remembers no more than
whether the last character was a small letter, and a hyphen is none.

* **`humps`** are found in the name alone, and **`hyphenPlaces`** says where their hyphens end up.
* **`withoutPlaces`** deletes what stands at given places of a text. Deleting the inserted hyphens
  leaves the name in small letters.
* **`StandsBetweenLetters`** holds of every inserted hyphen, so none stands beside another hyphen.
* **`spinalCase_sets_off_humps`** is all of this together, with the joints of the names of sides and
  of vendor prefixes. -/

namespace StyleTree

variable {cs : List Char} {c : Char} {p : Nat}

/-! ## Joined names -/

/-- The name of a side becomes spinal case part by part. -/
theorem spinalCase_sideName (name : String) (side : Option String) :
    spinalCase (sideName name side) = sideName (spinalCase name) (side.map spinalCase) := by
  cases side with
  | none => rfl
  | some side => exact spinalCase_append_hyphen name side

/-! ## No capital letters -/

/-- No capital letter is left in spinal case. -/
theorem not_isUpper_of_mem_spinalCase {name : String} :
    ∀ c ∈ (spinalCase name).toList, c.isUpper = false := by
  intro c hc
  rw [toList_spinalCase] at hc
  obtain rfl | ⟨d, -, rfl⟩ := eq_hyphen_or_exists_of_mem_spinalChars hc
  · decide
  · exact not_isUpper_toLower d

/-- A name in spinal case is its own spinal case. -/
theorem spinalCase_spinalCase (name : String) : spinalCase (spinalCase name) = spinalCase name := by
  rw [← String.toList_inj, toList_spinalCase, spinalChars_eq_self not_isUpper_of_mem_spinalCase]

/-! ## Humps -/

/-- A place in some characters is a **hump** if a capital letter stands there and a small letter
directly before it. -/
def IsHump (cs : List Char) (i : Nat) : Prop :=
  0 < i ∧ cs[i - 1]?.any Char.isLower ∧ cs[i]?.any Char.isUpper

instance (cs : List Char) : DecidablePred (IsHump cs) := fun i =>
  inferInstanceAs (Decidable (0 < i ∧ cs[i - 1]?.any Char.isLower ∧ cs[i]?.any Char.isUpper))

/-- The humps of some characters, from left to right. -/
def humps (cs : List Char) : List Nat := (List.range cs.length).filter fun i => IsHump cs i

/-- The places at which the hyphens of the humps stand in spinal case: as many places behind the
hump itself as there are hyphens before this one. -/
def hyphenPlaces (cs : List Char) : List Nat := (humps cs).mapIdx fun earlier i => i + earlier

/-- What comes behind a place makes no difference to the hump there. -/
theorem isHump_append_of_lt {i : Nat} (h : i < cs.length) (ds : List Char) :
    IsHump (cs ++ ds) i ↔ IsHump cs i := by
  have before : i - 1 < cs.length := by omega
  rw [IsHump, IsHump, List.getElem?_append_left h, List.getElem?_append_left before]

/-- One more character is a hump if it is a capital letter and the last one was small. -/
theorem isHump_concat_length :
    IsHump (cs ++ [c]) cs.length ↔ cs.getLast?.any Char.isLower ∧ c.isUpper := by
  by_cases empty : cs = []
  · simp [empty, IsHump]
  · have filled : 0 < cs.length := List.length_pos_iff.2 empty
    have before : cs.length - 1 < cs.length := by omega
    rw [IsHump, List.getElem?_append_left before, ← List.getLast?_eq_getElem?,
      List.getElem?_concat_length]
    exact and_iff_right filled

/-- One more character leaves the humps before it as they are. -/
theorem humps_concat (cs : List Char) (c : Char) :
    humps (cs ++ [c]) =
      humps cs ++ if IsHump (cs ++ [c]) cs.length then [cs.length] else [] := by
  have earlier : (List.range cs.length).filter (fun i => IsHump (cs ++ [c]) i) = humps cs := by
    refine List.filter_congr fun i hi => ?_
    rw [decide_eq_decide, isHump_append_of_lt (List.mem_range.1 hi)]
  rw [humps, List.length_append, List.length_singleton, List.range_succ, List.filter_append,
    earlier, List.filter_cons, List.filter_nil]
  simp only [decide_eq_true_eq]

/-- One more character gets a hyphen before it if it is a hump. -/
theorem spinalChars_concat (cs : List Char) (c : Char) :
    spinalChars false (cs ++ [c]) = spinalChars false cs ++
      if IsHump (cs ++ [c]) cs.length then ['-', c.toLower] else [c.toLower] := by
  have small : cs.getLast?.elim false Char.isLower = cs.getLast?.any Char.isLower := by
    cases cs.getLast? <;> rfl
  rw [spinalChars_append, small]
  simp only [spinalChars, isHump_concat_length, Bool.and_eq_true]

/-- Spinal case is longer than the name by a character for each hump. -/
theorem length_spinalChars (cs : List Char) :
    (spinalChars false cs).length = cs.length + (humps cs).length := by
  -- taken off at the end, a character leaves the humps before it as they are
  induction cs using List.reverseRecOn with
  | nil => rfl
  | append_singleton cs c ih =>
    rw [spinalChars_concat, humps_concat, List.length_append, List.length_append,
      List.length_append, ih]
    by_cases hump : IsHump (cs ++ [c]) cs.length
    · rw [if_pos hump, if_pos hump]
      simp only [List.length_cons, List.length_nil]
      omega
    · rw [if_neg hump, if_neg hump]
      simp only [List.length_cons, List.length_nil]
      omega

/-- A hump at the end has its hyphen where spinal case ended before. -/
theorem hyphenPlaces_concat (cs : List Char) (c : Char) :
    hyphenPlaces (cs ++ [c]) = hyphenPlaces cs ++
      if IsHump (cs ++ [c]) cs.length then [(spinalChars false cs).length] else [] := by
  rw [hyphenPlaces, humps_concat]
  by_cases hump : IsHump (cs ++ [c]) cs.length
  · rw [if_pos hump, if_pos hump, List.mapIdx_concat, length_spinalChars, hyphenPlaces]
  · rw [if_neg hump, if_neg hump, List.append_nil, List.append_nil, hyphenPlaces]

/-- The hyphens stand inside the name in spinal case. -/
theorem lt_of_mem_hyphenPlaces (h : p ∈ hyphenPlaces cs) : p < (spinalChars false cs).length := by
  obtain ⟨earlier, hearlier, rfl⟩ := List.mem_mapIdx.1 h
  have inside : (humps cs)[earlier] < cs.length :=
    List.mem_range.1 (List.mem_filter.1 (List.getElem_mem hearlier)).1
  rw [length_spinalChars]
  omega

/-! ## Deleting the hyphens -/

/-- What is left of some characters when those at the given places are deleted. -/
def withoutPlaces (places : List Nat) (cs : List Char) : List Char :=
  (cs.zipIdx.filter fun item => item.2 ∉ places).map Prod.fst

/-- Places in the second of two texts are counted on from the length of the first. -/
theorem withoutPlaces_append {places : List Nat} (h : ∀ p ∈ places, p < cs.length)
    (others : List Nat) (ds : List Char) :
    withoutPlaces (places ++ others.map (cs.length + ·)) (cs ++ ds) =
      withoutPlaces places cs ++ withoutPlaces others ds := by
  -- neither list of places reaches into the other text
  have first : cs.zipIdx.filter (fun item => item.2 ∉ places ++ others.map (cs.length + ·)) =
      cs.zipIdx.filter fun item => item.2 ∉ places := by
    refine List.filter_congr fun item hitem => ?_
    have inside : item.2 < cs.length := List.snd_lt_of_mem_zipIdx hitem
    have apart : item.2 ∉ others.map (cs.length + ·) := by
      intro shifted
      obtain ⟨q, -, hq⟩ := List.mem_map.1 shifted
      omega
    rw [decide_eq_decide, List.mem_append, or_iff_left apart]
  have second : (ds.zipIdx (0 + cs.length)).filter
        (fun item => item.2 ∉ places ++ others.map (cs.length + ·)) =
      (ds.zipIdx.filter fun item => item.2 ∉ others).map
        fun item => (item.1, cs.length + item.2) := by
    have shift : Function.Injective (cs.length + ·) := fun _ _ => Nat.add_left_cancel
    rw [Nat.zero_add, List.zipIdx_eq_map_add, List.filter_map]
    congr 1
    refine List.filter_congr fun item _ => ?_
    have apart : cs.length + item.2 ∉ places := by
      intro hp
      have inside := h _ hp
      omega
    rw [Function.comp_apply, decide_eq_decide, List.mem_append, or_iff_right apart,
      List.mem_map_of_injective shift]
  rw [withoutPlaces, List.zipIdx_append, List.filter_append, List.map_append, first, second,
    List.map_map]
  rfl

/-- Without the inserted hyphens, spinal case is the name in small letters. -/
theorem withoutPlaces_hyphenPlaces (cs : List Char) :
    withoutPlaces (hyphenPlaces cs) (spinalChars false cs) = cs.map Char.toLower := by
  induction cs using List.reverseRecOn with
  | nil => rfl
  | append_singleton cs c ih =>
    have step := withoutPlaces_append fun p (hp : p ∈ hyphenPlaces cs) => lt_of_mem_hyphenPlaces hp
    rw [hyphenPlaces_concat, spinalChars_concat, List.map_append, ← ih]
    by_cases hump : IsHump (cs ++ [c]) cs.length
    · rw [if_pos hump, if_pos hump]
      exact step [0] ['-', c.toLower]
    · rw [if_neg hump, if_neg hump]
      exact step [] [c.toLower]

/-! ## Beside the hyphens -/

/-- A hyphen stands at the place, with a small letter on either side. -/
structure StandsBetweenLetters (cs : List Char) (p : Nat) : Prop where
  /-- The place is not the first one. -/
  inside : 0 < p
  /-- The character is a hyphen. -/
  hyphen : cs[p]? = some '-'
  /-- The character before it is a small letter. -/
  before : cs[p - 1]?.any Char.isLower
  /-- The character behind it is a small letter. -/
  after : cs[p + 1]?.any Char.isLower

namespace StandsBetweenLetters

/-- A hyphen between small letters is not beside another hyphen. -/
theorem not_beside {q : Nat} (h : StandsBetweenLetters cs p) (beside : q + 1 = p ∨ q = p + 1) :
    cs[q]? ≠ some '-' := by
  intro hyphen
  have letter : cs[q]?.any Char.isLower := by
    obtain rfl | rfl := beside
    · exact h.before
    · exact h.after
  rw [hyphen] at letter
  exact absurd letter (by decide)

/-- What comes behind the letters makes no difference to the hyphen between them. -/
theorem append (h : StandsBetweenLetters cs p) (ds : List Char) :
    StandsBetweenLetters (cs ++ ds) p := by
  have next : p + 1 < cs.length := by
    by_contra outside
    have after := h.after
    rw [List.getElem?_eq_none (by omega)] at after
    cases after
  constructor
  · exact h.inside
  · rw [List.getElem?_append_left (by omega), h.hyphen]
  · rw [List.getElem?_append_left (by omega), h.before]
  · rw [List.getElem?_append_left next, h.after]

/-- A hyphen and a small letter put behind a small letter. -/
theorem concat (before : cs.getLast?.any Char.isLower) (after : c.isLower) :
    StandsBetweenLetters (cs ++ ['-', c]) cs.length := by
  have filled : 0 < cs.length := by
    by_contra empty
    have none : cs = [] := List.length_eq_zero_iff.1 (by omega)
    rw [none] at before
    cases before
  constructor
  · exact filled
  · simp
  · rwa [List.getElem?_append_left (by omega), ← List.getLast?_eq_getElem?]
  · simpa using after

end StandsBetweenLetters

/-- Spinal case ends in the last character of the name, made small. -/
theorem getLast?_spinalChars (afterSmall : Bool) (cs : List Char) :
    (spinalChars afterSmall cs).getLast? = cs.getLast?.map Char.toLower := by
  induction cs using List.reverseRecOn with
  | nil => rfl
  | append_singleton cs c =>
    rw [spinalChars_append, List.getLast?_append, List.getLast?_concat]
    simp only [spinalChars]
    split <;> rfl

/-- A small letter at the end of a name is the end of its spinal case. -/
theorem getLast?_spinalChars_of_isLower (h : cs.getLast?.any Char.isLower) (afterSmall : Bool) :
    (spinalChars afterSmall cs).getLast? = cs.getLast? := by
  rw [getLast?_spinalChars]
  cases last : cs.getLast? with
  | none => rfl
  | some c =>
    have small : c.isLower := by simpa [last] using h
    rw [Option.map_some, toLower_of_not_isUpper (not_isUpper_of_isLower small)]

/-- Every inserted hyphen stands between two small letters. -/
theorem standsBetweenLetters_of_mem_hyphenPlaces (h : p ∈ hyphenPlaces cs) :
    StandsBetweenLetters (spinalChars false cs) p := by
  induction cs using List.reverseRecOn with
  | nil => cases h
  | append_singleton cs c ih =>
    rw [hyphenPlaces_concat, List.mem_append] at h
    rw [spinalChars_concat]
    obtain earlier | last := h
    · exact (ih earlier).append _
    · -- the letter before a hump is small already, so it ends the spinal case so far
      by_cases hump : IsHump (cs ++ [c]) cs.length
      · obtain ⟨small, capital⟩ := isHump_concat_length.1 hump
        rw [if_pos hump, List.mem_singleton] at last
        rw [if_pos hump, last]
        apply StandsBetweenLetters.concat
        · rwa [getLast?_spinalChars_of_isLower small]
        · exact isLower_toLower_of_isUpper capital
      · rw [if_neg hump] at last
        cases last

/-! ## The laws together -/

/-- Two names joined by a hyphen become spinal case one by one, and so do the parts in the name of a
side and in a name with a vendor prefix. Of every name the spinal case has no capital letter.
Without the hyphens inserted at the humps it is the name with its capital letters made small, the
characters that are no capital letters being kept. Every inserted hyphen stands between two small
letters, and never beside another hyphen. Spinal case a second time changes nothing. -/
theorem spinalCase_sets_off_humps :
    (∀ name name', spinalCase (name ++ "-" ++ name') =
        spinalCase name ++ "-" ++ spinalCase name') ∧
    (∀ name side, spinalCase (sideName name side) =
        sideName (spinalCase name) (side.map spinalCase)) ∧
    (∀ vendor name, spinalCase (prefixedName vendor name) =
        prefixedName (spinalCase vendor) (spinalCase name)) ∧
    ∀ name,
      (∀ c ∈ (spinalCase name).toList, c.isUpper = false) ∧
      withoutPlaces (hyphenPlaces name.toList) (spinalCase name).toList =
        name.toList.map Char.toLower ∧
      (∀ c ∈ name.toList, c.isUpper = false → c.toLower = c) ∧
      (∀ p ∈ hyphenPlaces name.toList, StandsBetweenLetters (spinalCase name).toList p ∧
        ∀ q, q + 1 = p ∨ q = p + 1 → (spinalCase name).toList[q]? ≠ some '-') ∧
      spinalCase (spinalCase name) = spinalCase name := by
  refine ⟨spinalCase_append_hyphen, spinalCase_sideName, spinalCase_prefixedName, fun name => ?_⟩
  have between : ∀ p ∈ hyphenPlaces name.toList,
      StandsBetweenLetters (spinalCase name).toList p := by
    intro p hp
    rw [toList_spinalCase]
    exact standsBetweenLetters_of_mem_hyphenPlaces hp
  refine ⟨not_isUpper_of_mem_spinalCase, ?_, fun c _ kept => toLower_of_not_isUpper kept,
    fun p hp => ⟨between p hp, fun q => (between p hp).not_beside⟩, spinalCase_spinalCase name⟩
  rw [toList_spinalCase, withoutPlaces_hyphenPlaces]

/-- A foreign capital letter before a hyphen, a capital letter behind it, and two humps: the second
hyphen stands a place behind its hump. -/
theorem spinalCase_sets_off_humps_corner :
    let name := "borderÉ-TopLeftPx"
    let css := "borderÉ-top-left-px"
    spinalCase name = css ∧ spinalCase name = spinalCase "borderÉ" ++ "-" ++ spinalCase "TopLeftPx" ∧
      humps name.toList = [11, 15] ∧ hyphenPlaces name.toList = [11, 16] ∧
      'p' ∈ css.toList ∧ 'p'.isUpper = false ∧
      withoutPlaces [11, 16] css.toList = "borderÉ-topleftpx".toList ∧
      'É' ∈ name.toList ∧ 'É'.isUpper = false ∧ 'É'.toLower = 'É' ∧
      StandsBetweenLetters css.toList 16 ∧ css.toList[17]? ≠ some '-' ∧
      spinalCase css = css := by
  intro name css
  have cased : spinalCase name = css := by decide
  have places : hyphenPlaces name.toList = [11, 16] := by decide
  have mem : 'p' ∈ css.toList := by decide
  have mem' : 'É' ∈ name.toList := by decide
  have foreign : 'É'.isUpper = false := by decide
  obtain ⟨joint, -, -, laws⟩ := spinalCase_sets_off_humps
  obtain ⟨small, deleted, kept, between, again⟩ := laws name
  rw [cased] at small deleted between again
  rw [places] at deleted between
  obtain ⟨letters, beside⟩ := between 16 (by decide)
  exact ⟨cased, joint "borderÉ" "TopLeftPx", by decide, places, mem, small 'p' mem,
    deleted.trans (by decide), mem', foreign, kept 'É' mem' foreign, letters, beside 17 (.inr rfl),
    again⟩

end StyleTree
