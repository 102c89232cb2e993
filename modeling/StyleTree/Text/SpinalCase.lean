/-! # Spinal case

Property names and pseudo-selectors are written in camelCase in a style map and in **spinal case**
in the style sheet: a hyphen goes before every capital letter that directly follows a small letter,
and all capital letters become small. Only the ASCII letters count; other characters are kept. -/

namespace StyleTree

/-! ## Letters -/

/-- Capital letters are those from A to Z. -/
theorem isUpper_iff_val {c : Char} : c.isUpper ↔ 'A'.val ≤ c.val ∧ c.val ≤ 'Z'.val :=
  decide_eq_true_iff

/-- The numbers of the capital letters go from 65 to 90. -/
theorem isUpper_iff {c : Char} : c.isUpper ↔ 65 ≤ c.toNat ∧ c.toNat ≤ 90 :=
  isUpper_iff_val.trans (and_congr UInt32.le_iff_toNat_le UInt32.le_iff_toNat_le)

/-- Small letters are those from a to z. -/
theorem isLower_iff_val {c : Char} : c.isLower ↔ 'a'.val ≤ c.val ∧ c.val ≤ 'z'.val :=
  Bool.and_eq_true_iff.trans (and_congr decide_eq_true_iff decide_eq_true_iff)

/-- The numbers of the small letters go from 97 to 122. -/
theorem isLower_iff {c : Char} : c.isLower ↔ 97 ≤ c.toNat ∧ c.toNat ≤ 122 :=
  isLower_iff_val.trans (and_congr UInt32.le_iff_toNat_le UInt32.le_iff_toNat_le)

/-- Only capital letters are made small. -/
theorem toLower_of_not_isUpper {c : Char} (h : c.isUpper = false) : c.toLower = c := by
  have outside : ¬ ('A'.val ≤ c.val ∧ c.val ≤ 'Z'.val) := of_decide_eq_false h
  exact dif_neg outside

/-- A capital letter and its small letter are 32 code points apart. -/
theorem toNat_toLower_of_isUpper {c : Char} (h : c.isUpper) : c.toLower.toNat = c.toNat + 32 := by
  have inside := isUpper_iff_val.1 h
  have bounds := isUpper_iff.1 h
  have lowered : c.toLower = _ := dif_pos inside
  rw [lowered]
  show (c.val + 32).toNat = c.toNat + 32
  rw [UInt32.toNat_add]
  exact Nat.mod_eq_of_lt (by simp; omega)

/-- A capital letter is made a small one. -/
theorem isLower_toLower_of_isUpper {c : Char} (h : c.isUpper) : c.toLower.isLower := by
  have bounds := isUpper_iff.1 h
  have shifted := toNat_toLower_of_isUpper h
  exact isLower_iff.2 (by omega)

/-- No letter is both small and capital. -/
theorem not_isUpper_of_isLower {c : Char} (h : c.isLower) : c.isUpper = false := by
  have bounds := isLower_iff.1 h
  rw [Bool.eq_false_iff, ne_eq, isUpper_iff]
  omega

/-- A capital letter comes 32 places before its small one. -/
theorem toNat_toUpper_of_isLower {c : Char} (h : c.isLower) : c.toUpper.toNat + 32 = c.toNat := by
  have inside := isLower_iff_val.1 h
  have bounds := isLower_iff.1 h
  have raised : c.toUpper = _ := dif_pos inside
  rw [raised]
  show (c.val + 4294967264).toNat + 32 = c.toNat
  -- going down by 32 is going up to the same place modulo the word size
  have code : c.val.toNat = c.toNat := rfl
  rw [UInt32.toNat_add, code]
  simp
  omega

/-- A small letter has a capital one. -/
theorem isUpper_toUpper_of_isLower {c : Char} (h : c.isLower) : c.toUpper.isUpper := by
  have bounds := isLower_iff.1 h
  have shifted := toNat_toUpper_of_isLower h
  exact isUpper_iff.2 (by omega)

/-- A small letter is the small letter of its capital letter. -/
theorem toLower_toUpper_of_isLower {c : Char} (h : c.isLower) : c.toUpper.toLower = c := by
  have raised := toNat_toUpper_of_isLower h
  have lowered := toNat_toLower_of_isUpper (isUpper_toUpper_of_isLower h)
  exact Char.toNat_inj.1 (by omega)

/-- No capital letter is left once it is made small. -/
theorem not_isUpper_toLower (c : Char) : c.toLower.isUpper = false := by
  by_cases h : c.isUpper
  · exact not_isUpper_of_isLower (isLower_toLower_of_isUpper h)
  · rw [Bool.not_eq_true] at h
    rw [toLower_of_not_isUpper h, h]

/-- A capital letter is the capital letter of its small letter. -/
theorem toUpper_toLower_of_isUpper {c : Char} (h : c.isUpper) : c.toLower.toUpper = c := by
  have lowered := toNat_toLower_of_isUpper h
  have raised := toNat_toUpper_of_isLower (isLower_toLower_of_isUpper h)
  exact Char.toNat_inj.1 (by omega)

/-! ## Names -/

/-- Spinal case of the characters of a name, where `afterSmall` says that the character before them
is a small letter. -/
def spinalChars (afterSmall : Bool) : List Char → List Char
  | [] => []
  | c :: cs =>
    if afterSmall && c.isUpper then '-' :: c.toLower :: spinalChars c.isLower cs
    else c.toLower :: spinalChars c.isLower cs

/-- Spinal case of a name. -/
def spinalCase (name : String) : String := String.ofList (spinalChars false name.toList)

/-- Spinal case is written character by character. -/
@[simp] theorem toList_spinalCase (name : String) :
    (spinalCase name).toList = spinalChars false name.toList := by
  simp [spinalCase]

@[simp] theorem spinalChars_nil (afterSmall : Bool) : spinalChars afterSmall [] = [] := rfl

/-- At the start of a name no hyphen is set. -/
@[simp] theorem spinalChars_false_cons (c : Char) (cs : List Char) :
    spinalChars false (c :: cs) = c.toLower :: spinalChars c.isLower cs := rfl

/-- After a small letter a capital letter is set off by a hyphen. -/
theorem spinalChars_true_cons (c : Char) (cs : List Char) :
    spinalChars true (c :: cs) =
      if c.isUpper then '-' :: c.toLower :: spinalChars c.isLower cs
      else c.toLower :: spinalChars c.isLower cs := by
  simp [spinalChars]

/-- Of the characters before a part of a name, only the last one matters to that part. -/
theorem spinalChars_append (afterSmall : Bool) (cs ds : List Char) :
    spinalChars afterSmall (cs ++ ds) =
      spinalChars afterSmall cs ++ spinalChars (cs.getLast?.elim afterSmall Char.isLower) ds := by
  induction cs generalizing afterSmall with
  | nil => rfl
  | cons c cs ih =>
    have last : (c :: cs).getLast?.elim afterSmall Char.isLower =
        cs.getLast?.elim c.isLower Char.isLower := by
      rw [List.getLast?_cons]
      cases cs.getLast? <;> rfl
    rw [List.cons_append, spinalChars, spinalChars, ih, last]
    split <;> rfl

/-- A hyphen in a name separates it into parts that are cased on their own. -/
theorem spinalChars_append_hyphen (afterSmall : Bool) (cs ds : List Char) :
    spinalChars afterSmall (cs ++ '-' :: ds) =
      spinalChars afterSmall cs ++ '-' :: spinalChars false ds := by
  have hyphen (small : Bool) : spinalChars small ('-' :: ds) = '-' :: spinalChars false ds := by
    simp [spinalChars]
  rw [spinalChars_append, hyphen]

/-- Names joined by a hyphen are written in spinal case one by one. -/
theorem spinalCase_append_hyphen (name name' : String) :
    spinalCase (name ++ "-" ++ name') = spinalCase name ++ "-" ++ spinalCase name' := by
  rw [← String.toList_inj]
  simp [spinalChars_append_hyphen]

/-- Spinal case consists of hyphens and of the characters of the name, made small. -/
theorem eq_hyphen_or_exists_of_mem_spinalChars {c : Char} {afterSmall : Bool} {cs : List Char}
    (h : c ∈ spinalChars afterSmall cs) : c = '-' ∨ ∃ d ∈ cs, c = d.toLower := by
  induction cs generalizing afterSmall with
  | nil => cases h
  | cons d cs ih =>
    have mem : c ∈ '-' :: d.toLower :: spinalChars d.isLower cs := by
      rw [spinalChars] at h
      split at h
      · exact h
      · exact List.mem_cons_of_mem '-' h
    simp only [List.mem_cons] at mem
    obtain hyphen | first | later := mem
    · exact .inl hyphen
    · exact .inr ⟨d, List.mem_cons_self, first⟩
    · refine (ih later).imp id ?_
      rintro ⟨e, he, small⟩
      exact ⟨e, List.mem_cons_of_mem d he, small⟩

/-- Where there is no capital letter, spinal case changes nothing. -/
theorem spinalChars_eq_self {cs : List Char} (h : ∀ c ∈ cs, c.isUpper = false)
    (afterSmall : Bool) : spinalChars afterSmall cs = cs := by
  induction cs generalizing afterSmall with
  | nil => rfl
  | cons c cs ih =>
    obtain ⟨first, others⟩ := List.forall_mem_cons.1 h
    rw [spinalChars, first, Bool.and_false, if_neg Bool.false_ne_true, ih others,
      toLower_of_not_isUpper first]

end StyleTree
