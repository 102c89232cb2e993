import StyleTree.Proofs.Results
import StyleTree.Rule.Declarations

/-! # Writable values

Which values have a text, and why the others have none. The leaves of a value decide: texts and
finite numbers can be written, maps and other numbers cannot, and the leftmost leaf that cannot is
the one that an error is about. A map can be declared nevertheless, side by side, if the value of
each side is writable.

* **`StyleValue.Writable`** and **`StyleValue.fault?`** are the two sides of it for one value,
  **`StyleValue.Declarable`** and **`ValueFault`** for what is declared of a property.
* **`declareEntry_of_declarable`** and **`declareEntry_of_fault`** say that an entry is declared or
  not accordingly; its vendor prefixes play no part in it. -/

namespace StyleTree

namespace StyleValue

/-- Why a leaf cannot be written, if it cannot. -/
def leafFault? : StyleValue → Option Unwritable
  | .number x => if x.isFinite then none else some (.notFinite x)
  | .map _ => some .map
  | _ => none

/-- Why the leftmost leaf that cannot be written cannot be, if there is one. -/
def fault? (value : StyleValue) : Option Unwritable := value.leaves.findSome? leafFault?

/-- A value is **writable** if its leaves are texts and finite numbers. -/
def Writable (value : StyleValue) : Prop :=
  ∀ leaf ∈ value.leaves, (∃ s, leaf = .text s) ∨ ∃ x, leaf = .number x ∧ x.isFinite

/-! ## Leaves -/

mutual

/-- No leaf is a list. -/
theorem ne_list_of_mem_leaves (value : StyleValue) :
    ∀ leaf ∈ value.leaves, ∀ items, leaf ≠ .list items := by
  match value with
  | .number x => simp [leaves]
  | .text s => simp [leaves]
  | .map entries => simp [leaves]
  | .list items =>
    rw [leaves]
    exact ne_list_of_mem_leavesOfItems items

/-- A leaf is no list. -/
theorem ne_list_of_mem_leavesOfItems (values : List StyleValue) :
    ∀ leaf ∈ leavesOfItems values, ∀ items, leaf ≠ .list items := by
  match values with
  | [] => simp [leavesOfItems]
  | value :: rest =>
    intro leaf hleaf
    rw [leavesOfItems] at hleaf
    rcases List.mem_append.1 hleaf with hleaf | hleaf
    · exact ne_list_of_mem_leaves value leaf hleaf
    · exact ne_list_of_mem_leavesOfItems rest leaf hleaf

end

/-- A value is writable if no leaf has a fault. -/
theorem writable_iff {value : StyleValue} : value.Writable ↔ value.fault? = none := by
  rw [fault?, List.findSome?_eq_none_iff, Writable]
  refine forall₂_congr fun leaf hleaf => ?_
  cases leaf with
  | number x => simp [leafFault?]
  | text s => simp [leafFault?]
  | map entries => simp [leafFault?]
  | list items => exact absurd rfl (ne_list_of_mem_leaves value _ hleaf items)

/-! ## Writing -/

/-- Of two runs of leaves the first one has the first fault. -/
theorem findSome?_leavesOfItems_cons (item : StyleValue) (rest : List StyleValue) :
    (leavesOfItems (item :: rest)).findSome? leafFault? =
      item.fault?.or ((leavesOfItems rest).findSome? leafFault?) := by
  rw [leavesOfItems, List.findSome?_append, fault?]

mutual

/-- The text of a value whose numbers are written with a unit and whose items with a separator
between them. A map has no text. -/
def textWith (unit separator : String) : StyleValue → String
  | .number x => if x.isZero then "0" else x.text ++ unit
  | .text s => s
  | .list items => separator.intercalate (textsWith unit separator items)
  | .map _ => ""

/-- The texts of the items of a list. -/
def textsWith (unit separator : String) : List StyleValue → List String
  | [] => []
  | item :: rest => textWith unit separator item :: textsWith unit separator rest

end

/-- A finite number is written with the unit of its property, zero without one. -/
theorem formatNumber_of_isFinite (property : String) {x : Binary64} (h : x.isFinite) :
    formatNumber property x =
      .ok (if x.isZero then "0" else x.text ++ (NumberUnit.ofProperty property).suffix) := by
  unfold formatNumber
  simp only [h, Bool.not_true, Bool.false_eq_true, ↓reduceIte]
  split <;> rfl

mutual

/-- A value without a fault has the text that the unit and the separator of the property give. -/
theorem format_of_fault?_eq_none (property : String) (value : StyleValue)
    (h : value.fault? = none) :
    value.format property =
      .ok (value.textWith (NumberUnit.ofProperty property).suffix (listSeparator property)) := by
  match value with
  | .number x =>
    have finite : x.isFinite := by simpa [fault?, leaves, leafFault?] using h
    rw [format_number, formatNumber_of_isFinite property finite, textWith]
  | .text s => rw [format_text, textWith]
  | .map entries => simp [fault?, leaves, leafFault?] at h
  | .list items =>
    rw [format_list, formatItems_of_fault?_eq_none property items h, textWith]
    rfl

/-- Items without a faulty leaf are written one behind the other. -/
theorem formatItems_of_fault?_eq_none (property : String) (items : List StyleValue)
    (h : (leavesOfItems items).findSome? leafFault? = none) :
    formatItems property items =
      .ok (textsWith (NumberUnit.ofProperty property).suffix (listSeparator property) items) := by
  match items with
  | [] => rw [formatItems, textsWith]
  | item :: rest =>
    rw [findSome?_leavesOfItems_cons, Option.or_eq_none_iff] at h
    rw [formatItems, format_of_fault?_eq_none property item h.1,
      formatItems_of_fault?_eq_none property rest h.2, textsWith]
    rfl

end

mutual

/-- A value with a fault has none, and the error is about the first fault. -/
theorem format_of_fault? (property : String) (value : StyleValue) {reason : Unwritable}
    (h : value.fault? = some reason) :
    value.format property = .error (.unsupportedValue property reason) := by
  match value with
  | .number x =>
    cases hx : x.isFinite with
    | true => simp [fault?, leaves, leafFault?, hx] at h
    | false =>
      obtain rfl : Unwritable.notFinite x = reason := by
        simpa [fault?, leaves, leafFault?, hx] using h
      exact formatNumber_of_not_isFinite property hx
  | .text s => simp [fault?, leaves, leafFault?] at h
  | .map entries =>
    obtain rfl : Unwritable.map = reason := by
      simpa [fault?, leaves, leafFault?] using h
    rfl
  | .list items =>
    rw [format_list]
    exact Result.map_eq_error.2 (formatItems_of_fault? property items h)

/-- Items fail because of their first faulty leaf. -/
theorem formatItems_of_fault? (property : String) (items : List StyleValue) {reason : Unwritable}
    (h : (leavesOfItems items).findSome? leafFault? = some reason) :
    formatItems property items = .error (.unsupportedValue property reason) := by
  match items with
  | [] => simp [leavesOfItems] at h
  | item :: rest =>
    rw [findSome?_leavesOfItems_cons] at h
    rw [formatItems]
    -- a fault of the first item comes first; without one its text is of no account
    cases hitem : item.fault? with
    | some first =>
      rw [hitem, Option.some_or] at h
      obtain rfl : first = reason := Option.some.inj h
      rw [format_of_fault? property item hitem]
      rfl
    | none =>
      rw [hitem, Option.none_or] at h
      rw [format_of_fault?_eq_none property item hitem, formatItems_of_fault? property rest h]
      rfl

end

/-- A value can be **declared** of a property if it is writable, or a map with a writable value for
each side. -/
def Declarable (value : StyleValue) : Prop :=
  value.Writable ∨ ∃ sides, value = .map sides ∧ ∀ side ∈ sides, side.2.Writable

end StyleValue

/-! ## Declaring -/

/-- The name of a side in errors: that of the side itself, or of the first side that it stands
for. -/
def sideKey (property : String) : String → String
  | "all" => property
  | "vertical" => property ++ "-top"
  | "horizontal" => property ++ "-right"
  | side => property ++ "-" ++ side

/-- A value has a **fault** for a property if it is no map and cannot be written, or a map with a
side that cannot be written behind sides that can. -/
inductive ValueFault (property : String) : StyleValue → Error → Prop
  /-- The value itself cannot be written. -/
  | whole {value : StyleValue} {reason : Unwritable} (noMap : ∀ sides, value ≠ .map sides)
      (fault : value.fault? = some reason) :
      ValueFault property value (.unsupportedValue property reason)
  /-- The value of a side is the first that cannot be written. -/
  | side {before after : List (String × StyleValue)} {side : String} {part : StyleValue}
      {reason : Unwritable} (sound : ∀ earlier ∈ before, earlier.2.Writable)
      (fault : part.fault? = some reason) :
      ValueFault property (.map (before ++ (side, part) :: after))
        (.unsupportedValue (sideKey property side) reason)

/-- The sides of a map are all writable, or there is a first one that is not. -/
theorem writable_or_fault_of_sides (sides : List (String × StyleValue)) :
    (∀ side ∈ sides, side.2.Writable) ∨
      ∃ before side part after reason, sides = before ++ (side, part) :: after ∧
        (∀ earlier ∈ before, earlier.2.Writable) ∧ part.fault? = some reason := by
  induction sides with
  | nil => simp
  | cons first rest ih =>
    obtain ⟨key, value⟩ := first
    cases hvalue : value.fault? with
    | some reason => exact .inr ⟨[], key, value, rest, reason, rfl, by simp, hvalue⟩
    | none =>
      have writable := StyleValue.writable_iff.2 hvalue
      rcases ih with sound | ⟨before, side, part, after, reason, rfl, sound, fault⟩
      · exact .inl (List.forall_mem_cons.2 ⟨writable, sound⟩)
      · exact .inr ⟨(key, value) :: before, side, part, after, reason, rfl,
          List.forall_mem_cons.2 ⟨writable, sound⟩, fault⟩

/-- Either a value can be declared or it has a fault. -/
theorem declarable_or_fault (property : String) (value : StyleValue) :
    value.Declarable ∨ ∃ e, ValueFault property value e := by
  by_cases map : ∃ sides, value = .map sides
  · obtain ⟨sides, rfl⟩ := map
    rcases writable_or_fault_of_sides sides with
      sound | ⟨before, side, part, after, reason, rfl, sound, fault⟩
    · exact .inl (.inr ⟨sides, rfl, sound⟩)
    · exact .inr ⟨_, .side sound fault⟩
  · cases hvalue : value.fault? with
    | none => exact .inl (.inl (StyleValue.writable_iff.2 hvalue))
    | some reason => exact .inr ⟨_, .whole (fun sides e => map ⟨sides, e⟩) hvalue⟩

/-- A writable value is declared with the text that it has for the side. -/
theorem declareSide_of_writable {value : StyleValue} (h : value.Writable) (name property : String)
    (side : Option String) :
    declareSide name property value side =
      .ok ⟨spinalCase (sideName name side),
        value.textWith (NumberUnit.ofProperty (sideName property side)).suffix
          (listSeparator (sideName property side))⟩ := by
  rw [declareSide, StyleValue.format_of_fault?_eq_none _ value (StyleValue.writable_iff.1 h)]
  rfl

/-- A writable value is declared once, as a whole. -/
theorem declareProperty_of_writable {value : StyleValue} (h : value.Writable)
    (name property : String) :
    declareProperty name property value =
      .ok [⟨spinalCase name,
        value.textWith (NumberUnit.ofProperty property).suffix (listSeparator property)⟩] := by
  unfold declareProperty
  split
  · next sides =>
    have fault : StyleValue.fault? (.map sides) = none := StyleValue.writable_iff.1 h
    simp [StyleValue.fault?, StyleValue.leaves, StyleValue.leafFault?] at fault
  · rw [declareSide_of_writable h]
    rfl

/-- A faulty value fails under the name of its side. -/
theorem declareSide_of_fault {value : StyleValue} {reason : Unwritable}
    (h : value.fault? = some reason) (name property : String) (side : Option String) :
    declareSide name property value side =
      .error (.unsupportedValue (sideName property side) reason) := by
  rw [declareSide, StyleValue.format_of_fault? _ value h]
  rfl

/-- Every key stands for some side, and the first one gives it its name in errors. -/
theorem exists_expandSide_eq (property side : String) :
    ∃ first others, expandSide side = first :: others ∧
      sideName property first = sideKey property side := by
  unfold expandSide
  split
  · exact ⟨none, [], rfl, rfl⟩
  · exact ⟨some "top", [some "bottom"], rfl, by simp [sideKey, sideName, String.append_assoc]⟩
  · exact ⟨some "right", [some "left"], rfl, by simp [sideKey, sideName, String.append_assoc]⟩
  · exact ⟨some side, [], rfl, by simp [sideKey, sideName]⟩

/-- Sides that are all writable are declared. -/
theorem exists_declareSides {sides : List (String × StyleValue)}
    (h : ∀ side ∈ sides, side.2.Writable) (name property : String) :
    ∃ declarations, declareSides name property sides = .ok declarations := by
  induction sides with
  | nil => exact ⟨[], rfl⟩
  | cons first rest ih =>
    obtain ⟨key, value⟩ := first
    obtain ⟨writable, sound⟩ := List.forall_mem_cons.1 h
    obtain ⟨run, hrun⟩ := Result.exists_mapM_ok (l := expandSide key) fun side _ =>
      ⟨_, declareSide_of_writable writable name property side⟩
    obtain ⟨later, hlater⟩ := ih sound
    refine ⟨run ++ later, ?_⟩
    rw [declareSides, hrun, hlater]
    rfl

/-- The first faulty side fails under its own key. -/
theorem declareSides_of_fault {before after : List (String × StyleValue)} {side : String}
    {part : StyleValue} {reason : Unwritable} (sound : ∀ earlier ∈ before, earlier.2.Writable)
    (fault : part.fault? = some reason) (name property : String) :
    declareSides name property (before ++ (side, part) :: after) =
      .error (.unsupportedValue (sideKey property side) reason) := by
  induction before with
  | nil =>
    obtain ⟨first, others, expanded, key_eq⟩ := exists_expandSide_eq property side
    have failed := declareSide_of_fault fault name property first
    rw [List.nil_append, declareSides, expanded, Result.mapM_cons_of_error failed, key_eq]
    rfl
  | cons earlier rest ih =>
    obtain ⟨key, value⟩ := earlier
    obtain ⟨writable, sound⟩ := List.forall_mem_cons.1 sound
    obtain ⟨run, hrun⟩ := Result.exists_mapM_ok (l := expandSide key) fun side _ =>
      ⟨_, declareSide_of_writable writable name property side⟩
    rw [List.cons_append, declareSides, hrun, ih sound]
    rfl

/-- What can be declared is declared, under any name. -/
theorem exists_declareProperty {value : StyleValue} (h : value.Declarable)
    (name property : String) :
    ∃ declarations, declareProperty name property value = .ok declarations := by
  rcases h with writable | ⟨sides, rfl, sound⟩
  · exact ⟨_, declareProperty_of_writable writable name property⟩
  · exact exists_declareSides sound name property

/-- A fault is reported under the name of the property, whatever name is declared. -/
theorem declareProperty_of_fault {property : String} {value : StyleValue} {e : Error}
    (h : ValueFault property value e) (name : String) :
    declareProperty name property value = .error e := by
  cases h with
  | @whole value reason noMap fault =>
    unfold declareProperty
    split
    · next sides => exact absurd rfl (noMap sides)
    · rw [declareSide_of_fault fault]
      rfl
  | side sound fault => exact declareSides_of_fault sound fault name property

/-- An entry whose value can be declared is declared under all its names. -/
theorem declareEntry_of_declarable {value : StyleValue} (h : value.Declarable)
    (prefixes : List String) (property : String) :
    ∃ declarations, declareEntry prefixes property value = .ok declarations := by
  obtain ⟨runs, hruns⟩ := Result.exists_mapM_ok (l := declaredNames prefixes property)
    fun name _ => exists_declareProperty h name property
  refine ⟨runs.flatten, ?_⟩
  rw [declareEntry, hruns]
  rfl

/-- An entry whose value has a fault fails under the first of its names, which does not show. -/
theorem declareEntry_of_fault {property : String} {value : StyleValue} {e : Error}
    (h : ValueFault property value e) (prefixes : List String) :
    declareEntry prefixes property value = .error e := by
  have failed (names : List String) (name : String) :
      (name :: names).mapM (declareProperty · property value) = .error e :=
    Result.mapM_cons_of_error (f := (declareProperty · property value))
      (declareProperty_of_fault h name) names
  rw [declareEntry, declaredNames]
  cases prefixes with
  | nil =>
    rw [List.map_nil, List.nil_append, failed]
    rfl
  | cons vendor rest =>
    rw [List.map_cons, List.cons_append, failed]
    rfl

end StyleTree
