import StyleTree.Proofs.WritableValues

/-! # The text of a value is its leaves joined

How the text of a value depends on its leaves. Where a value cannot be written, the leftmost leaf
that cannot be written says why. Where it can, the nesting of its lists leaves no trace: joining
some texts and then joining the result with others is joining all of them, unless there are no texts
to start with, for then an empty text is joined in.

* **`StyleValue.leafText`** is the text of a leaf.
* **`StyleValue.NestsFilled`** says that no list inside a list is empty.
* **`format_joins_leaves`** puts both together. -/

namespace StyleTree

namespace StyleValue

/-- The text of a leaf for a property: a text as it is, zero alike for every property, any other
number with the unit of the property. A map has no text. -/
def leafText (property : String) : StyleValue → String
  | .number x => if x.isZero then "0" else x.text ++ (NumberUnit.ofProperty property).suffix
  | .text s => s
  | _ => ""

mutual

/-- A value **nests filled** lists if no list inside another list is empty; the value itself may be
an empty list. -/
def NestsFilled : StyleValue → Prop
  | .list items => ItemsFilled items
  | _ => True

/-- The items of a list are no empty lists and nest filled lists. -/
def ItemsFilled : List StyleValue → Prop
  | [] => True
  | item :: rest => item ≠ .list [] ∧ NestsFilled item ∧ ItemsFilled rest

end

/-- A number nests no list. -/
@[simp] theorem nestsFilled_number (x : Binary64) : NestsFilled (.number x) := by
  simp [NestsFilled]

/-- A text nests no list. -/
@[simp] theorem nestsFilled_text (s : String) : NestsFilled (.text s) := by
  simp [NestsFilled]

/-- A list nests filled lists only if its items are fit to be nested. -/
@[simp] theorem nestsFilled_list {items : List StyleValue} :
    NestsFilled (.list items) ↔ ItemsFilled items := by
  rw [NestsFilled]

@[simp] theorem itemsFilled_nil : ItemsFilled [] := by
  simp [ItemsFilled]

/-- Items are fit to be nested if none is an empty list and none nests one. -/
@[simp] theorem itemsFilled_cons {item : StyleValue} {rest : List StyleValue} :
    ItemsFilled (item :: rest) ↔ item ≠ .list [] ∧ NestsFilled item ∧ ItemsFilled rest := by
  rw [ItemsFilled]

/-! ## Joining -/

mutual

/-- Only the empty list has no leaves, where nested lists are filled. -/
theorem leaves_ne_nil {value : StyleValue} (h : value.NestsFilled) (some : value ≠ .list []) :
    value.leaves ≠ [] := by
  match value with
  | .number x => simp [leaves]
  | .text s => simp [leaves]
  | .map entries => simp [leaves]
  | .list items =>
    have items_ne_nil : items ≠ [] := by
      rintro rfl
      exact some rfl
    rw [leaves]
    exact leavesOfItems_ne_nil (nestsFilled_list.1 h) items_ne_nil

/-- Items that are fit to be nested have leaves, if there are items at all. -/
theorem leavesOfItems_ne_nil {items : List StyleValue} (h : ItemsFilled items)
    (some : items ≠ []) : leavesOfItems items ≠ [] := by
  match items with
  | [] => exact absurd rfl some
  | item :: rest =>
    obtain ⟨item_some, filled, -⟩ := itemsFilled_cons.1 h
    rw [leavesOfItems]
    exact List.append_ne_nil_of_left_ne_nil (leaves_ne_nil filled item_some) _

end

mutual

/-- Where nested lists are filled, the text of a value is that of its leaves joined. -/
theorem textWith_eq_intercalate_leaves (property separator : String) {value : StyleValue}
    (h : value.NestsFilled) :
    value.textWith (NumberUnit.ofProperty property).suffix separator =
      separator.intercalate (value.leaves.map (leafText property)) := by
  match value with
  | .number x => simp [textWith, leaves, leafText]
  | .text s => simp [textWith, leaves, leafText]
  | .map entries => simp [textWith, leaves, leafText]
  | .list items =>
    rw [textWith, leaves]
    exact intercalate_textsWith property separator (nestsFilled_list.1 h)

/-- Joining the texts of items is joining the texts of their leaves. -/
theorem intercalate_textsWith (property separator : String) {items : List StyleValue}
    (h : ItemsFilled items) :
    separator.intercalate (textsWith (NumberUnit.ofProperty property).suffix separator items) =
      separator.intercalate ((leavesOfItems items).map (leafText property)) := by
  match items with
  | [] => simp [textsWith, leavesOfItems]
  | [item] =>
    obtain ⟨-, filled, -⟩ := itemsFilled_cons.1 h
    simp [textsWith, leavesOfItems, textWith_eq_intercalate_leaves property separator filled]
  | item :: next :: rest =>
    obtain ⟨item_some, filled, others⟩ := itemsFilled_cons.1 h
    have later := intercalate_textsWith property separator others
    have texts_ne_nil :
        textsWith (NumberUnit.ofProperty property).suffix separator (next :: rest) ≠ [] := by
      simp [textsWith]
    -- there are leaves on both sides, so there is a separator between them
    have leaves_ne : item.leaves.map (leafText property) ≠ [] := by
      simpa using leaves_ne_nil filled item_some
    have leaves_ne' : (leavesOfItems (next :: rest)).map (leafText property) ≠ [] := by
      simpa using leavesOfItems_ne_nil others (by simp)
    have split : leavesOfItems (item :: next :: rest) =
        item.leaves ++ leavesOfItems (next :: rest) := by
      rw [leavesOfItems]
    rw [textsWith, String.intercalate_cons_of_ne_nil texts_ne_nil, later,
      textWith_eq_intercalate_leaves property separator filled, split, List.map_append,
      String.intercalate_append_of_ne_nil leaves_ne leaves_ne']

end

/-! ## Writing -/

/-- A value fails to be written exactly for the fault of its leftmost leaf that has one. -/
theorem format_eq_error_iff {property : String} {value : StyleValue} {e : Error} :
    value.format property = .error e ↔
      ∃ reason, value.fault? = some reason ∧ e = .unsupportedValue property reason := by
  cases fault : value.fault? with
  | none => simp [format_of_fault?_eq_none property value fault]
  | some reason => simp [format_of_fault? property value fault, eq_comm]

/-- A leaf has a fault if it is a map or a number that is not finite. -/
theorem isSome_leafFault? {leaf : StyleValue} :
    leaf.leafFault?.isSome ↔
      (∃ entries, leaf = .map entries) ∨ ∃ x, leaf = .number x ∧ x.isFinite = false := by
  cases leaf <;> simp [leafFault?]

/-- How a value that nests filled lists is written is for its leaves to say. -/
theorem format_of_nestsFilled {property : String} {value : StyleValue}
    (filled : value.NestsFilled) :
    value.format property =
      match value.leaves.findSome? leafFault? with
      | some reason => .error (.unsupportedValue property reason)
      | none =>
        .ok ((listSeparator property).intercalate (value.leaves.map (leafText property))) := by
  cases fault : value.leaves.findSome? leafFault? with
  | some reason => exact format_of_fault? property value fault
  | none =>
    rw [format_of_fault?_eq_none property value fault, textWith_eq_intercalate_leaves _ _ filled]

end StyleValue

/-- A value cannot be written for a property if and only if one of its leaves is a map or a number
that is not finite. The error is then about that property, and its reason is that of the leftmost
such leaf. A value that can be written and in which no list inside a list is empty has the texts of
its leaves, joined by a comma for font families and by a blank otherwise; so two such values with
the same leaves are written alike, however they are nested. -/
theorem format_joins_leaves (property : String) (value : StyleValue) :
    ((∃ e, value.format property = .error e) ↔
      ∃ leaf ∈ value.leaves,
        (∃ entries, leaf = .map entries) ∨ ∃ x, leaf = .number x ∧ x.isFinite = false) ∧
    (∀ e, value.format property = .error e ↔
      ∃ before leaf after reason, value.leaves = before ++ leaf :: after ∧
        (∀ earlier ∈ before, earlier.leafFault? = none) ∧ leaf.leafFault? = some reason ∧
        e = .unsupportedValue property reason) ∧
    (value.NestsFilled → ∀ text, value.format property = .ok text →
      text = (if property = "fontFamily" then ", " else " ").intercalate
        (value.leaves.map (StyleValue.leafText property))) ∧
    (value.NestsFilled → ∀ other : StyleValue, other.NestsFilled → other.leaves = value.leaves →
      other.format property = value.format property) := by
  refine ⟨?_, fun e => ?_, fun filled text written => ?_, fun filled other filled' same => ?_⟩
  · -- a value fails exactly if one of its leaves does
    have faulty : (∃ e, value.format property = .error e) ↔ value.fault?.isSome := by
      rw [Option.isSome_iff_exists]
      simp only [StyleValue.format_eq_error_iff]
      exact ⟨fun ⟨_, reason, fault, _⟩ => ⟨reason, fault⟩,
        fun ⟨reason, fault⟩ => ⟨_, reason, fault, rfl⟩⟩
    rw [faulty, StyleValue.fault?, List.findSome?_isSome_iff]
    simp only [StyleValue.isSome_leafFault?]
  · rw [StyleValue.format_eq_error_iff, StyleValue.fault?]
    simp only [List.findSome?_eq_some_iff]
    constructor
    · rintro ⟨reason, ⟨before, leaf, after, split, fault, sound⟩, rfl⟩
      exact ⟨before, leaf, after, reason, split, sound, fault, rfl⟩
    · rintro ⟨before, leaf, after, reason, split, sound, fault, rfl⟩
      exact ⟨reason, ⟨before, leaf, after, split, fault, sound⟩, rfl⟩
  · rw [StyleValue.format_of_nestsFilled filled] at written
    split at written
    · cases written
    · exact (Except.ok.inj written).symm
  · rw [StyleValue.format_of_nestsFilled filled, StyleValue.format_of_nestsFilled filled', same]

/-- A transition with its parts nested in two ways, among them a negative zero; and a list whose
leftmost faulty leaf comes behind a sound one and before a map. -/
theorem format_joins_leaves_transition :
    let half : StyleValue := .number (.ofNumeral ⟨false, 5, -1⟩)
    let zero : StyleValue := .number (.zero true)
    let value : StyleValue := .list [.text "ease", .list [half, .list [zero]], .text "all"]
    let other : StyleValue := .list [.list [.text "ease", half], zero, .text "all"]
    let faulty : StyleValue := .list [.text "a", .list [.number (.infinite true), .map []]]
    value.format "transition" = .ok "ease 0.5ms 0 all" ∧
      " ".intercalate (value.leaves.map (StyleValue.leafText "transition")) = "ease 0.5ms 0 all" ∧
      other.format "transition" = .ok "ease 0.5ms 0 all" ∧
      faulty.format "margin" = .error (.unsupportedValue "margin" (.notFinite (.infinite true))) := by
  intro half zero value other faulty
  have filled : value.NestsFilled := by simp [value, half, zero]
  have filled' : other.NestsFilled := by simp [other, half, zero]
  have written : value.format "transition" = .ok "ease 0.5ms 0 all" := by rfl
  obtain ⟨-, -, joined, alike⟩ := format_joins_leaves "transition" value
  refine ⟨written, (joined filled _ written).symm, (alike filled other filled' rfl).trans written,
    ?_⟩
  refine ((format_joins_leaves "margin" faulty).2.1 _).2 ?_
  exact ⟨[.text "a"], .number (.infinite true), [.map []], _, rfl, by simp [StyleValue.leafFault?],
    rfl, rfl⟩

end StyleTree
