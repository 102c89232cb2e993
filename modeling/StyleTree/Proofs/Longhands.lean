import Mathlib.Algebra.GroupWithZero.Nat
import StyleTree.Proofs.Faults

/-! # Longhands

A side of a property can be given in a map, or under a **longhand**: the name of the property and of
the side together in camelCase. Both declare the same property, but they need not write the same
text, because a side in a map is looked up under a name with a hyphen, which no table of units or
separators lists. So they agree where the longhand has the common unit and the common separator, and
elsewhere for the values that have no use for these.

* **`StyleValue.measures`** and **`StyleValue.joints`** count the units and the separators in the
  text of a value.
* **`HasLonghand`** says which properties and sides have a longhand.
* **`side_eq_longhand_iff`** says where the two agree. -/

namespace StyleTree

/-! ## Units and separators in a text -/

namespace StyleValue

mutual

/-- How many numbers of a value are written with a unit. -/
def measures : StyleValue → Nat
  | .number x => if x.isZero then 0 else 1
  | .text _ => 0
  | .list items => measuresOfItems items
  | .map _ => 0

/-- How many numbers of the items of a list are written with a unit. -/
def measuresOfItems : List StyleValue → Nat
  | [] => 0
  | item :: rest => measures item + measuresOfItems rest

end

mutual

/-- How many separators stand in the text of a value. -/
def joints : StyleValue → Nat
  | .number _ => 0
  | .text _ => 0
  | .list items => jointsOfItems items + (items.length - 1)
  | .map _ => 0

/-- How many separators stand in the texts of the items of a list. -/
def jointsOfItems : List StyleValue → Nat
  | [] => 0
  | item :: rest => joints item + jointsOfItems rest

end

/-- There is a text for each item. -/
theorem length_textsWith (unit separator : String) (items : List StyleValue) :
    (textsWith unit separator items).length = items.length := by
  induction items with
  | nil => simp [textsWith]
  | cons item rest ih => rw [textsWith, List.length_cons, List.length_cons, ih]

/-- The characters of texts with a separator between them are those of the texts and those of each
separator. -/
theorem count_intercalate (c : Char) (separator : String) (texts : List String) :
    (separator.intercalate texts).toList.count c =
      (texts.map (·.toList.count c)).sum + (texts.length - 1) * separator.toList.count c := by
  induction texts with
  | nil => simp
  | cons text rest ih =>
    cases rest with
    | nil => simp
    | cons next rest =>
      rw [String.intercalate_cons_cons, String.toList_append, String.toList_append,
        List.count_append, List.count_append, ih]
      simp only [List.map_cons, List.sum_cons, List.length_cons, Nat.add_sub_cancel]
      rw [Nat.add_mul (rest.length) 1]
      omega

mutual

/-- The characters of a text are those that are left without units and separators, and those of each
unit and each separator. -/
theorem count_textWith (c : Char) (unit separator : String) (value : StyleValue) :
    (value.textWith unit separator).toList.count c =
      (value.textWith "" "").toList.count c + value.measures * unit.toList.count c +
        value.joints * separator.toList.count c := by
  match value with
  | .number x =>
    rw [textWith, textWith, measures, joints]
    cases x.isZero <;> simp
  | .text s =>
    rw [textWith, textWith, measures, joints]
    simp
  | .map entries =>
    rw [textWith, textWith, measures, joints]
    simp
  | .list items =>
    rw [textWith, textWith, measures, joints, count_intercalate, count_intercalate,
      length_textsWith, length_textsWith, count_textsWith c unit separator items, Nat.add_mul]
    simp only [String.toList_empty, List.count_nil, Nat.mul_zero]
    omega

/-- How often a character occurs in the texts of items depends on the unit and the separator through
the numbers that need a unit and the joints between items only. -/
theorem count_textsWith (c : Char) (unit separator : String) (items : List StyleValue) :
    ((textsWith unit separator items).map (·.toList.count c)).sum =
      ((textsWith "" "" items).map (·.toList.count c)).sum +
        measuresOfItems items * unit.toList.count c +
        jointsOfItems items * separator.toList.count c := by
  match items with
  | [] => simp [textsWith, measuresOfItems, jointsOfItems]
  | item :: rest =>
    rw [textsWith, textsWith, measuresOfItems, jointsOfItems, List.map_cons, List.map_cons,
      List.sum_cons, List.sum_cons, count_textWith c unit separator item,
      count_textsWith c unit separator rest, Nat.add_mul, Nat.add_mul]
    omega

end

mutual

/-- A unit does not matter to a value without measures, nor a separator to one without joints. -/
theorem textWith_congr {unit unit' separator separator' : String} {value : StyleValue}
    (units : unit = unit' ∨ value.measures = 0)
    (separators : separator = separator' ∨ value.joints = 0) :
    value.textWith unit separator = value.textWith unit' separator' := by
  -- the recursion goes into the items of a list, so the proof does
  match value with
  | .number x =>
    rcases units with rfl | none
    · rw [textWith, textWith]
    · cases zero : x.isZero with
      | true => rw [textWith, textWith, if_pos zero, if_pos zero]
      | false => simp [measures, zero] at none
  | .text s => rw [textWith, textWith]
  | .map entries => rw [textWith, textWith]
  | .list items =>
    rw [measures] at units
    rw [joints, Nat.add_eq_zero_iff] at separators
    rw [textWith, textWith, textsWith_congr units (separators.imp_right And.left)]
    rcases separators with rfl | ⟨-, short⟩
    · rfl
    · -- with one item at most there is nothing to separate
      match items with
      | [] => simp [textsWith]
      | [item] => simp [textsWith]
      | _ :: _ :: _ => simp at short

/-- Units make no difference where nothing is measured, nor separators where nothing is joined. -/
theorem textsWith_congr {unit unit' separator separator' : String} {items : List StyleValue}
    (units : unit = unit' ∨ measuresOfItems items = 0)
    (separators : separator = separator' ∨ jointsOfItems items = 0) :
    textsWith unit separator items = textsWith unit' separator' items := by
  match items with
  | [] => rw [textsWith, textsWith]
  | item :: rest =>
    rw [measuresOfItems, Nat.add_eq_zero_iff] at units
    rw [jointsOfItems, Nat.add_eq_zero_iff] at separators
    have first : textWith unit separator item = textWith unit' separator' item :=
      textWith_congr (units.imp_right And.left) (separators.imp_right And.left)
    have later : textsWith unit separator rest = textsWith unit' separator' rest :=
      textsWith_congr (units.imp_right And.right) (separators.imp_right And.right)
    rw [textsWith, textsWith, first, later]

end

/-- Two units, one of which has more of some character than the other, give the same text exactly to
values without measures. -/
theorem textWith_unit_eq_iff {unit unit' : String} {c : Char}
    (h : unit.toList.count c ≠ unit'.toList.count c) (separator : String) (value : StyleValue) :
    value.textWith unit separator = value.textWith unit' separator ↔ value.measures = 0 := by
  constructor
  · intro same
    have counts := count_textWith c unit separator value
    rw [same, count_textWith c unit' separator value] at counts
    have measured : value.measures * unit.toList.count c =
        value.measures * unit'.toList.count c := by omega
    rcases Nat.eq_zero_or_pos value.measures with none | some
    · exact none
    · exact absurd (Nat.eq_of_mul_eq_mul_left some measured) h
  · intro none
    exact textWith_congr (.inr none) (.inl rfl)

/-- Two separators, one of which has more of some character than the other, give the same text
exactly to values without joints. -/
theorem textWith_separator_eq_iff {separator separator' : String} {c : Char}
    (h : separator.toList.count c ≠ separator'.toList.count c) (unit : String)
    (value : StyleValue) :
    value.textWith unit separator = value.textWith unit separator' ↔ value.joints = 0 := by
  constructor
  · intro same
    have counts := count_textWith c unit separator value
    rw [same, count_textWith c unit separator' value] at counts
    have joined : value.joints * separator.toList.count c =
        value.joints * separator'.toList.count c := by omega
    rcases Nat.eq_zero_or_pos value.joints with none | some
    · exact none
    · exact absurd (Nat.eq_of_mul_eq_mul_left some joined) h
  · intro none
    exact textWith_congr (.inl rfl) (.inr none)

end StyleValue

/-- A property writes a value as most properties do exactly if it has their unit or the value has no
use for a unit, and it has their separator or the value has no use for a separator. -/
theorem common_text_eq_iff (property : String) (value : StyleValue) :
    value.textWith "px" " " =
        value.textWith (NumberUnit.ofProperty property).suffix (listSeparator property) ↔
      (NumberUnit.ofProperty property = .pixels ∨ value.measures = 0) ∧
        (listSeparator property = " " ∨ value.joints = 0) := by
  by_cases family : property = "fontFamily"
  · -- the one property with commas has the common unit
    have unit : NumberUnit.ofProperty property = .pixels := by rw [family]; decide
    have separator : listSeparator property = ", " := by rw [family]; decide
    rw [unit, separator]
    have commas : " ".toList.count ',' ≠ ", ".toList.count ',' := by decide
    simpa [NumberUnit.suffix] using StyleValue.textWith_separator_eq_iff commas "px" value
  · have separator : listSeparator property = " " := by rw [listSeparator, if_neg family]
    rw [separator]
    cases unit : NumberUnit.ofProperty property with
    | pixels => simp [NumberUnit.suffix]
    | unitless =>
      -- the unit shows in the number of letters p
      have bare : "px".toList.count 'p' ≠ "".toList.count 'p' := by decide
      simpa [NumberUnit.suffix] using StyleValue.textWith_unit_eq_iff bare " " value
    | milliseconds =>
      have timed : "px".toList.count 'p' ≠ "ms".toList.count 'p' := by decide
      simpa [NumberUnit.suffix] using StyleValue.textWith_unit_eq_iff timed " " value

/-! ## Longhands -/

/-- A name with its first letter capital. -/
def capitalized (name : String) : String :=
  match name.toList with
  | [] => ""
  | c :: cs => String.ofList (c.toUpper :: cs)

/-- The **longhand** of a property and a side. -/
def longhand (property side : String) : String := property ++ capitalized side

/-- A property and a side **have a longhand** if their names are put together where a small letter
meets a capital one, and if all three names stand for themselves: none has a hyphen, the side is no
other name for sides, and neither the property nor the longhand nests a style map. -/
structure HasLonghand (property side : String) : Prop where
  /-- The property ends in a small letter. -/
  ends : property.toList.getLast?.any Char.isLower
  /-- The side starts with a small letter. -/
  starts : side.toList.head?.any Char.isLower
  /-- No capital letter follows directly. -/
  single : side.toList.tail.head?.any Char.isUpper = false
  /-- The property has no hyphen. -/
  property_camel : '-' ∉ property.toList
  /-- The side has no hyphen. -/
  side_camel : '-' ∉ side.toList
  /-- The side stands for itself. -/
  proper : side ∉ ["all", "vertical", "horizontal"]
  /-- The property is no nested selector. -/
  property_plain : property ∉ nestedSelectors
  /-- The property is no media query. -/
  property_query : isMediaQuery property = false
  /-- The longhand is no nested selector. -/
  longhand_plain : longhand property side ∉ nestedSelectors
  /-- The longhand is no media query. -/
  longhand_query : isMediaQuery (longhand property side) = false

/-- After characters that end in a small letter a capital letter is set off. -/
theorem spinalChars_append_of_isLower {cs : List Char} (h : cs.getLast?.any Char.isLower)
    (afterSmall : Bool) (ds : List Char) :
    spinalChars afterSmall (cs ++ ds) = spinalChars afterSmall cs ++ spinalChars true ds := by
  have small : cs.getLast?.elim afterSmall Char.isLower = true := by
    cases last : cs.getLast? with
    | none => simp [last] at h
    | some c => rwa [last] at h
  rw [spinalChars_append, small]

/-- Without a capital letter at the front it makes no difference what comes before. -/
theorem spinalChars_of_not_isUpper {cs : List Char} (h : cs.head?.any Char.isUpper = false)
    (afterSmall : Bool) : spinalChars afterSmall cs = spinalChars false cs := by
  cases cs with
  | nil => rfl
  | cons c cs =>
    have small : c.isUpper = false := by simpa using h
    simp [spinalChars, small]

/-- The key of a side is in no table, because it has a hyphen. -/
theorem common_side (property side : String) :
    NumberUnit.ofProperty (sideName property (some side)) = .pixels ∧
      listSeparator (sideName property (some side)) = " " := by
  have hyphen : '-' ∈ (sideName property (some side)).toList := by simp [sideName]
  have unlisted : ∀ key ∈ NumberUnit.unitlessProperties ++ NumberUnit.durationProperties ++
      ["fontFamily"], '-' ∉ key.toList := by decide
  have ne : sideName property (some side) ∉ NumberUnit.unitlessProperties ++
      NumberUnit.durationProperties ++ ["fontFamily"] := fun listed => unlisted _ listed hyphen
  simp only [List.mem_append, List.mem_singleton, not_or] at ne
  constructor
  · rw [NumberUnit.ofProperty, if_neg ne.1.1, if_neg ne.1.2]
  · rw [listSeparator, if_neg ne.2]

namespace HasLonghand

variable {property side : String}

/-- The characters of a side and of its capitalized name. -/
theorem exists_side (h : HasLonghand property side) :
    ∃ c cs, side.toList = c :: cs ∧ c.isLower ∧ cs.head?.any Char.isUpper = false ∧
      (longhand property side).toList = property.toList ++ c.toUpper :: cs := by
  obtain ⟨c, cs, side_eq⟩ : ∃ c cs, side.toList = c :: cs := by
    cases chars : side.toList with
    | nil => simpa [chars] using h.starts
    | cons c cs => exact ⟨c, cs, rfl⟩
  refine ⟨c, cs, side_eq, by simpa [side_eq] using h.starts, by simpa [side_eq] using h.single, ?_⟩
  simp [longhand, capitalized, side_eq]

/-- In spinal case a longhand is the name of the side. -/
theorem spinalCase_longhand (h : HasLonghand property side) :
    spinalCase (longhand property side) = spinalCase (sideName property (some side)) := by
  obtain ⟨c, cs, side_eq, small, single, longhand_eq⟩ := h.exists_side
  have capital := isUpper_toUpper_of_isLower small
  have side_chars : (sideName property (some side)).toList = property.toList ++ '-' :: c :: cs := by
    simp [sideName, side_eq]
  -- one hyphen is set by the change of letters, the other is there already
  have together : spinalChars false (property.toList ++ c.toUpper :: cs) =
      spinalChars false property.toList ++ '-' :: c :: spinalChars false cs := by
    rw [spinalChars_append_of_isLower h.ends, spinalChars_true_cons, if_pos capital,
      toLower_toUpper_of_isLower small, spinalChars_of_not_isUpper single]
  have apart : spinalChars false (property.toList ++ '-' :: c :: cs) =
      spinalChars false property.toList ++ '-' :: c :: spinalChars false cs := by
    rw [spinalChars_append_hyphen, spinalChars_false_cons,
      toLower_of_not_isUpper (not_isUpper_of_isLower small), spinalChars_of_not_isUpper single]
  rw [← String.toList_inj, toList_spinalCase, toList_spinalCase, longhand_eq, side_chars, together,
    apart]

/-- A longhand is a key in camelCase. -/
theorem isHyphenated_longhand (h : HasLonghand property side) :
    isHyphenated (longhand property side) = false := by
  obtain ⟨c, cs, side_eq, small, -, longhand_eq⟩ := h.exists_side
  have side_camel := h.side_camel
  rw [side_eq, List.mem_cons, not_or] at side_camel
  have capital : '-' ≠ c.toUpper := by
    intro hyphen
    have upper := isUpper_toUpper_of_isLower small
    rw [← hyphen] at upper
    exact absurd upper (by decide)
  rw [isHyphenated_eq_false_iff]
  intro _ hyphen
  rw [longhand_eq, List.mem_append, List.mem_cons] at hyphen
  rcases hyphen with hyphen | hyphen | hyphen
  · exact h.property_camel hyphen
  · exact capital hyphen
  · exact side_camel.2 hyphen

/-- A side with a longhand stands for itself. -/
theorem expandSide_eq (h : HasLonghand property side) : expandSide side = [some side] := by
  have proper := h.proper
  unfold expandSide
  split <;> simp_all

end HasLonghand

/-- Options without prefixes have the role of a property for each key that does not nest. -/
theorem role_of_no_prefixes {o : Options} (unprefixed : o.vendorPrefixes = []) {key : String}
    (plain : key ∉ nestedSelectors) (query : isMediaQuery key = false) :
    o.role key = .property [] := by
  have unlisted : o.prefixesFor? key = none := by
    simp [Options.prefixesFor?, Table.find?, unprefixed]
  exact role_of_unprefixed unlisted plain query

/-- The rule of one declaration tells its value. -/
theorem layoutNodes_rule_inj {level : Nat} {selector property value value' : String} :
    layoutNodes level [.rule selector [⟨property, value⟩]] =
        layoutNodes level [.rule selector [⟨property, value'⟩]] ↔ value = value' := by
  simp [layoutNodes_cons, Node.layout, layoutDeclarations_cons, Declaration.layout,
    ← String.toList_inj]

/-- The text of a side given in a map. -/
theorem compile_side {o : Options} (unprefixed : o.vendorPrefixes = []) {selector : String}
    (proper : isMediaQuery selector = false) (level : Nat) {property side : String}
    (h : HasLonghand property side) {value : StyleValue} (writable : value.Writable) :
    compile o level selector [(property, .map [(side, value)])] =
      .ok (layoutNodes level [.rule selector
        [⟨spinalCase (longhand property side), value.textWith "px" " "⟩]]) := by
  obtain ⟨unit, separator⟩ := common_side property side
  have camel : isHyphenated property = false :=
    isHyphenated_eq_false_iff.2 fun _ => h.property_camel
  have declared : declareProperty property property (.map [(side, value)]) =
      .ok [⟨spinalCase (longhand property side), value.textWith "px" " "⟩] := by
    have one := declareSide_of_writable writable property property (some side)
    rw [unit, separator, ← h.spinalCase_longhand] at one
    rw [declareProperty, declareSides, h.expandSide_eq, List.mapM_cons, one]
    rfl
  rw [compile, ruleTree_singleton proper camel
    (role_of_no_prefixes unprefixed h.property_plain h.property_query) declared (by simp)]
  rfl

/-- The text of a side given under its longhand. -/
theorem compile_longhand {o : Options} (unprefixed : o.vendorPrefixes = []) {selector : String}
    (proper : isMediaQuery selector = false) (level : Nat) {property side : String}
    (h : HasLonghand property side) {value : StyleValue} (writable : value.Writable) :
    compile o level selector [(longhand property side, value)] =
      .ok (layoutNodes level [.rule selector [⟨spinalCase (longhand property side),
        value.textWith (NumberUnit.ofProperty (longhand property side)).suffix
          (listSeparator (longhand property side))⟩]]) := by
  have declared := declareProperty_of_writable writable (longhand property side)
    (longhand property side)
  rw [compile, ruleTree_singleton proper h.isHyphenated_longhand
    (role_of_no_prefixes unprefixed h.longhand_plain h.longhand_query) declared (by simp)]
  rfl

/-- A side given in a map and the same side under its longhand both make one rule with one
declaration of the same property. Their texts are the same exactly if the numbers of the longhand
are pixels or no number needs a unit, and its lists have blanks between their items or no list has
two items. -/
theorem side_eq_longhand_iff {o : Options} (unprefixed : o.vendorPrefixes = [])
    {selector : String} (proper : isMediaQuery selector = false) (level : Nat)
    {property side : String} (h : HasLonghand property side) {value : StyleValue}
    (writable : value.Writable) :
    (∃ inMap alone,
      compile o level selector [(property, .map [(side, value)])] =
        .ok (layoutNodes level [.rule selector
          [⟨spinalCase (longhand property side), inMap⟩]]) ∧
      compile o level selector [(longhand property side, value)] =
        .ok (layoutNodes level [.rule selector
          [⟨spinalCase (longhand property side), alone⟩]]) ∧
      value.format (sideName property (some side)) = .ok inMap ∧
      value.format (longhand property side) = .ok alone) ∧
    (compile o level selector [(property, .map [(side, value)])] =
        compile o level selector [(longhand property side, value)] ↔
      (NumberUnit.ofProperty (longhand property side) = .pixels ∨ value.measures = 0) ∧
        (listSeparator (longhand property side) = " " ∨ value.joints = 0)) := by
  have inMap := compile_side unprefixed proper level h writable
  have alone := compile_longhand unprefixed proper level h writable
  constructor
  · -- the name of a side is in no table, so it has the common unit and separator
    obtain ⟨unit, separator⟩ := common_side property side
    have side_text := StyleValue.format_of_fault?_eq_none (sideName property (some side)) value
      (StyleValue.writable_iff.1 writable)
    rw [unit, separator] at side_text
    exact ⟨_, _, inMap, alone, side_text,
      StyleValue.format_of_fault?_eq_none _ value (StyleValue.writable_iff.1 writable)⟩
  · rw [inMap, alone, Except.ok.injEq, layoutNodes_rule_inj, common_text_eq_iff]

/-- A corner of a border, with two numbers. -/
theorem side_eq_longhand_iff_corner :
    let value : StyleValue := .list [.number (.ofInt 4), .number (.ofInt 0)]
    HasLonghand "border" "topLeftRadius" ∧ value.Writable ∧
      compile {} 1 "p" [("border", .map [("topLeftRadius", value)])] =
        compile {} 1 "p" [("borderTopLeftRadius", value)] := by
  intro value
  have corner : HasLonghand "border" "topLeftRadius" := by
    constructor <;> decide
  have writable : value.Writable := by
    rw [StyleValue.writable_iff]
    decide +kernel
  have unprefixed : ({} : Options).vendorPrefixes = [] := rfl
  have proper : isMediaQuery "p" = false := by decide
  have same := (side_eq_longhand_iff unprefixed proper 1 corner writable).2
  exact ⟨corner, writable, same.2 ⟨.inl (by decide), .inl (by decide)⟩⟩

/-- A duration in a map is given in pixels, though under its longhand it is in milliseconds. -/
theorem side_loses_milliseconds :
    let value : StyleValue := .number (.ofInt 300)
    HasLonghand "transition" "duration" ∧ value.Writable ∧
      compile {} 0 "a" [("transition", .map [("duration", value)])] =
        .ok "\na \x7b\n  transition-duration: 300px;\n\x7d\n" ∧
      compile {} 0 "a" [("transitionDuration", value)] =
        .ok "\na \x7b\n  transition-duration: 300ms;\n\x7d\n" ∧
      compile {} 0 "a" [("transition", .map [("duration", value)])] ≠
        compile {} 0 "a" [("transitionDuration", value)] := by
  intro value
  have named : HasLonghand "transition" "duration" := by
    constructor <;> decide
  have writable : value.Writable := by
    rw [StyleValue.writable_iff]
    decide +kernel
  have inMap : compile {} 0 "a" [("transition", .map [("duration", value)])] =
      .ok "\na \x7b\n  transition-duration: 300px;\n\x7d\n" := rfl
  have alone : compile {} 0 "a" [("transitionDuration", value)] =
      .ok "\na \x7b\n  transition-duration: 300ms;\n\x7d\n" := rfl
  refine ⟨named, writable, inMap, alone, ?_⟩
  rw [inMap, alone, ne_eq, Except.ok.injEq]
  decide

end StyleTree
