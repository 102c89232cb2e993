import Mathlib.Algebra.Group.Nat.Defs
import StyleTree.Proofs.ResolvedValues

/-! # Style maps and JSON, one to one

Reading a style map from JSON and writing it back node by node gives the same JSON value again, but
for the numbers, which are rounded; writing a style map and reading it back gives the same map. What
can be read are the objects in which neither `null` nor a boolean occurs.

* **`Json.Within`** says that a value occurs in another one, at any depth.
* **`Json.rounded`** rounds all numbers in a value, and changes nothing else.
* **`Json.Number.Representable`** says what numbers JSON values have; the integers among them are
  small enough to be rounded to finite numbers, **`Binary64.isFinite_ofInt`**.
* **`style_maps_correspond_to_json`** is the correspondence. -/

namespace StyleTree

/-! ## Integers as floating-point numbers -/

namespace Binary64

/-- Rounding adds one at most. -/
theorem roundQuotient_le (num den : Nat) : roundQuotient num den ≤ num / den + 1 := by
  unfold roundQuotient
  dsimp only
  split <;> omega

/-- The exponent of a positive integer is that of its highest bit. -/
theorem log2Quotient_one {n : Nat} (h : n ≠ 0) : log2Quotient n 1 = n.log2 := by
  have log2_one : Nat.log2 1 = 0 := by decide
  have bit : 2 ^ n.log2 ≤ n := Nat.log2_self_le h
  simp [log2Quotient, log2_one, Nat.one_shiftLeft, Nat.not_lt.2 bit]

/-- The significand of an integer, before it is rounded, has at most 53 bits. -/
theorem significand_lt {n : Nat} {q : Int} (hq : q = n.log2 - 52) :
    (n <<< (-q).toNat) / (1 <<< q.toNat) < 2 ^ 53 := by
  have bound : n * 2 ^ (-q).toNat < 2 ^ 53 * 2 ^ q.toNat :=
    calc n * 2 ^ (-q).toNat
      _ < 2 ^ (n.log2 + 1) * 2 ^ (-q).toNat :=
        Nat.mul_lt_mul_of_pos_right Nat.lt_log2_self (Nat.two_pow_pos _)
      _ = 2 ^ 53 * 2 ^ q.toNat := by
        rw [← Nat.pow_add, ← Nat.pow_add]
        congr 1
        omega
  rw [Nat.shiftLeft_eq, Nat.one_shiftLeft]
  exact Nat.div_lt_of_lt_mul (by rwa [Nat.mul_comm _ (2 ^ 53)])

/-- An integer that fits into 64 bits has the rank of a finite number. -/
theorem nearestRank_one_lt {n : Nat} (h : n < 2 ^ 64) : nearestRank n 1 < rankCount := by
  unfold nearestRank
  split
  · decide
  · next positive =>
    have bits : n.log2 < 64 := (Nat.log2_lt positive).2 h
    have exponent : max (-1074) (log2Quotient n 1 - 52) = n.log2 - 52 := by
      rw [log2Quotient_one positive]
      omega
    dsimp only
    rw [exponent]
    have rounded := roundQuotient_le (n <<< (-((n.log2 : Int) - 52)).toNat)
      (1 <<< ((n.log2 : Int) - 52).toNat)
    have below := significand_lt (n := n) rfl
    have octaves : ((n.log2 : Int) - 52 + 1074).toNat * octave ≤ 1085 * octave :=
      Nat.mul_le_mul_right octave (by omega)
    have room : 1085 * octave + 2 ^ 53 < rankCount := by decide
    omega

/-- An integer that fits into 64 bits is rounded to a finite number. -/
theorem isFinite_ofInt {n : Int} (h : n.natAbs < 2 ^ 64) : (ofInt n).isFinite := by
  unfold ofInt ofNumeral
  split
  · rfl
  · have small : nearestRank (n.natAbs * Nat.pow 10 (0 : Int).toNat)
        (Nat.pow 10 (-(0 : Int)).toNat) < rankCount := by
      simpa using nearestRank_one_lt h
    rw [if_neg (by simp), ofRank, dif_pos small]
    rfl

end Binary64

/-! ## Values within a value -/

namespace Json

/-- A value occurs **within** another one: it is the other one, or occurs within one of its items or
the values of its members. -/
inductive Within (part : Json) : Json → Prop
  | self : Within part part
  | item {items : List Json} {item : Json} :
      item ∈ items → Within part item → Within part (.array items)
  | member {members : List (String × Json)} {member : String × Json} :
      member ∈ members → Within part member.2 → Within part (.object members)

/-- Only the number itself is within a number. -/
theorem within_number_iff {part : Json} {n : Number} :
    Within part (.number n) ↔ part = .number n :=
  ⟨by rintro ⟨⟩; rfl, by rintro rfl; exact .self⟩

/-- Only the text itself is within a text. -/
theorem within_string_iff {part : Json} {s : String} :
    Within part (.string s) ↔ part = .string s :=
  ⟨by rintro ⟨⟩; rfl, by rintro rfl; exact .self⟩

/-- What is within an array is the array or within one of its items. -/
theorem within_array_iff {part : Json} {items : List Json} :
    Within part (.array items) ↔ part = .array items ∨ ∃ item ∈ items, Within part item := by
  constructor
  · rintro (_ | ⟨hitem, within⟩ | _)
    · exact .inl rfl
    · exact .inr ⟨_, hitem, within⟩
  · rintro (rfl | ⟨item, hitem, within⟩)
    · exact .self
    · exact .item hitem within

/-- What is within an object is the object or within one of its members. -/
theorem within_object_iff {part : Json} {members : List (String × Json)} :
    Within part (.object members) ↔
      part = .object members ∨ ∃ member ∈ members, Within part member.2 := by
  constructor
  · rintro (_ | _ | ⟨hmember, within⟩)
    · exact .inl rfl
    · exact .inr ⟨_, hmember, within⟩
  · rintro (rfl | ⟨member, hmember, within⟩)
    · exact .self
    · exact .member hmember within

/-- Neither `null` nor a boolean occurs within the value. -/
def NoConstant (value : Json) : Prop := ¬ Within .null value ∧ ∀ b, ¬ Within (.bool b) value

/-- An array has no constants if none of its items has one. -/
theorem noConstant_array_iff {items : List Json} :
    NoConstant (.array items) ↔ ∀ item ∈ items, NoConstant item := by
  simp only [NoConstant, within_array_iff]
  grind

/-- An object has no constants if none of its members has one. -/
theorem noConstant_object_iff {members : List (String × Json)} :
    NoConstant (.object members) ↔ ∀ member ∈ members, NoConstant member.2 := by
  simp only [NoConstant, within_object_iff]
  grind

/-- What numbers JSON values have: integers that fit into 64 bits, signed or unsigned, and finite
floating-point numbers. -/
def Number.Representable : Number → Prop
  | .integer n => Int64.minValue.toInt ≤ n ∧ n < UInt64.size
  | .real x => x.isFinite

/-- The numbers of JSON values are rounded to finite numbers. -/
theorem Number.Representable.isFinite {n : Number} (h : n.Representable) :
    n.toBinary64.isFinite := by
  cases n with
  | real x => exact h
  | integer n =>
    obtain ⟨lower, upper⟩ := h
    have least : Int64.minValue.toInt = -2 ^ 63 := by decide
    rw [least] at lower
    rw [UInt64.size] at upper
    exact Binary64.isFinite_ofInt (by omega)

/-! ## Rounded values -/

mutual

/-- The value with every number rounded to a floating-point number. -/
def rounded : Json → Json
  | .null => .null
  | .bool b => .bool b
  | .number n => .number (.real n.toBinary64)
  | .string s => .string s
  | .array items => .array (roundedItems items)
  | .object members => .object (roundedMembers members)

/-- `rounded` for each item of an array. -/
def roundedItems : List Json → List Json
  | [] => []
  | item :: rest => rounded item :: roundedItems rest

/-- `rounded` for each member of an object. -/
def roundedMembers : List (String × Json) → List (String × Json)
  | [] => []
  | member :: rest => roundedMember member :: roundedMembers rest

/-- `rounded` for the value of a member. -/
def roundedMember : String × Json → String × Json
  | (key, value) => (key, rounded value)

end

/-- An array is rounded item by item. -/
theorem rounded_array (items : List Json) : (array items).rounded = .array (items.map rounded) := by
  have each : roundedItems items = items.map rounded := by
    induction items with
    | nil => rfl
    | cons item rest ih => rw [roundedItems, ih, List.map_cons]
  rw [rounded, each]

/-- An object is rounded member by member. -/
theorem rounded_object (members : List (String × Json)) :
    (object members).rounded =
      .object (members.map fun member => (member.1, member.2.rounded)) := by
  have each : roundedMembers members =
      members.map fun member => (member.1, member.2.rounded) := by
    induction members with
    | nil => rfl
    | cons member rest ih => rw [roundedMembers, ih, List.map_cons, roundedMember]
  rw [rounded, each]

end Json

/-! ## Lists one by one -/

section Lists

variable {α β γ : Type} {R : α → β → Prop} {l : List α} {l' : List β}

/-- A list can be read if and only if each member of it can. -/
theorem isSome_mapM {f : α → Option β} :
    (l.mapM f).isSome ↔ ∀ a ∈ l, (f a).isSome := by
  induction l with
  | nil => simp
  | cons a rest ih =>
    rw [List.mapM_cons, List.forall_mem_cons, ← ih]
    cases f a <;> cases rest.mapM f <;> simp

/-- Members that are related one by one are the same where their relation says so. -/
theorem map_eq_map_of_forall₂ {f : α → γ} {g : β → γ} (h : List.Forall₂ R l l')
    (each : ∀ a b, R a b → g b = f a) : l'.map g = l.map f := by
  rw [← List.forall₂_eq_eq_eq, List.forall₂_map_left_iff, List.forall₂_map_right_iff]
  exact h.flip.imp fun b a related => each a b related

/-- What follows from the relation holds of every related item. -/
theorem forall_mem_of_forall₂ {P : β → Prop} (h : List.Forall₂ R l l')
    (each : ∀ a b, R a b → P b) : ∀ b ∈ l', P b := by
  induction h with
  | nil => simp
  | cons related rest ih => exact List.forall_mem_cons.2 ⟨each _ _ related, ih⟩

end Lists

/-! ## Style values -/

namespace StyleValue

/-- Induction over a style value, with the items of a list and the values of a map before the list
or map itself. -/
@[elab_as_elim]
theorem inductionOn {P : StyleValue → Prop} (value : StyleValue) (number : ∀ x, P (.number x))
    (text : ∀ s, P (.text s)) (list : ∀ items, (∀ item ∈ items, P item) → P (.list items))
    (map : ∀ entries, (∀ entry ∈ entries, P entry.2) → P (.map entries)) : P value :=
  @StyleValue.rec P (fun items => ∀ item ∈ items, P item)
    (fun entries => ∀ entry ∈ entries, P entry.2) (fun entry => P entry.2) number text list map
    (by simp) (fun _ _ head rest => List.forall_mem_cons.2 ⟨head, rest⟩) (by simp)
    (fun _ _ head rest => List.forall_mem_cons.2 ⟨head, rest⟩) (fun _ _ value => value) value

/-- A style value occurs **within** another one: it is the other one, or occurs within one of its
items or entries. -/
inductive Within (part : StyleValue) : StyleValue → Prop
  | self : Within part part
  | item {items : List StyleValue} {item : StyleValue} :
      item ∈ items → Within part item → Within part (.list items)
  | entry {entries : List (String × StyleValue)} {entry : String × StyleValue} :
      entry ∈ entries → Within part entry.2 → Within part (.map entries)

/-- All numbers within the value are finite. -/
def Finite (value : StyleValue) : Prop := ∀ x, Within (.number x) value → x.isFinite

/-- A number is a finite value if it is a finite number. -/
theorem finite_number_iff {x : Binary64} : (number x).Finite ↔ x.isFinite := by
  constructor
  · exact fun h => h x .self
  · rintro h _ ⟨⟩
    exact h

/-- Every text is a finite value. -/
theorem finite_text (s : String) : (text s).Finite := nofun

/-- A list is finite if its items are. -/
theorem finite_list_iff {items : List StyleValue} :
    (list items).Finite ↔ ∀ item ∈ items, item.Finite := by
  constructor
  · exact fun h item hitem x within => h x (.item hitem within)
  · rintro h x (_ | ⟨hitem, within⟩ | _)
    exact h _ hitem x within

/-- A map is finite if its values are. -/
theorem finite_map_iff {entries : List (String × StyleValue)} :
    (map entries).Finite ↔ ∀ entry ∈ entries, entry.2.Finite := by
  constructor
  · exact fun h entry hentry x within => h x (.entry hentry within)
  · rintro h x (_ | _ | ⟨hentry, within⟩)
    exact h _ hentry x within

/-- The keys in items are distinct if those in each item are. -/
theorem distinctItems_iff {items : List StyleValue} :
    DistinctItems items ↔ ∀ item ∈ items, item.Distinct := by
  induction items with
  | nil => simp [DistinctItems]
  | cons item rest ih => rw [DistinctItems, ih, List.forall_mem_cons]

/-- The keys in entries are distinct if those in each value are. -/
theorem distinctEntries_iff {entries : List (String × StyleValue)} :
    DistinctEntries entries ↔ ∀ entry ∈ entries, entry.2.Distinct := by
  induction entries with
  | nil => simp [DistinctEntries]
  | cons entry rest ih => rw [DistinctEntries, ih, List.forall_mem_cons, DistinctEntry]

/-- A list is encoded item by item. -/
theorem toJson_list (items : List StyleValue) :
    (list items).toJson = .array (items.map toJson) := by
  have each : itemsToJson items = items.map toJson := by
    induction items with
    | nil => rfl
    | cons item rest ih => rw [itemsToJson, ih, List.map_cons]
  rw [toJson, each]

/-- A map is encoded entry by entry. -/
theorem toJson_map (entries : List (String × StyleValue)) :
    (map entries).toJson = .object (entries.map fun entry => (entry.1, entry.2.toJson)) := by
  have each : entriesToJson entries = entries.map fun entry => (entry.1, entry.2.toJson) := by
    induction entries with
    | nil => rfl
    | cons entry rest ih => rw [entriesToJson, ih, List.map_cons, entryToJson]
  rw [toJson, each]

/-! ## Reading and writing -/

/-- An array is read as a list if each of its items can be read. -/
theorem ofJson?_array_iff {items : List Json} {x : StyleValue} :
    ofJson? (.array items) = some x ↔
      ∃ values, List.Forall₂ (fun item value => ofJson? item = some value) items values ∧
        .list values = x := by
  rw [ofJson?, itemsOfJson?_eq_mapM, Option.map_eq_some_iff]
  simp only [mapM_eq_some_iff]

/-- An object is read as a map if each of its members can be read. -/
theorem ofJson?_object_iff {members : List (String × Json)} {x : StyleValue} :
    ofJson? (.object members) = some x ↔
      ∃ entries, List.Forall₂ (Table.Agree fun value a => ofJson? value = some a) members entries ∧
        .map (Table.ofPairs entries) = x := by
  rw [ofJson?_object, Option.map_eq_some_iff]
  simp only [Table.ofJson?_object_iff]
  constructor
  · rintro ⟨_, ⟨entries, agree, rfl⟩, rfl⟩
    exact ⟨entries, agree, rfl⟩
  · rintro ⟨entries, agree, rfl⟩
    exact ⟨_, ⟨entries, agree, rfl⟩, rfl⟩

/-- What can be read are the values in which no constant occurs. -/
theorem isSome_ofJson?_iff (value : Json) : (ofJson? value).isSome ↔ value.NoConstant := by
  induction value using Json.inductionOn with
  | null => exact iff_of_false Bool.false_ne_true fun h => h.1 .self
  | bool b => exact iff_of_false Bool.false_ne_true fun h => h.2 b .self
  | number n => exact iff_of_true rfl (by simp [Json.NoConstant, Json.within_number_iff])
  | string s => exact iff_of_true rfl (by simp [Json.NoConstant, Json.within_string_iff])
  | array items ih =>
    rw [ofJson?, itemsOfJson?_eq_mapM, Option.isSome_map, isSome_mapM, Json.noConstant_array_iff]
    exact forall₂_congr ih
  | object members ih =>
    rw [ofJson?, entriesOfJson?_eq_mapM, Option.isSome_map, isSome_mapM,
      Json.noConstant_object_iff]
    simp only [Option.isSome_map]
    exact forall₂_congr ih

/-- What a JSON value is read as is a style value that **encodes** it: written, it is the value with
its numbers rounded. It repeats no key, and its numbers are finite. -/
structure Encodes (x : StyleValue) (value : Json) : Prop where
  rounds : x.toJson = value.rounded
  distinct : x.Distinct
  finite : x.Finite

/-- Items that encode other items, one by one, are a list that encodes their array. -/
theorem Encodes.list {items : List Json} {values : List StyleValue}
    (h : List.Forall₂ (fun item value => Encodes value item) items values) :
    Encodes (.list values) (.array items) := by
  have written : values.map toJson = items.map Json.rounded :=
    map_eq_map_of_forall₂ h fun _ _ encodes => encodes.rounds
  refine ⟨by rw [toJson_list, Json.rounded_array, written], ?_, ?_⟩
  · rw [Distinct, distinctItems_iff]
    exact forall_mem_of_forall₂ h fun _ _ encodes => encodes.distinct
  · exact finite_list_iff.2 (forall_mem_of_forall₂ h fun _ _ encodes => encodes.finite)

/-- Entries that encode members, one by one, are a map that encodes their object. -/
theorem Encodes.map {members : List (String × Json)} {entries : List (String × StyleValue)}
    (distinct : Table.Distinct members)
    (h : List.Forall₂ (Table.Agree fun value x => Encodes x value) members entries) :
    Encodes (.map entries) (.object members) := by
  have keys_eq : Table.keys entries = Table.keys members :=
    map_eq_map_of_forall₂ h fun _ _ agree => agree.1.symm
  have written : (entries.map fun entry => (entry.1, entry.2.toJson)) =
      members.map fun member => (member.1, member.2.rounded) :=
    map_eq_map_of_forall₂ h fun _ _ agree => Prod.ext agree.1.symm agree.2.rounds
  refine ⟨by rw [toJson_map, Json.rounded_object, written], ?_, ?_⟩
  · rw [Distinct, Table.Distinct, keys_eq, distinctEntries_iff]
    exact ⟨distinct, forall_mem_of_forall₂ h fun _ _ agree => agree.2.distinct⟩
  · exact finite_map_iff.2 (forall_mem_of_forall₂ h fun _ _ agree => agree.2.finite)

/-- A value without repeated keys is read as a style value that encodes it. -/
theorem encodes_of_ofJson? {value : Json} (resolved : value.Resolved)
    (representable : ∀ n, Json.Within (.number n) value → n.Representable) {x : StyleValue}
    (h : ofJson? value = some x) : Encodes x value := by
  -- on the value; numbers within an item are within the array, so the hypothesis goes along
  induction value using Json.inductionOn generalizing x with
  | null => cases h
  | bool b => cases h
  | number n =>
    cases h
    have finite := (representable n .self).isFinite
    exact ⟨by rw [toJson, if_pos finite, Json.rounded], trivial, finite_number_iff.2 finite⟩
  | string s =>
    cases h
    exact ⟨rfl, trivial, finite_text s⟩
  | array items ih =>
    rw [Json.Resolved, Json.resolvedItems_iff] at resolved
    obtain ⟨values, read, rfl⟩ := ofJson?_array_iff.1 h
    refine .list (((List.forall₂_and_left _ _).2 ⟨fun item hitem => hitem, read⟩).imp ?_)
    rintro item value ⟨hitem, hvalue⟩
    exact ih item hitem (resolved item hitem)
      (fun n within => representable n (.item hitem within)) hvalue
  | object members ih =>
    rw [Json.Resolved, Json.resolvedMembers_iff] at resolved
    obtain ⟨distinct, resolved⟩ := resolved
    obtain ⟨entries, read, rfl⟩ := ofJson?_object_iff.1 h
    have encode : List.Forall₂ (Table.Agree fun value x => Encodes x value) members entries := by
      refine ((List.forall₂_and_left _ _).2 ⟨fun member hmember => hmember, read⟩).imp ?_
      rintro member entry ⟨hmember, key_eq, hentry⟩
      exact ⟨key_eq, ih member hmember (resolved member hmember)
        (fun n within => representable n (.member hmember within)) hentry⟩
    have encodes := Encodes.map distinct encode
    -- no key is repeated, so the pairs are the table
    rwa [Table.ofPairs_of_distinct encodes.distinct.1]

/-- A style value is what it is read as once it is written. -/
theorem ofJson?_toJson {x : StyleValue} (distinct : x.Distinct) (finite : x.Finite) :
    ofJson? x.toJson = some x := by
  induction x using inductionOn with
  | number x =>
    rw [toJson, if_pos (finite_number_iff.1 finite)]
    rfl
  | text s => rfl
  | list items ih =>
    rw [Distinct, distinctItems_iff] at distinct
    rw [toJson_list, ofJson?_array_iff]
    refine ⟨items, List.forall₂_map_left_iff.2 (List.forall₂_same.2 fun item hitem => ?_), rfl⟩
    exact ih item hitem (distinct item hitem) (finite_list_iff.1 finite item hitem)
  | map entries ih =>
    rw [Distinct, distinctEntries_iff] at distinct
    rw [toJson_map, ofJson?_object_iff]
    refine ⟨entries, List.forall₂_map_left_iff.2 (List.forall₂_same.2 fun entry hentry => ?_), ?_⟩
    · exact ⟨rfl, ih entry hentry (distinct.2 entry hentry)
        (finite_map_iff.1 finite entry hentry)⟩
    · rw [Table.ofPairs_of_distinct distinct.1]

end StyleValue

namespace StyleMap

/-- A style map is read where a map is read as a value. -/
theorem ofJson?_eq_some_iff {value : Json} {styles : StyleMap} :
    ofJson? value = some styles ↔ StyleValue.ofJson? value = some (.map styles) := by
  rw [ofJson?]
  split <;> simp_all

/-- Only an object is read as a map. -/
theorem isSome_ofJson?_iff_object (value : Json) :
    (ofJson? value).isSome ↔ (∃ members, value = .object members) ∧ value.NoConstant := by
  rw [ofJson?_eq_table]
  cases value with
  | object members =>
    have readable := StyleValue.isSome_ofJson?_iff (.object members)
    rw [StyleValue.ofJson?_object, Option.isSome_map] at readable
    rw [readable]
    exact (and_iff_right ⟨members, rfl⟩).symm
  | _ => exact iff_of_false Bool.false_ne_true fun h => nomatch h.1

end StyleMap

/-- Style maps and JSON values correspond one to one. A value is read as a style map if and only if
it is an object within which there is neither `null` nor a boolean. Unless it repeats a key or has
numbers that JSON does not have, the map is written as the same value but for the numbers, which are
rounded; its maps repeat no key, and its numbers are finite. Conversely, every such map is what is
read once it is written. -/
theorem style_maps_correspond_to_json :
    (∀ value : Json, (StyleMap.ofJson? value).isSome ↔
      (∃ members, value = .object members) ∧
        ¬ Json.Within .null value ∧ ∀ b, ¬ Json.Within (.bool b) value) ∧
    (∀ (value : Json) (styles : StyleMap), value.Resolved →
      (∀ n, Json.Within (.number n) value → n.Representable) →
      StyleMap.ofJson? value = some styles →
      styles.toJson = value.rounded ∧ styles.Distinct ∧ (StyleValue.map styles).Finite) ∧
    ∀ styles : StyleMap, styles.Distinct → (StyleValue.map styles).Finite →
      StyleMap.ofJson? styles.toJson = some styles := by
  refine ⟨StyleMap.isSome_ofJson?_iff_object, fun value styles resolved representable h => ?_,
    fun styles distinct finite => ?_⟩
  · rw [StyleMap.ofJson?_eq_some_iff] at h
    obtain ⟨rounds, distinct, finite⟩ := StyleValue.encodes_of_ofJson? resolved representable h
    exact ⟨rounds, distinct, finite⟩
  · exact StyleMap.ofJson?_eq_some_iff.2 (StyleValue.ofJson?_toJson distinct finite)

/-- A map with a number, a list and a map inside, and one with a boolean in a list. -/
theorem style_maps_correspond_to_json_nested :
    let value : Json := .object [("width", .number (.integer 10)),
      ("font", .array [.string "a", .string "b"]), ("hover", .object [("color", .string "red")])]
    let styles : StyleMap := [("width", .number (Binary64.ofInt 10)),
      ("font", .list [.text "a", .text "b"]), ("hover", .map [("color", .text "red")])]
    (StyleMap.ofJson? value).isSome ∧
      (StyleMap.ofJson? (.object [("font", .array [.bool true])])).isSome = false ∧
      value.Resolved ∧ (∀ n, Json.Within (.number n) value → n.Representable) ∧
      StyleMap.ofJson? value = some styles ∧ styles.toJson = value.rounded ∧
      StyleMap.ofJson? styles.toJson = some styles := by
  intro value styles
  obtain ⟨readable_iff, written, read⟩ := style_maps_correspond_to_json
  have resolved : value.Resolved := by
    simp [value, Json.Resolved, Json.ResolvedItems, Json.ResolvedMembers, Json.ResolvedMember,
      Table.Distinct]
  have representable (n : Json.Number) (within : Json.Within (.number n) value) :
      n.Representable := by
    obtain rfl : n = .integer 10 := by
      simpa [value, Json.within_object_iff, Json.within_array_iff, Json.within_number_iff,
        Json.within_string_iff] using within
    exact ⟨by decide, by decide⟩
  have value_read : StyleMap.ofJson? value = some styles := rfl
  have refused : ¬ (StyleMap.ofJson? (.object [("font", .array [.bool true])])).isSome := by
    rw [readable_iff]
    exact fun h => h.2.2 true (.member List.mem_cons_self (.item List.mem_cons_self .self))
  obtain ⟨rounds, distinct, finite⟩ := written value styles resolved representable value_read
  refine ⟨by rw [value_read]; rfl, by simpa using refused, resolved, representable, value_read,
    rounds, read styles distinct finite⟩

end StyleTree
