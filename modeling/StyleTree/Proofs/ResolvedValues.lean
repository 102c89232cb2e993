import Mathlib.Data.List.Forall2
import StyleTree.Style.Decoding
import StyleTree.Session.Section

/-! # Reading resolved values

A JSON value can be read as it stands, each occurrence of a repeated key too, or resolved first.
Whatever a value is read as when it stands, it is read as when it is resolved, for the last value of
a repeated key wins either way. The converse needs that no key is repeated.

* **`Json.inductionOn`** is the induction over JSON values.
* **`Table.forall₂_ofPairs`**: tables that agree entry by entry still do when repeated keys are
  resolved.
* **`Json.ReadResolved`** says that a reader reads a resolved value no differently; style values,
  style maps, tables and sections are all read so. -/

namespace StyleTree

universe u v

/-! ## Tables -/

namespace Table

variable {α : Type u} {β : Type v} {R : α → β → Prop}

/-- Two entries **agree** if they have the same key and related values. -/
def Agree (R : α → β → Prop) (entry : String × α) (other : String × β) : Prop :=
  entry.1 = other.1 ∧ R entry.2 other.2

/-- Inserting related values under one key keeps tables related. -/
theorem forall₂_insert {t : Table α} {t' : Table β} (h : List.Forall₂ (Agree R) t t')
    {a : α} {b : β} (related : R a b) (key : String) :
    List.Forall₂ (Agree R) (insert t key a) (insert t' key b) := by
  induction h with
  | nil => exact .cons ⟨rfl, related⟩ .nil
  | cons agree rest ih =>
    rw [insert_cons, insert_cons, agree.1]
    split
    · exact .cons ⟨rfl, related⟩ rest
    · exact .cons agree ih

/-- Inserting related pairs keeps tables related. -/
theorem forall₂_insertAll {pairs : List (String × α)} {pairs' : List (String × β)}
    (h : List.Forall₂ (Agree R) pairs pairs') {t : Table α} {t' : Table β}
    (ht : List.Forall₂ (Agree R) t t') :
    List.Forall₂ (Agree R) (insertAll t pairs) (insertAll t' pairs') := by
  induction h generalizing t t' with
  | nil => exact ht
  | cons agree rest ih =>
    rw [insertAll_cons, insertAll_cons, agree.1]
    exact ih (forall₂_insert ht agree.2 _)

/-- Pairs that agree one by one give tables that agree one by one. -/
theorem forall₂_ofPairs {pairs : List (String × α)} {pairs' : List (String × β)}
    (h : List.Forall₂ (Agree R) pairs pairs') :
    List.Forall₂ (Agree R) (ofPairs pairs) (ofPairs pairs') :=
  forall₂_insertAll h .nil

/-- Changing the values of a table changes what is found in it. -/
theorem find?_map (f : α → β) (t : Table α) (key : String) :
    find? (t.map fun entry => (entry.1, f entry.2)) key = (find? t key).map f := by
  induction t with
  | nil => rfl
  | cons entry rest ih =>
    obtain ⟨other, a⟩ := entry
    simp only [find?, List.map_cons, List.lookup_cons] at ih ⊢
    cases key == other with
    | true => rfl
    | false => exact ih

end Table

/-! ## JSON values -/

namespace Json

/-- Induction over a JSON value, with the items of an array and the values of an object before the
array or object itself. -/
@[elab_as_elim]
theorem inductionOn {P : Json → Prop} (value : Json) (null : P .null) (bool : ∀ b, P (.bool b))
    (number : ∀ n, P (.number n)) (string : ∀ s, P (.string s))
    (array : ∀ items, (∀ item ∈ items, P item) → P (.array items))
    (object : ∀ members, (∀ member ∈ members, P member.2) → P (.object members)) : P value :=
  -- the recursor has motives of its own for the items, the members and a member
  @Json.rec P (fun items => ∀ item ∈ items, P item) (fun members => ∀ member ∈ members, P member.2)
    (fun member => P member.2) null bool number string array object (by simp)
    (fun _ _ head rest => List.forall_mem_cons.2 ⟨head, rest⟩) (by simp)
    (fun _ _ head rest => List.forall_mem_cons.2 ⟨head, rest⟩) (fun _ _ value => value) value

/-- An array is resolved item by item. -/
theorem resolve_array (items : List Json) : (array items).resolve = .array (items.map resolve) := by
  rw [resolve, resolveItems_eq_map]

/-- An object keeps the last of several members with one key. -/
theorem resolve_object (members : List (String × Json)) :
    (object members).resolve =
      .object (Table.ofPairs (members.map fun member => (member.1, member.2.resolve))) := by
  rw [resolve, resolveMembers_eq_map]

/-- Resolving an object that repeats no key resolves its values. -/
theorem resolve_object_of_distinct {members : List (String × Json)} (h : Table.Distinct members) :
    (object members).resolve =
      .object (members.map fun member => (member.1, member.2.resolve)) := by
  rw [resolve_object, Table.ofPairs_of_distinct]
  simpa [Table.Distinct, Table.keys, Function.comp_def] using h

/-- Only an object resolves to an object. -/
theorem exists_of_resolve_eq_object {value : Json} {members : List (String × Json)}
    (h : value.resolve = .object members) : ∃ written, value = .object written := by
  cases value with
  | object written => exact ⟨written, rfl⟩
  | array items =>
    rw [resolve_array] at h
    cases h
  | _ => cases h

/-- Items are resolved if each of them is. -/
theorem resolvedItems_iff {items : List Json} :
    ResolvedItems items ↔ ∀ item ∈ items, item.Resolved := by
  induction items with
  | nil => simp [ResolvedItems]
  | cons item rest ih => rw [ResolvedItems, ih, List.forall_mem_cons]

/-- Members are resolved if each of their values is. -/
theorem resolvedMembers_iff {members : List (String × Json)} :
    ResolvedMembers members ↔ ∀ member ∈ members, member.2.Resolved := by
  induction members with
  | nil => simp [ResolvedMembers]
  | cons member rest ih => rw [ResolvedMembers, ih, List.forall_mem_cons, ResolvedMember]

/-- A value in which no key is repeated is resolved already. -/
theorem resolve_eq_self {value : Json} (h : value.Resolved) : value.resolve = value := by
  induction value using inductionOn with
  | null | bool | number | string => rfl
  | array items ih =>
    rw [Resolved, resolvedItems_iff] at h
    have same : items.map resolve = items.map id :=
      List.map_congr_left fun item hitem => ih item hitem (h item hitem)
    rw [resolve_array, same, List.map_id]
  | object members ih =>
    rw [Resolved, resolvedMembers_iff] at h
    obtain ⟨distinct, resolved⟩ := h
    have same : (members.map fun member => (member.1, member.2.resolve)) = members.map id :=
      List.map_congr_left fun member hmember => by
        rw [ih member hmember (resolved member hmember), id]
    rw [resolve_object_of_distinct distinct, same, List.map_id]

/-- A reader **reads resolved** values no differently: what it reads a value as, it also reads the
resolved value as. -/
def ReadResolved {α : Type} (read : Json → Option α) : Prop :=
  ∀ value a, read value = some a → read value.resolve = some a

/-- What is made of a value read is the same before and after the value is resolved. -/
theorem ReadResolved.map {α β : Type} {read : Json → Option α} (h : ReadResolved read)
    (f : α → β) : ReadResolved fun value => (read value).map f := by
  intro value b hb
  obtain ⟨a, ha, rfl⟩ := Option.map_eq_some_iff.1 hb
  exact Option.map_eq_some_iff.2 ⟨a, h value a ha, rfl⟩

end Json

/-! ## Readers -/

/-- Each member of a list can be read, and this is what they are read as. -/
theorem mapM_eq_some_iff {α β : Type} {f : α → Option β} {l : List α} {l' : List β} :
    l.mapM f = some l' ↔ List.Forall₂ (fun a b => f a = some b) l l' := by
  induction l generalizing l' with
  | nil => simp [eq_comm]
  | cons a rest ih =>
    rw [List.mapM_cons, List.forall₂_cons_left_iff]
    simp [Option.bind_eq_some_iff, ih, eq_comm (b := l')]

/-- Items are read the same when they are resolved, if each of them is. -/
theorem mapM_resolve {α : Type} {read : Json → Option α} {items : List Json} {l : List α}
    (each : ∀ item ∈ items, ∀ a, read item = some a → read item.resolve = some a)
    (h : items.mapM read = some l) : (items.map Json.resolve).mapM read = some l := by
  rw [mapM_eq_some_iff] at h ⊢
  refine List.forall₂_map_left_iff.2 (((List.forall₂_and_left _ _).2 ⟨each, h⟩).imp ?_)
  exact fun item a ⟨value, read_eq⟩ => value a read_eq

namespace Table

variable {α : Type} {read : Json → Option α} {members : List (String × Json)} {t : Table α}

/-- A table is read from an object if each member can be read. -/
theorem ofJson?_object_iff :
    ofJson? read (.object members) = some t ↔
      ∃ pairs, List.Forall₂ (Agree fun value a => read value = some a) members pairs ∧
        ofPairs pairs = t := by
  have agree_iff (member : String × Json) (pair : String × α) :
      (read member.2).map (member.1, ·) = some pair ↔
        Agree (fun value a => read value = some a) member pair := by
    obtain ⟨key, a⟩ := pair
    simp [Agree, and_comm]
  rw [ofJson?, Option.map_eq_some_iff]
  simp only [mapM_eq_some_iff, agree_iff]

/-- An object is read as the same table when it is resolved, if its values are read the same. -/
theorem ofJson?_resolve
    (values : ∀ member ∈ members, ∀ a, read member.2 = some a → read member.2.resolve = some a)
    (h : ofJson? read (.object members) = some t) :
    ofJson? read (Json.object members).resolve = some t := by
  obtain ⟨pairs, agree, rfl⟩ := ofJson?_object_iff.1 h
  have resolved : List.Forall₂ (Agree fun value a => read value = some a)
      (members.map fun member => (member.1, member.2.resolve)) pairs := by
    refine List.forall₂_map_left_iff.2 ?_
    refine ((List.forall₂_and_left _ _).2 ⟨values, agree⟩).imp ?_
    rintro member pair ⟨value, key_eq, read_eq⟩
    exact ⟨key_eq, value _ read_eq⟩
  rw [Json.resolve_object, ofJson?_object_iff]
  exact ⟨ofPairs pairs, forall₂_ofPairs resolved, ofPairs_of_distinct (distinct_ofPairs pairs)⟩

/-- Tables are read alike before and after they are resolved if their values are. -/
theorem readResolved (h : Json.ReadResolved read) : Json.ReadResolved (ofJson? read) := by
  intro value t ht
  cases value with
  | object members => exact ofJson?_resolve (fun member _ => h member.2) ht
  | _ => cases ht

end Table

namespace StyleValue

/-- Items are read in turn until one cannot be. -/
theorem itemsOfJson?_eq_mapM (items : List Json) : itemsOfJson? items = items.mapM ofJson? := by
  induction items with
  | nil => rfl
  | cons item rest ih =>
    rw [itemsOfJson?, ih, List.mapM_cons]

/-- Entries are read in turn until one cannot be. -/
theorem entriesOfJson?_eq_mapM (members : List (String × Json)) :
    entriesOfJson? members = members.mapM fun member => (ofJson? member.2).map (member.1, ·) := by
  induction members with
  | nil => rfl
  | cons member rest ih =>
    rw [entriesOfJson?, entryOfJson?, ih, List.mapM_cons]

/-- An object is read as a map of style values as any table is. -/
theorem ofJson?_object (members : List (String × Json)) :
    ofJson? (.object members) = (Table.ofJson? ofJson? (.object members)).map .map := by
  rw [ofJson?, entriesOfJson?_eq_mapM, Table.ofJson?, Option.map_map]
  rfl

/-- A style value in JSON is read the same when it is resolved. -/
theorem readResolved : Json.ReadResolved ofJson? := by
  intro value
  induction value using Json.inductionOn with
  | null | bool | number | string => exact fun _ h => h
  | array items ih =>
    intro x h
    rw [ofJson?, itemsOfJson?_eq_mapM] at h
    obtain ⟨xs, hxs, rfl⟩ := Option.map_eq_some_iff.1 h
    rw [Json.resolve_array, ofJson?, itemsOfJson?_eq_mapM, mapM_resolve ih hxs]
    rfl
  | object members ih =>
    intro x h
    rw [ofJson?_object] at h
    obtain ⟨t, ht, rfl⟩ := Option.map_eq_some_iff.1 h
    have resolved := Table.ofJson?_resolve ih ht
    rw [Json.resolve_object] at resolved ⊢
    rw [ofJson?_object, resolved]
    rfl

end StyleValue

/-- A style map is read as a table of style values. -/
theorem StyleMap.ofJson?_eq_table : StyleMap.ofJson? = Table.ofJson? StyleValue.ofJson? := by
  funext value
  rw [StyleMap.ofJson?]
  cases value with
  | object members =>
    rw [StyleValue.ofJson?_object]
    cases Table.ofJson? StyleValue.ofJson? (.object members) <;> rfl
  | array items =>
    rw [StyleValue.ofJson?]
    cases StyleValue.itemsOfJson? items <;> rfl
  | _ => rfl

/-- Style maps are read alike before and after they are resolved. -/
theorem StyleMap.readResolved : Json.ReadResolved StyleMap.ofJson? :=
  StyleMap.ofJson?_eq_table ▸ Table.readResolved StyleValue.readResolved

/-- A section in JSON is read the same when it is resolved. -/
theorem StyleSection.readResolved (kind : SectionKind) :
    Json.ReadResolved (StyleSection.ofJson? · kind) := by
  have rules : Json.ReadResolved RuleSet.ofJson? := Table.readResolved StyleMap.readResolved
  cases kind with
  | tags => exact rules.map StyleSection.tags
  | classes => exact rules.map StyleSection.classes
  | animations => exact (Table.readResolved rules).map StyleSection.animations

end StyleTree
