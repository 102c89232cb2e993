/-! # Tables in insertion order

A **table** gives values to keys and keeps the order in which the keys were first inserted. It is
the list of its entries; `Table.Distinct` says that no key occurs twice, which every table built by
insertion satisfies.

* **`Table.insert`** replaces the value of a key in place, or adds a new key at the end.
* **`Table.ofPairs`** inserts pairs one after another, so that a repeated key keeps its first place
  and takes its last value; `Table.ofPairs_of_distinct` says that it leaves a table alone. -/

namespace StyleTree

universe u

/-- The entries of a table, in the order of their keys' first insertion. -/
abbrev Table (α : Type u) := List (String × α)

namespace Table

variable {α : Type u}

/-- The keys of a table, in order. -/
def keys (t : Table α) : List String := t.map Prod.fst

/-- No key occurs twice. -/
def Distinct (t : Table α) : Prop := (keys t).Nodup

/-- The value of a key. -/
def find? (t : Table α) (key : String) : Option α := t.lookup key

/-- Give a key a value: in the place of the key if it has one, else at the end. -/
def insert (t : Table α) (key : String) (value : α) : Table α :=
  match t with
  | [] => [(key, value)]
  | entry :: rest =>
    if entry.1 = key then (key, value) :: rest else entry :: insert rest key value

/-- Insert each pair of a list after those before it. -/
def insertAll (t : Table α) (pairs : List (String × α)) : Table α :=
  pairs.foldl (fun t pair => insert t pair.1 pair.2) t

/-- The table that results from inserting pairs one after another. -/
def ofPairs (pairs : List (String × α)) : Table α := insertAll [] pairs

@[simp] theorem keys_nil : keys ([] : Table α) = [] := rfl

@[simp] theorem keys_cons (entry : String × α) (rest : Table α) :
    keys (entry :: rest) = entry.1 :: keys rest := rfl

/-- Entries that follow others have their keys behind theirs. -/
@[simp] theorem keys_append (s t : Table α) : keys (s ++ t) = keys s ++ keys t := by
  simp [keys]

@[simp] theorem insert_nil (key : String) (value : α) : insert [] key value = [(key, value)] := rfl

/-- A value goes to the entry of its key if there is one. -/
theorem insert_cons (entry : String × α) (rest : Table α) (key : String) (value : α) :
    insert (entry :: rest) key value =
      if entry.1 = key then (key, value) :: rest else entry :: insert rest key value := rfl

@[simp] theorem insertAll_nil (t : Table α) : insertAll t [] = t := rfl

@[simp] theorem insertAll_cons (t : Table α) (pair : String × α) (pairs : List (String × α)) :
    insertAll t (pair :: pairs) = insertAll (insert t pair.1 pair.2) pairs := rfl

/-- Insertion adds a key that is new and changes no other. -/
theorem keys_insert (t : Table α) (key : String) (value : α) :
    keys (insert t key value) = if key ∈ keys t then keys t else keys t ++ [key] := by
  induction t with
  | nil => simp
  | cons entry rest ih =>
    rw [insert_cons]
    split
    · next h => simp [h]
    · next h => simp only [keys_cons, ih, List.mem_cons, Ne.symm h, false_or]; split <;> simp

/-- The first entry with a key is the one that is found. -/
theorem find?_cons (entry : String × α) (rest : Table α) (key : String) :
    find? (entry :: rest) key = if key = entry.1 then some entry.2 else find? rest key := by
  rw [find?, find?, List.lookup_cons]
  by_cases h : key = entry.1
  · simp [h]
  · rw [beq_eq_false_iff_ne.2 h, if_neg h]

/-- The value of a key is the one that was inserted, and that of another key is as before. -/
theorem find?_insert (t : Table α) (key other : String) (value : α) :
    find? (insert t key value) other = if other = key then some value else find? t other := by
  induction t with
  | nil => rw [insert_nil, find?_cons]
  | cons entry rest ih =>
    rw [insert_cons]
    by_cases same : entry.1 = key
    · rw [if_pos same, find?_cons, find?_cons, same]
      split <;> rfl
    · rw [if_neg same, find?_cons, find?_cons, ih]
      by_cases found : other = entry.1
      · rw [if_pos found, if_neg (found ▸ same), if_pos found]
      · rw [if_neg found, if_neg found]

/-- A new key goes to the end. -/
theorem insert_of_not_mem {t : Table α} {key : String} (h : key ∉ keys t) (value : α) :
    insert t key value = t ++ [(key, value)] := by
  induction t with
  | nil => rfl
  | cons entry rest ih =>
    simp only [keys_cons, List.mem_cons, not_or] at h
    rw [insert_cons, if_neg (Ne.symm h.1), ih h.2, List.cons_append]

/-- Insertion keeps the keys distinct. -/
theorem distinct_insert {t : Table α} (h : Distinct t) (key : String) (value : α) :
    Distinct (insert t key value) := by
  unfold Distinct at *
  rw [keys_insert]
  split
  · exact h
  · next hk =>
    refine List.nodup_append.2 ⟨h, by simp, fun a ha b hb => ?_⟩
    rw [List.mem_singleton.1 hb]
    exact fun e => hk (e ▸ ha)

/-- Insertion does not repeat keys. -/
theorem distinct_insertAll {t : Table α} (h : Distinct t) (pairs : List (String × α)) :
    Distinct (insertAll t pairs) := by
  induction pairs generalizing t with
  | nil => exact h
  | cons pair pairs ih => exact ih (distinct_insert h pair.1 pair.2)

/-- Every table built by insertion has distinct keys. -/
theorem distinct_ofPairs (pairs : List (String × α)) : Distinct (ofPairs pairs) :=
  distinct_insertAll (by simp [Distinct]) pairs

/-- Pairs without a repeated key are inserted as they are. -/
theorem insertAll_of_distinct {t : Table α} {pairs : List (String × α)}
    (h : Distinct (t ++ pairs)) : insertAll t pairs = t ++ pairs := by
  induction pairs generalizing t with
  | nil => simp
  | cons pair pairs ih =>
    have new : pair.1 ∉ keys t := by
      intro hk
      simp only [Distinct, keys_append, keys_cons] at h
      exact (List.nodup_append.1 h).2.2 _ hk _ List.mem_cons_self rfl
    rw [insertAll_cons, insert_of_not_mem new, ih (by simpa using h)]
    simp

/-- A list of pairs with distinct keys is already a table. -/
theorem ofPairs_of_distinct {pairs : List (String × α)} (h : Distinct pairs) :
    ofPairs pairs = pairs :=
  insertAll_of_distinct (t := []) h

end Table

end StyleTree
