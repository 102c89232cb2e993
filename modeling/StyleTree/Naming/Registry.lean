/-! # Registries of names

A **registry** records the names that have been issued. It only ever grows, and holds every name
once. -/

namespace StyleTree

/-- The names that have been issued. -/
structure Registry where
  /-- The names, in the order in which they were recorded. -/
  names : List String
  /-- No name is recorded twice. -/
  nodup : names.Nodup

namespace Registry

/-- The registry without names. -/
def empty : Registry := ⟨[], List.nodup_nil⟩

/-- Whether a name has been issued. -/
def contains (r : Registry) (name : String) : Bool := r.names.contains name

/-- How many names have been issued. -/
def size (r : Registry) : Nat := r.names.length

/-- Record a name, if it is not recorded yet. -/
def insert (r : Registry) (name : String) : Registry :=
  if h : name ∈ r.names then r
  else
    ⟨r.names ++ [name], by
      refine List.nodup_append.2 ⟨r.nodup, by simp, fun a ha b hb => ?_⟩
      rw [List.mem_singleton.1 hb]
      exact fun e => h (e ▸ ha)⟩

/-- Record several names. -/
def insertAll (r : Registry) (names : List String) : Registry := names.foldl insert r

/-- The search for a name finds the names that are registered. -/
@[simp] theorem contains_iff {r : Registry} {name : String} :
    r.contains name = true ↔ name ∈ r.names := by
  simp [contains]

@[simp] theorem insertAll_nil (r : Registry) : r.insertAll [] = r := rfl

@[simp] theorem insertAll_cons (r : Registry) (name : String) (names : List String) :
    r.insertAll (name :: names) = (r.insert name).insertAll names := rfl

/-- Two registries are equal if they hold the same names in the same order. -/
theorem ext_names {r s : Registry} (h : r.names = s.names) : r = s := by
  cases r
  cases s
  simp_all

/-- A new name is recorded after the others. -/
theorem names_insert_of_not_mem {r : Registry} {name : String} (h : name ∉ r.names) :
    (r.insert name).names = r.names ++ [name] := by
  simp [insert, h]

/-- A name that is recorded already changes nothing. -/
theorem insert_of_mem {r : Registry} {name : String} (h : name ∈ r.names) : r.insert name = r := by
  simp [insert, h]

/-- Inserting adds one name and drops none. -/
@[simp] theorem mem_insert {r : Registry} {name other : String} :
    other ∈ (r.insert name).names ↔ other ∈ r.names ∨ other = name := by
  by_cases h : name ∈ r.names
  · rw [insert_of_mem h]
    exact ⟨Or.inl, fun h' => h'.elim id (fun e => e ▸ h)⟩
  · simp [names_insert_of_not_mem h]

end Registry

end StyleTree
