import StyleTree.Error
import StyleTree.Naming.Generator
import StyleTree.Naming.Registry

/-! # Reservations of names

Names are asked for in batches. A **reservation** stages the names of one batch; they are recorded
in the registry only when the reservation is **committed**, so a batch that fails leaves no name
behind. A name is **taken** if it is recorded or staged.

* **`Reservation.search`** tries names made with random letters until one is free.
* **`Reservation.issue`** gives a name for a base: the base itself, or one made with letters. -/

namespace StyleTree

/-- The names staged for one batch. -/
structure Reservation where
  /-- What the names are given to. -/
  kind : NameKind
  /-- The names issued before the batch. -/
  registry : Registry
  /-- The names issued within the batch, in order. -/
  staged : List String

/-- What comes of trying names made with random letters. -/
structure Search where
  /-- The free name, if one was found. -/
  found : Option String
  /-- The generator after all letters that were drawn. -/
  generator : Generator
  /-- The taken names that were tried before, in order. -/
  passed : List String

/-- What comes of asking for a name. -/
structure Issue where
  /-- The name, or why there is none. -/
  name : Except Error String
  /-- The reservation with the name staged. -/
  reservation : Reservation
  /-- The generator after all letters that were drawn. -/
  generator : Generator
  /-- The taken names that were tried before, in order. -/
  passed : List String

/-- How many letters are appended to a base. -/
def suffixLength : Nat := 5

/-- The name made of a base and letters. -/
def obfuscatedName (base : String) (letters : List Char) : String :=
  base ++ "_" ++ String.ofList letters

/-- A reservation without names yet. -/
def Registry.reserve (registry : Registry) (kind : NameKind) : Reservation := ⟨kind, registry, []⟩

namespace Reservation

/-- Whether a name has been issued, before the batch or within it. -/
def isTaken (r : Reservation) (name : String) : Bool :=
  r.registry.contains name || r.staged.contains name

/-- Stage a name. -/
def stage (r : Reservation) (name : String) : Reservation :=
  { r with staged := r.staged ++ [name] }

/-- Try the names made of a base and the letters to come, at most so many of them, until one is
free. -/
def search (r : Reservation) (base : String) : Nat → Generator → Search
  | 0, g => ⟨none, g, []⟩
  | tries + 1, g =>
    let (letters, g) := g.letters suffixLength
    let name := obfuscatedName base letters
    if r.isTaken name then
      let later := search r base tries g
      { later with passed := name :: later.passed }
    else ⟨some name, g, []⟩

/-- Ask for a name that starts with a base and ends in random letters. There is no limit to the
tries: as long as the names made are taken, more letters are drawn, and if no name is ever free the
asking **never ends**. That it never ends can be told in advance. Letters repeat after a period of
the stream, and every try takes some, so after as many tries as the period is long each name that
the letters can make has been tried. The issue without a name that is given back then stands for the
asking that goes on forever; nobody ever receives it. -/
def issueObfuscated (r : Reservation) (base : String) (g : Generator) : Issue :=
  let s := r.search base Keystream.period g
  match s.found with
  | some name => ⟨.ok name, r.stage name, s.generator, s.passed⟩
  | none => ⟨.error (.namesExhausted r.kind base), r, s.generator, s.passed⟩

/-- Ask for a base itself as a name. -/
def issuePlain (r : Reservation) (base : String) (g : Generator) : Issue :=
  if r.isTaken base then ⟨.error (.nameConflict r.kind base), r, g, []⟩
  else ⟨.ok base, r.stage base, g, []⟩

/-- Ask for a name, with random letters or without. -/
def issue (r : Reservation) (obfuscate : Bool) (base : String) (g : Generator) : Issue :=
  if obfuscate then r.issueObfuscated base g else r.issuePlain base g

/-- The registry in which all names of the batch are recorded. -/
def commit (r : Reservation) : Registry := r.registry.insertAll r.staged

/-- Names are taken once they are registered or staged. -/
@[simp] theorem isTaken_iff {r : Reservation} {name : String} :
    r.isTaken name = true ↔ name ∈ r.registry.names ∨ name ∈ r.staged := by
  simp [isTaken]

@[simp] theorem search_zero (r : Reservation) (base : String) (g : Generator) :
    r.search base 0 g = ⟨none, g, []⟩ := rfl

/-- A free name ends the search. -/
theorem search_of_free {r : Reservation} {base : String} {g : Generator}
    (h : r.isTaken (obfuscatedName base (g.letters suffixLength).1) = false) (tries : Nat) :
    r.search base (tries + 1) g =
      ⟨some (obfuscatedName base (g.letters suffixLength).1), (g.letters suffixLength).2, []⟩ := by
  simp [search, h]

/-- A taken name is passed over. -/
theorem search_of_taken {r : Reservation} {base : String} {g : Generator}
    (h : r.isTaken (obfuscatedName base (g.letters suffixLength).1) = true) (tries : Nat) :
    r.search base (tries + 1) g =
      { r.search base tries (g.letters suffixLength).2 with
        passed := obfuscatedName base (g.letters suffixLength).1
          :: (r.search base tries (g.letters suffixLength).2).passed } := by
  simp [search, h]

/-- Committing a reservation without names changes nothing. -/
@[simp] theorem commit_reserve (registry : Registry) (kind : NameKind) :
    (registry.reserve kind).commit = registry := rfl

end Reservation

end StyleTree
