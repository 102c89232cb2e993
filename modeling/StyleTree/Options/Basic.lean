import StyleTree.Table

/-! # Options

**Options** say how a style sheet is written. An **update** sets some of them and leaves the others
as they are.

* **`Options.apply`** puts an update into effect, **`Options.Update.merge`** puts one update on top
  of another; `Options.apply_merge` says that merging first makes no difference.
* **`Options.Update.isEmpty`** tells whether an update sets nothing. An empty table of vendor
  prefixes is set, for it replaces the table that was there. -/

namespace StyleTree

/-- What becomes of a rule without declarations. -/
inductive EmptyBlocks
  /-- It is left out; what is nested in it stays. -/
  | suppress
  /-- It is written, with nothing between its braces. -/
  | emit
deriving DecidableEq, Repr

/-- How a style sheet is written. -/
structure Options where
  /-- Whether random letters are appended to class and animation names. -/
  obfuscate : Bool := true
  /-- Whether the white space of the layout is left out. -/
  minify : Bool := false
  /-- The vendor prefixes with which the declarations of a property are repeated. -/
  vendorPrefixes : Table (List String) := []
  /-- What becomes of a rule without declarations. -/
  emptyBlocks : EmptyBlocks := .suppress
deriving DecidableEq, Repr

/-- A change of some options. -/
structure Options.Update where
  /-- The new value of `Options.obfuscate`, if it is set. -/
  obfuscate : Option Bool := none
  /-- The new value of `Options.minify`, if it is set. -/
  minify : Option Bool := none
  /-- The new value of `Options.vendorPrefixes`, if it is set. -/
  vendorPrefixes : Option (Table (List String)) := none
  /-- The new value of `Options.emptyBlocks`, if it is set. -/
  emptyBlocks : Option EmptyBlocks := none
deriving DecidableEq, Repr

namespace Options

/-- The options with everything changed that an update sets. -/
def apply (o : Options) (u : Update) : Options where
  obfuscate := u.obfuscate.getD o.obfuscate
  minify := u.minify.getD o.minify
  vendorPrefixes := u.vendorPrefixes.getD o.vendorPrefixes
  emptyBlocks := u.emptyBlocks.getD o.emptyBlocks

/-- The vendor prefixes of a property, if it has an entry in the table. -/
def prefixesFor? (o : Options) (property : String) : Option (List String) :=
  Table.find? o.vendorPrefixes property

namespace Update

/-- The update that sets nothing. -/
def empty : Update := {}

/-- Both updates in one; what the second sets wins. -/
def merge (u overrides : Update) : Update where
  obfuscate := overrides.obfuscate.or u.obfuscate
  minify := overrides.minify.or u.minify
  vendorPrefixes := overrides.vendorPrefixes.or u.vendorPrefixes
  emptyBlocks := overrides.emptyBlocks.or u.emptyBlocks

/-- Whether an update sets nothing. -/
def isEmpty (u : Update) : Bool :=
  u.obfuscate.isNone && u.minify.isNone && u.vendorPrefixes.isNone && u.emptyBlocks.isNone

/-- The update that also sets the vendor prefixes of one property, in the table it already sets or
in a new one. -/
def setPrefixes (u : Update) (property : String) (prefixes : List String) : Update :=
  { u with vendorPrefixes := some (Table.insert (u.vendorPrefixes.getD []) property prefixes) }

end Update

@[simp] theorem apply_empty (o : Options) : o.apply Update.empty = o := rfl

/-- Applying two updates merged is applying one after the other. -/
theorem apply_merge (o : Options) (u overrides : Update) :
    o.apply (u.merge overrides) = (o.apply u).apply overrides := by
  obtain ⟨a, b, c, d⟩ := overrides
  cases a <;> cases b <;> cases c <;> cases d <;> simp [apply, Update.merge]

namespace Update

/-- An update is empty only if it is the one that sets nothing. -/
theorem isEmpty_iff {u : Update} : u.isEmpty ↔ u = empty := by
  obtain ⟨a, b, c, d⟩ := u
  simp [isEmpty, empty, and_assoc]

/-- What is merged into the empty update is all that is left. -/
@[simp] theorem empty_merge (u : Update) : empty.merge u = u := by
  simp [merge, empty]

/-- The empty update has no word against another one. -/
@[simp] theorem merge_empty (u : Update) : u.merge empty = u := by
  simp [merge, empty]

end Update

end Options

end StyleTree
