import StyleTree.Options.Basic

/-! # Rule trees

The **rule tree** of a style map is what its style sheet text says, apart from the layout: rules
with their declarations, and media queries with the rules inside them.

While the entries of a style map are read, declarations and nested rules arrive in any order. A
**`Fragment`** collects both apart, and **`Fragment.close`** makes one rule of the declarations and
puts the nested rules behind it. -/

namespace StyleTree

/-- A property and the text of its value. -/
structure Declaration where
  /-- The property, in spinal case. -/
  property : String
  /-- The text of the value. -/
  value : String
deriving DecidableEq, Repr

/-- A node of a rule tree. -/
inductive Node
  /-- A rule: a selector and its declarations. -/
  | rule (selector : String) (declarations : List Declaration)
  /-- A media query and the nodes inside it. -/
  | media (query : String) (body : List Node)
deriving Repr, Inhabited

/-- What the entries of a style map contribute. -/
structure Fragment where
  /-- The declarations for the selector itself. -/
  declarations : List Declaration
  /-- The nodes of nested selectors and media queries. -/
  nested : List Node
deriving Repr

namespace Fragment

/-- What no entries contribute. -/
def empty : Fragment := ⟨[], []⟩

/-- What two runs of entries contribute, one after the other. -/
def append (f g : Fragment) : Fragment := ⟨f.declarations ++ g.declarations, f.nested ++ g.nested⟩

/-- Declarations alone. -/
def ofDeclarations (declarations : List Declaration) : Fragment := ⟨declarations, []⟩

/-- Nested nodes alone. -/
def ofNodes (nodes : List Node) : Fragment := ⟨[], nodes⟩

/-- Whether the declarations make a rule of their own. -/
def hasRule (o : Options) (f : Fragment) : Bool :=
  !f.declarations.isEmpty || o.emptyBlocks = .emit

/-- The nodes of a selector: its own rule, if it has one, and then what is nested. -/
def close (o : Options) (selector : String) (f : Fragment) : List Node :=
  if f.hasRule o then .rule selector f.declarations :: f.nested else f.nested

@[simp] theorem empty_append (f : Fragment) : empty.append f = f := rfl

/-- The empty fragment adds nothing. -/
@[simp] theorem append_empty (f : Fragment) : f.append empty = f := by
  simp [append, empty]

/-- It does not matter which of three fragments are put together first. -/
theorem append_assoc (f g h : Fragment) : (f.append g).append h = f.append (g.append h) := by
  simp [append]

/-- Only a rule without declarations can be left out. -/
theorem close_of_declarations (o : Options) (selector : String) {f : Fragment}
    (h : f.declarations ≠ []) :
    f.close o selector = .rule selector f.declarations :: f.nested := by
  simp [close, hasRule, h]

end Fragment

end StyleTree
