import StyleTree.Rule.OfStyles

/-! # The layout of a rule tree

A rule tree is written with one declaration a line, every level two blanks deeper than the one
around it, and an empty line before each rule and each media query. A media query is followed by a
line that holds its indentation and nothing else.

* **`Node.layout`** and **`layoutNodes`** write nodes at a level.
* **`compile`** writes the rule tree of a style map. -/

namespace StyleTree

/-- The indentation of a level. -/
def indent (level : Nat) : String := String.ofList (List.replicate (2 * level) ' ')

@[simp] theorem indent_zero : indent 0 = "" := rfl

/-- The line of a declaration in a rule at a level. -/
def Declaration.layout (level : Nat) (d : Declaration) : String :=
  indent (level + 1) ++ d.property ++ ": " ++ d.value ++ ";\n"

/-- The lines of declarations in a rule at a level. -/
def layoutDeclarations (level : Nat) : List Declaration → String
  | [] => ""
  | d :: rest => d.layout level ++ layoutDeclarations level rest

/-- The line that opens a rule or a media query. -/
def headerLine (level : Nat) (head : String) : String := indent level ++ head ++ " \x7b\n"

/-- The line that closes a rule or a media query. -/
def closingLine (level : Nat) : String := indent level ++ "\x7d\n"

mutual

/-- The lines of a node at a level. -/
def Node.layout (level : Nat) : Node → String
  | .rule selector declarations =>
    "\n" ++ headerLine level selector ++ layoutDeclarations level declarations
      ++ closingLine level
  | .media query body =>
    "\n" ++ headerLine level query ++ layoutNodes (level + 1) body ++ indent level ++ "\n"
      ++ closingLine level

/-- The lines of nodes at a level. -/
def layoutNodes (level : Nat) : List Node → String
  | [] => ""
  | node :: rest => node.layout level ++ layoutNodes level rest

end

@[simp] theorem layoutDeclarations_nil (level : Nat) : layoutDeclarations level [] = "" := rfl

/-- Declarations are laid out in their order. -/
theorem layoutDeclarations_cons (level : Nat) (d : Declaration) (rest : List Declaration) :
    layoutDeclarations level (d :: rest) = d.layout level ++ layoutDeclarations level rest := rfl

@[simp] theorem layoutNodes_nil (level : Nat) : layoutNodes level [] = "" := by
  rw [layoutNodes]

/-- Nodes are laid out in their order. -/
theorem layoutNodes_cons (level : Nat) (node : Node) (rest : List Node) :
    layoutNodes level (node :: rest) = node.layout level ++ layoutNodes level rest := by
  rw [layoutNodes]

/-- The text of a style map under a selector, at a level. -/
def compile (o : Options) (level : Nat) (selector : String) (styles : StyleMap) :
    Except Error String :=
  (ruleTree o selector styles).map (layoutNodes level)

end StyleTree
