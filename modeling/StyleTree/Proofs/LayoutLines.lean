import StyleTree.Proofs.LineFeeds
import StyleTree.Rule.Layout
import StyleTree.Text.Lines

/-! # Lines of a laid-out rule tree

The layout of a rule tree line by line. The lines are a plain function of the tree, and putting a
line feed after each of them gives the text of the layout, whatever the strings in the tree hold.
They are also the lines that the text is split into again, as long as no string has a line feed of
its own: every line that is not blank ends in a brace or a semicolon, so none ends in a carriage
return that would go with the line feed.

* **`linesOfNodes`** are the lines of nodes, and `toList_layoutNodes` says that the text has them.
* **`lines_layoutNodes`** splits the text. -/

namespace StyleTree

/-! ## Putting lines together -/

/-- The text in which each line is followed by a line feed. -/
def joinLines (ls : List (List Char)) : List Char := ls.flatMap (· ++ ['\n'])

@[simp] theorem joinLines_nil : joinLines [] = [] := rfl

/-- The first line comes first, with its line feed. -/
theorem joinLines_cons (l : List Char) (ls : List (List Char)) :
    joinLines (l :: ls) = l ++ '\n' :: joinLines ls := by
  simp [joinLines]

/-- Lines can be joined in two parts. -/
theorem joinLines_append (ls later : List (List Char)) :
    joinLines (ls ++ later) = joinLines ls ++ joinLines later :=
  List.flatMap_append

/-- Any other character goes to the front of the first line. -/
theorem lines_cons {c : Char} {cs line : List Char} {later : List (List Char)} (hc : c ≠ '\n')
    (ending : ∀ rest, c = '\r' → cs ≠ '\n' :: rest) (h : lines cs = line :: later) :
    lines (c :: cs) = (c :: line) :: later := by
  rw [lines, h]
  · exact hc
  · exact fun rest hr => ending rest hr

/-- A line without a line feed that does not end in a carriage return is the first line of a text
that goes on with a line feed. -/
theorem lines_append_lineFeed {l : List Char} (feed : '\n' ∉ l) (ending : l.getLast? ≠ some '\r')
    (rest : List Char) : lines (l ++ '\n' :: rest) = l :: lines rest := by
  induction l with
  | nil => exact lines_lineFeed rest
  | cons c l ih =>
    have hc : c ≠ '\n' := fun e => feed (e ▸ List.mem_cons_self)
    have hfeed : '\n' ∉ l := fun hmem => feed (List.mem_cons_of_mem c hmem)
    -- a carriage return goes with a line feed only where the line is at its end
    cases l with
    | nil =>
      have hr : c ≠ '\r' := fun e => ending (by simp [e])
      exact lines_cons hc (fun _ e => absurd e hr) (lines_lineFeed rest)
    | cons d l =>
      refine lines_cons hc ?_ (ih hfeed (by simpa using ending))
      intro rest' _ e
      exact hfeed (by simp [(List.cons.inj e).1])

/-- A line is **whole** if it has no line feed, and no carriage return that a line feed behind it
would take along. -/
def WholeLine (l : List Char) : Prop := '\n' ∉ l ∧ l.getLast? ≠ some '\r'

/-- Whole lines that are put together are the first lines of the text. -/
theorem lines_joinLines_append {ls : List (List Char)} (whole : ∀ l ∈ ls, WholeLine l)
    (rest : List Char) : lines (joinLines ls ++ rest) = ls ++ lines rest := by
  induction ls with
  | nil => rfl
  | cons l ls ih =>
    obtain ⟨first, others⟩ := List.forall_mem_cons.1 whole
    rw [joinLines_cons, List.append_assoc, List.cons_append,
      lines_append_lineFeed first.1 first.2, ih others, List.cons_append]

/-- Whole lines that are put together are the lines of the text. -/
theorem lines_joinLines {ls : List (List Char)} (whole : ∀ l ∈ ls, WholeLine l) :
    lines (joinLines ls) = ls := by
  simpa using lines_joinLines_append whole []

/-! ## The lines of nodes -/

/-- The blanks that indent a line at a level. -/
def indentation (level : Nat) : List Char := List.replicate (2 * level) ' '

/-- The indentation of a level as characters. -/
@[simp] theorem toList_indent (level : Nat) : (indent level).toList = indentation level := by
  simp [indent, indentation]

/-- The line of a declaration in a rule at a level. -/
def Declaration.line (level : Nat) (d : Declaration) : List Char :=
  indentation (level + 1) ++ (d.property.toList ++ ':' :: ' ' :: (d.value.toList ++ [';']))

/-- The line that opens a block at a level. -/
def openingLine (level : Nat) (head : String) : List Char :=
  indentation level ++ (head.toList ++ [' ', '\x7b'])

/-- The line that closes a block at a level. -/
def endLine (level : Nat) : List Char := indentation level ++ ['\x7d']

/-- The line of a declaration, with its semicolon apart. -/
theorem line_eq_concat (level : Nat) (d : Declaration) :
    d.line level =
      (indentation (level + 1) ++ (d.property.toList ++ ':' :: ' ' :: d.value.toList)) ++
        [';'] := by
  simp [Declaration.line]

/-- The line of a declaration ends in a semicolon. -/
theorem getLast?_line (level : Nat) (d : Declaration) : (d.line level).getLast? = some ';' := by
  rw [line_eq_concat, List.getLast?_concat]

/-- The line that opens a block ends in a brace. -/
theorem getLast?_openingLine (level : Nat) (head : String) :
    (openingLine level head).getLast? = some '\x7b' := by
  simp [openingLine]

/-- The line that ends a block ends in a brace. -/
theorem getLast?_endLine (level : Nat) : (endLine level).getLast? = some '\x7d' := by
  simp [endLine]

mutual

/-- The lines of a node at a level. -/
def Node.lines (level : Nat) : Node → List (List Char)
  | .rule selector declarations =>
    [] :: openingLine level selector ::
      (declarations.map (Declaration.line level) ++ [endLine level])
  | .media query body =>
    [] :: openingLine level query ::
      (linesOfNodes (level + 1) body ++ [indentation level, endLine level])

/-- The lines of nodes at a level. -/
def linesOfNodes (level : Nat) : List Node → List (List Char)
  | [] => []
  | node :: rest => node.lines level ++ linesOfNodes level rest

end

@[simp] theorem linesOfNodes_nil (level : Nat) : linesOfNodes level [] = [] := by
  rw [linesOfNodes]

/-- The lines of the first node come first. -/
theorem linesOfNodes_cons (level : Nat) (node : Node) (rest : List Node) :
    linesOfNodes level (node :: rest) = node.lines level ++ linesOfNodes level rest := by
  rw [linesOfNodes]

/-- The layout of declarations is one line each. -/
theorem toList_layoutDeclarations (level : Nat) (declarations : List Declaration) :
    (layoutDeclarations level declarations).toList =
      joinLines (declarations.map (Declaration.line level)) := by
  induction declarations with
  | nil => rfl
  | cons d rest ih =>
    rw [layoutDeclarations_cons, List.map_cons, joinLines_cons, ← ih]
    simp [Declaration.layout, Declaration.line]

mutual

/-- The layout of a node is its lines. -/
theorem toList_layout (level : Nat) (node : Node) :
    (node.layout level).toList = joinLines (node.lines level) := by
  match node with
  | .rule selector declarations =>
    simp [Node.layout, Node.lines, joinLines_cons, joinLines_append, headerLine, closingLine,
      openingLine, endLine, toList_layoutDeclarations]
  | .media query body =>
    simp [Node.layout, Node.lines, joinLines_cons, joinLines_append, headerLine, closingLine,
      openingLine, endLine, toList_layoutNodes (level + 1) body]

/-- The text of nodes consists of their lines. -/
theorem toList_layoutNodes (level : Nat) (nodes : List Node) :
    (layoutNodes level nodes).toList = joinLines (linesOfNodes level nodes) := by
  match nodes with
  | [] => simp
  | node :: rest =>
    rw [layoutNodes_cons, linesOfNodes_cons, joinLines_append, String.toList_append,
      toList_layout level node, toList_layoutNodes level rest]

end

/-! ## Splitting the text -/

mutual

/-- What holds of every sort of line that a node can have holds of all its lines. -/
theorem forall_mem_lines {P : List Char → Prop} {selector query : String → Prop}
    {declaration : Declaration → Prop} (blank : ∀ n, P (List.replicate n ' '))
    (opening : ∀ level s, selector s ∨ query s → P (openingLine level s))
    (declared : ∀ level d, declaration d → P (Declaration.line level d))
    (ending : ∀ level, P (endLine level)) (level : Nat) (node : Node)
    (h : node.All selector query declaration) : ∀ l ∈ node.lines level, P l := by
  -- a node in a media query is laid out one level further in
  match node with
  | .rule s declarations =>
    rw [all_rule] at h
    intro l hl
    simp only [Node.lines, List.mem_cons, List.mem_append, List.mem_map, List.not_mem_nil,
      or_false] at hl
    rcases hl with rfl | rfl | ⟨d, hd, rfl⟩ | rfl
    · exact blank 0
    · exact opening level s (.inl h.1)
    · exact declared level d (h.2 d hd)
    · exact ending level
  | .media q body =>
    rw [all_media] at h
    intro l hl
    simp only [Node.lines, List.mem_cons, List.mem_append, List.not_mem_nil, or_false] at hl
    rcases hl with rfl | rfl | hl | rfl | rfl
    · exact blank 0
    · exact opening level q (.inr h.1)
    · exact forall_mem_linesOfNodes blank opening declared ending (level + 1) body h.2 l hl
    · exact blank _
    · exact ending level

/-- What holds of each sort of line holds of all lines of nodes. -/
theorem forall_mem_linesOfNodes {P : List Char → Prop} {selector query : String → Prop}
    {declaration : Declaration → Prop} (blank : ∀ n, P (List.replicate n ' '))
    (opening : ∀ level s, selector s ∨ query s → P (openingLine level s))
    (declared : ∀ level d, declaration d → P (Declaration.line level d))
    (ending : ∀ level, P (endLine level)) (level : Nat) (nodes : List Node)
    (h : AllNodes selector query declaration nodes) : ∀ l ∈ linesOfNodes level nodes, P l := by
  match nodes with
  | [] => simp
  | node :: rest =>
    rw [allNodes_cons] at h
    intro l hl
    rw [linesOfNodes_cons, List.mem_append] at hl
    rcases hl with hl | hl
    · exact forall_mem_lines blank opening declared ending level node h.1 l hl
    · exact forall_mem_linesOfNodes blank opening declared ending level rest h.2 l hl

end

/-- Blanks are a whole line. -/
theorem wholeLine_blanks (n : Nat) : WholeLine (List.replicate n ' ') := by
  refine ⟨by simp, ?_⟩
  rw [List.getLast?_replicate]
  split <;> simp

/-- The line that opens a block is a whole line if its head has no line feed. -/
theorem wholeLine_openingLine {head : String} (h : NoLineFeed head) (level : Nat) :
    WholeLine (openingLine level head) := by
  refine ⟨?_, by simp [getLast?_openingLine]⟩
  simpa [openingLine, indentation, NoLineFeed] using h

/-- The line of a declaration is a whole line if the declaration has no line feed. -/
theorem wholeLine_line {d : Declaration} (h : d.NoLineFeed) (level : Nat) :
    WholeLine (d.line level) := by
  refine ⟨?_, by simp [getLast?_line]⟩
  simpa [Declaration.line, indentation, Declaration.NoLineFeed, NoLineFeed] using h

/-- The line that ends a block is a whole line. -/
theorem wholeLine_endLine (level : Nat) : WholeLine (endLine level) :=
  ⟨by simp [endLine, indentation], by simp [getLast?_endLine]⟩

/-- The lines of nodes without line feeds are whole. -/
theorem wholeLine_of_mem_linesOfNodes (level : Nat) {nodes : List Node}
    (h : AllNodes NoLineFeed NoLineFeed Declaration.NoLineFeed nodes) :
    ∀ l ∈ linesOfNodes level nodes, WholeLine l :=
  forall_mem_linesOfNodes wholeLine_blanks
    (fun level _ hs => wholeLine_openingLine (hs.elim id id) level)
    (fun level _ hd => wholeLine_line hd level) wholeLine_endLine level nodes h

/-- The text of nodes without line feeds is split into their lines. -/
theorem lines_layoutNodes (level : Nat) {nodes : List Node}
    (h : AllNodes NoLineFeed NoLineFeed Declaration.NoLineFeed nodes) :
    lines (layoutNodes level nodes).toList = linesOfNodes level nodes := by
  rw [toList_layoutNodes, lines_joinLines (wholeLine_of_mem_linesOfNodes level h)]

end StyleTree
