import StyleTree.Proofs.StyleParts

/-! # Pieces of a text between its selectors

The text of a style map is the same under every selector, apart from the selector. The rules of a
style map under the empty selector have what follows the selector in their heads; under any other
selector they have the selector before it. So the text falls into **pieces**, and between any two
of them stands the selector.

* **`nodesUnder`** puts a selector before those of nodes, and `fragmentOfParts_append` says that
  parts make such nodes.
* **`piecesOfNodes`** are the pieces, and `intercalate_piecesOfNodes` joins them.
* **`compile_joins_pieces`** is the result for the text of a style map. -/

namespace StyleTree

/-! ## Nodes under a selector -/

mutual

/-- A node with a selector before that of each rule in it. -/
def Node.under (selector : String) : Node → Node
  | .rule suffix declarations => .rule (selector ++ suffix) declarations
  | .media query body => .media query (nodesUnder selector body)

/-- Nodes with a selector before that of each rule in them. -/
def nodesUnder (selector : String) : List Node → List Node
  | [] => []
  | node :: rest => node.under selector :: nodesUnder selector rest

end

@[simp] theorem nodesUnder_nil (selector : String) : nodesUnder selector [] = [] := by
  rw [nodesUnder]

/-- Nodes go under a selector one by one. -/
theorem nodesUnder_cons (selector : String) (node : Node) (rest : List Node) :
    nodesUnder selector (node :: rest) = node.under selector :: nodesUnder selector rest := by
  rw [nodesUnder]

/-- Both parts of appended nodes go under the selector. -/
theorem nodesUnder_append (selector : String) (nodes later : List Node) :
    nodesUnder selector (nodes ++ later) =
      nodesUnder selector nodes ++ nodesUnder selector later := by
  induction nodes with
  | nil => simp
  | cons node rest ih =>
    rw [List.cons_append, nodesUnder_cons, nodesUnder_cons, ih, List.cons_append]

namespace Fragment

/-- A fragment with a selector before those of its nested nodes. -/
def under (selector : String) (f : Fragment) : Fragment :=
  ⟨f.declarations, nodesUnder selector f.nested⟩

@[simp] theorem under_empty (selector : String) : under selector .empty = .empty := by
  simp [under, empty]

/-- Both of two fragments put together go under the selector. -/
theorem under_append (selector : String) (f g : Fragment) :
    (f.append g).under selector = (f.under selector).append (g.under selector) := by
  simp only [under, append, nodesUnder_append]

/-- A rule of its own gets the selector before it as well. -/
theorem close_under (o : Options) (selector suffix : String) (f : Fragment) :
    (f.under selector).close o (selector ++ suffix) = nodesUnder selector (f.close o suffix) := by
  have same : (f.under selector).hasRule o = f.hasRule o := rfl
  rw [close, close, same]
  split
  · rw [nodesUnder_cons, Node.under]
    rfl
  · rfl

end Fragment

mutual

/-- A part that stands under the end of a selector goes under the rest of it. -/
theorem fragment_append (o : Options) (selector suffix : String) (part : StylePart) :
    part.fragment o (selector ++ suffix) = (part.fragment o suffix).under selector := by
  match part with
  | .run key declarations =>
    simp [StylePart.fragment, Fragment.ofDeclarations, Fragment.under]
  | .nested longer parts =>
    simp only [StylePart.fragment, Fragment.ofNodes, Fragment.under]
    rw [String.append_assoc, fragmentOfParts_append o selector (suffix ++ longer) parts,
      Fragment.close_under]
  | .media query parts =>
    simp only [StylePart.fragment, Fragment.ofNodes, Fragment.under, nodesUnder_cons,
      nodesUnder_nil, Node.under]
    rw [fragmentOfParts_append o selector suffix parts, Fragment.close_under]

/-- What parts contribute under a longer selector has the longer one in front. -/
theorem fragmentOfParts_append (o : Options) (selector suffix : String)
    (parts : List StylePart) :
    fragmentOfParts o (selector ++ suffix) parts =
      (fragmentOfParts o suffix parts).under selector := by
  match parts with
  | [] => rw [fragmentOfParts_nil, fragmentOfParts_nil, Fragment.under_empty]
  | part :: rest =>
    rw [fragmentOfParts_cons, fragmentOfParts_cons, fragment_append o selector suffix part,
      fragmentOfParts_append o selector suffix rest, Fragment.under_append]

end

/-- Parts make the nodes that they make under the empty selector, put under the selector. -/
theorem nodesOfParts_eq_nodesUnder (o : Options) (selector : String) (parts : List StylePart) :
    nodesOfParts o selector parts = nodesUnder selector (nodesOfParts o "" parts) := by
  have fragments := fragmentOfParts_append o selector "" parts
  have closed := Fragment.close_under o selector "" (fragmentOfParts o "" parts)
  rw [String.append_empty] at fragments closed
  rw [nodesOfParts, nodesOfParts, fragments, closed]

/-! ## Pieces -/

/-- Pieces with a text put before the first of them, or as the only one. -/
def textBefore (text : String) : List String → List String
  | [] => [text]
  | piece :: pieces => (text ++ piece) :: pieces

/-- A text before pieces is a text before what they are joined to. -/
theorem intercalate_textBefore (selector text : String) (pieces : List String) :
    selector.intercalate (textBefore text pieces) = text ++ selector.intercalate pieces := by
  cases pieces with
  | nil => simp [textBefore]
  | cons piece pieces => rw [textBefore, String.intercalate_cons_append]

/-- There is always a first piece to put text before. -/
theorem textBefore_ne_nil (text : String) (pieces : List String) : textBefore text pieces ≠ [] := by
  cases pieces <;> simp [textBefore]

mutual

/-- The pieces of the text of a node at a level, where a selector is still to be put before that of
each rule, and the pieces of what follows. -/
def Node.pieces (level : Nat) (later : List String) : Node → List String
  | .rule suffix declarations =>
    -- the selector goes between the indentation and the rest of its head
    ("\n" ++ indent level) ::
      textBefore (suffix ++ " \x7b\n" ++ layoutDeclarations level declarations
        ++ closingLine level) later
  | .media query body =>
    textBefore ("\n" ++ headerLine level query)
      (piecesOfNodes (level + 1)
        (textBefore (indent level ++ "\n" ++ closingLine level) later) body)

/-- The pieces of the text of nodes at a level, and those of what follows. -/
def piecesOfNodes (level : Nat) (later : List String) : List Node → List String
  | [] => later
  | node :: rest => node.pieces level (piecesOfNodes level later rest)

end

@[simp] theorem piecesOfNodes_nil (level : Nat) (later : List String) :
    piecesOfNodes level later [] = later := by
  rw [piecesOfNodes]

/-- The pieces of the first node come first. -/
theorem piecesOfNodes_cons (level : Nat) (later : List String) (node : Node) (rest : List Node) :
    piecesOfNodes level later (node :: rest) =
      node.pieces level (piecesOfNodes level later rest) := by
  rw [piecesOfNodes]

mutual

/-- The selector joins the pieces of a node to its layout under that selector. -/
theorem intercalate_pieces (selector : String) (level : Nat) (later : List String) (node : Node) :
    selector.intercalate (node.pieces level later) =
      (node.under selector).layout level ++ selector.intercalate later := by
  match node with
  | .rule suffix declarations =>
    rw [Node.pieces, String.intercalate_cons_of_ne_nil (textBefore_ne_nil _ _),
      intercalate_textBefore, Node.under, Node.layout, headerLine]
    simp only [String.append_assoc]
  | .media query body =>
    rw [Node.pieces, intercalate_textBefore, intercalate_piecesOfNodes selector _ _ body,
      intercalate_textBefore, Node.under, Node.layout]
    simp only [String.append_assoc]

/-- Joined by a selector, the pieces are the text of the nodes under it. -/
theorem intercalate_piecesOfNodes (selector : String) (level : Nat) (later : List String)
    (nodes : List Node) :
    selector.intercalate (piecesOfNodes level later nodes) =
      layoutNodes level (nodesUnder selector nodes) ++ selector.intercalate later := by
  match nodes with
  | [] => rw [piecesOfNodes_nil, nodesUnder_nil, layoutNodes_nil, String.empty_append]
  | node :: rest =>
    rw [piecesOfNodes_cons, intercalate_pieces selector level _ node,
      intercalate_piecesOfNodes selector level later rest, nodesUnder_cons, layoutNodes_cons,
      String.append_assoc]

end

/-- A style map is compiled alike under every selector that is not a media query: either its text is
the same list of pieces, joined by the selector, or it fails with the same error. The selectors of
classes are among these selectors, whatever name a class has. -/
theorem compile_joins_pieces (o : Options) (level : Nat) (styles : StyleMap) :
    (∃ pieces : List String,
      (∀ selector, isMediaQuery selector = false →
        compile o level selector styles = .ok (selector.intercalate pieces)) ∧
      ∀ name, compile o level (classSelector name) styles =
        .ok ((classSelector name).intercalate pieces)) ∨
    ∃ e, (∀ selector, isMediaQuery selector = false →
        compile o level selector styles = .error e) ∧
      ∀ name, compile o level (classSelector name) styles = .error e := by
  -- the parts do not depend on the selector; they are made under the empty one
  cases made : partsOf o styles with
  | error e =>
    have failed : ∀ selector, isMediaQuery selector = false →
        compile o level selector styles = .error e := by
      intro selector proper
      rw [compile_eq_map_parts proper, made]
      rfl
    exact .inr ⟨e, failed, fun name => failed _ (isMediaQuery_classSelector name)⟩
  | ok parts =>
    have joined : ∀ selector, isMediaQuery selector = false →
        compile o level selector styles =
          .ok (selector.intercalate
            (piecesOfNodes level [] (nodesOfParts o "" (prefixedParts o parts)))) := by
      intro selector proper
      have text := intercalate_piecesOfNodes selector level []
        (nodesOfParts o "" (prefixedParts o parts))
      rw [← nodesOfParts_eq_nodesUnder, String.intercalate_nil, String.append_empty] at text
      rw [compile_eq_map_parts proper, made, text]
      rfl
    exact .inl ⟨_, joined, fun name => joined _ (isMediaQuery_classSelector name)⟩

/-- A class with a hyphen in its name and a tag have a rule of their own, one in a media query, and
one of a nested selector there. -/
theorem compile_joins_pieces_panel :
    let styles : StyleMap :=
      [("color", .text "red"),
        ("@media print", .map [("margin", .text "0"), ("hover", .map [("color", .text "blue")])])]
    isMediaQuery ".side-panel" = false ∧ isMediaQuery "nav > a" = false ∧
      ∃ pieces : List String,
        compile {} 1 ".side-panel" styles = .ok (".side-panel".intercalate pieces) ∧
        compile {} 1 "nav > a" styles = .ok ("nav > a".intercalate pieces) := by
  intro styles
  have panel : isMediaQuery ".side-panel" = false := by decide
  have link : isMediaQuery "nav > a" = false := by decide
  refine ⟨panel, link, ?_⟩
  rcases compile_joins_pieces {} 1 styles with ⟨pieces, joined, -⟩ | ⟨e, failed, -⟩
  · exact ⟨pieces, joined _ panel, joined _ link⟩
  · have written : ∃ css, compile {} 1 ".side-panel" styles = .ok css := ⟨_, rfl⟩
    obtain ⟨css, written⟩ := written
    rw [failed _ panel] at written
    cases written

end StyleTree
