import Mathlib.Data.List.Basic
import StyleTree.Proofs.LayoutLines

/-! # Reading a rule tree back from its layout

A reader of style sheets that knows the layout and nothing else. It goes through a text line by
line: a line that ends in an opening brace opens a block, which is a media query if its head is one,
a line that ends in a semicolon is a declaration and is split at its first colon with a blank behind
it, and every line of a block has two blanks more than the block.

* **`Reading`** is what is read so far: the open blocks, and the nodes and declarations before the
  line. **`Reading.step`** reads one more line.
* **`readLayout?`** reads a text, in which every block has to be closed.
* **`readLayout_compile`** reads the rule tree of a style map from its text. -/

namespace StyleTree

/-! ## The parts of a line -/

/-- The text between a front and a back. -/
def between? (front back line : List Char) : Option (List Char) :=
  (line.dropPrefix? front).bind (·.dropSuffix? back)

/-- The head of the block that a line at a level opens. -/
def readOpening? (level : Nat) (line : List Char) : Option String :=
  (between? (indentation level) [' ', '\x7b'] line).map String.ofList

/-- The declaration on a line of a rule at a level. -/
def readDeclaration? (level : Nat) (line : List Char) : Option Declaration := do
  let text ← between? (indentation (level + 1)) [';'] line
  let (property, value) ← text.dropInfix? [':', ' ']
  pure ⟨String.ofList property, String.ofList value⟩

/-- What stands between a front and a back is read as such. -/
theorem between?_append (front inner back : List Char) :
    between? front back (front ++ (inner ++ back)) = some inner := by
  have front_eq : (front ++ (inner ++ back)).dropPrefix? front = some (inner ++ back) :=
    List.dropPrefix?_append_of_beq _ (by simp)
  have back_eq : (inner ++ back).dropSuffix? back = some inner := by
    rw [List.dropSuffix?_eq_some_iff]
    exact ⟨back, rfl, by simp⟩
  rw [between?, front_eq, Option.bind_some, back_eq]

/-- The line that opens a block gives its head back. -/
theorem readOpening?_openingLine (level : Nat) (head : String) :
    readOpening? level (openingLine level head) = some head := by
  rw [readOpening?, openingLine, between?_append]
  simp

/-- The line that ends a block opens none. -/
theorem readOpening?_endLine (level level' : Nat) : readOpening? level (endLine level') = none := by
  rw [readOpening?, Option.map_eq_none_iff, Option.eq_none_iff_forall_ne_some]
  intro head h
  rw [between?, Option.bind_eq_some_iff] at h
  obtain ⟨text, front_eq, back_eq⟩ := h
  obtain ⟨front, line_eq, -⟩ := List.dropPrefix?_eq_some_iff.1 front_eq
  obtain ⟨back, text_eq, hback⟩ := List.dropSuffix?_eq_some_iff.1 back_eq
  obtain rfl : back = [' ', '\x7b'] := by simpa using hback
  -- the line would end in both braces
  have last : (endLine level').getLast? = some '\x7b' := by
    rw [line_eq, text_eq]
    simp
  simp [getLast?_endLine] at last

/-- Whether the first colon with a blank behind it, in the line of a declaration, is the one behind
the property. -/
def Declaration.Splits (d : Declaration) : Prop := ¬ [':', ' '] <:+: d.property.toList

instance : DecidablePred Declaration.Splits := fun d =>
  inferInstanceAs (Decidable (¬ [':', ' '] <:+: d.property.toList))

/-- A text is split at its first colon with a blank behind it. -/
theorem dropInfix?_colon {name : List Char} (h : ¬ [':', ' '] <:+: name) (value : List Char) :
    (name ++ ':' :: ' ' :: value).dropInfix? [':', ' '] = some (name, value) := by
  rw [List.dropInfix?_eq_some_iff]
  refine ⟨⟨[':', ' '], by simp, by simp⟩, ?_⟩
  intro earlier mark rest split hmark
  obtain rfl : mark = [':', ' '] := by simpa using hmark
  -- an earlier split lies inside the name, or its blank is the colon behind the name
  by_contra shorter
  rw [List.append_assoc, List.append_eq_append_iff] at split
  rcases split with ⟨between, rfl, -⟩ | ⟨between, rfl, rest_eq⟩
  · exact shorter (by simp)
  · match between, rest_eq with
    | [], _ => simp at shorter
    | [c], rest_eq => simp at rest_eq
    | c :: d :: between, rest_eq =>
      simp only [List.cons_append, List.nil_append, List.cons.injEq] at rest_eq
      obtain ⟨rfl, rfl, -⟩ := rest_eq
      exact h ⟨earlier, between, by simp⟩

/-- The line of a declaration gives it back, whatever else its value holds. -/
theorem readDeclaration?_line {d : Declaration} (h : d.Splits) (level : Nat) :
    readDeclaration? level (d.line level) = some d := by
  rw [readDeclaration?, line_eq_concat, List.append_assoc, between?_append]
  simp [dropInfix?_colon h]

/-! ## Reading line by line -/

/-- What is read so far. -/
structure Reading where
  /-- The nodes before the line in the innermost media query. -/
  nodes : List Node
  /-- The open media queries, the innermost first, each with the nodes before it. -/
  media : List (String × List Node)
  /-- The open rule and its declarations before the line. -/
  rule : Option (String × List Declaration)
deriving Repr

namespace Reading

/-- Reads a line of a rule at a level. -/
def ruleStep (level : Nat) (nodes : List Node) (media : List (String × List Node))
    (selector : String) (declarations : List Declaration) (line : List Char) : Option Reading :=
  if line = endLine level then some ⟨nodes ++ [.rule selector declarations], media, none⟩
  else
    (readDeclaration? level line).map fun d =>
      ⟨nodes, media, some (selector, declarations ++ [d])⟩

/-- Reads the line that closes the innermost media query, inside a text at a level. -/
def closeStep (level : Nat) (nodes : List Node) :
    List (String × List Node) → List Char → Option Reading
  | [], _ => none
  | (query, before) :: media, line =>
    if line = endLine (level + media.length) then
      some ⟨before ++ [.media query nodes], media, none⟩
    else none

/-- Reads a line outside of rules, inside a text at a level. -/
def nodeStep (level : Nat) (nodes : List Node) (media : List (String × List Node))
    (line : List Char) : Option Reading :=
  if line.all (· = ' ') then some ⟨nodes, media, none⟩
  else
    match readOpening? (level + media.length) line with
    | some head =>
      if isMediaQuery head then some ⟨[], (head, nodes) :: media, none⟩
      else some ⟨nodes, media, some (head, [])⟩
    | none => closeStep level nodes media line

/-- Reads one more line of a text at a level. -/
def step (level : Nat) : Reading → List Char → Option Reading
  | ⟨nodes, media, some (selector, declarations)⟩, line =>
    ruleStep (level + media.length) nodes media selector declarations line
  | ⟨nodes, media, none⟩, line => nodeStep level nodes media line

/-- The nodes of a text that has been read to its end. -/
def finish? : Reading → Option (List Node)
  | ⟨nodes, [], none⟩ => some nodes
  | _ => none

end Reading

/-- The nodes that a text at a level is the layout of. -/
def readLayout? (level : Nat) (css : String) : Option (List Node) :=
  ((lines css.toList).foldlM (Reading.step level) ⟨[], [], none⟩).bind Reading.finish?

namespace Reading

variable (level : Nat) (nodes : List Node) (media : List (String × List Node))

/-- A line of blanks between blocks is read over. -/
theorem step_blank (n : Nat) :
    step level ⟨nodes, media, none⟩ (List.replicate n ' ') = some ⟨nodes, media, none⟩ := by
  simp [step, nodeStep]

/-- An opening line begins a media node if its head is a media query, and else a rule. -/
theorem step_openingLine (head : String) :
    step level ⟨nodes, media, none⟩ (openingLine (level + media.length) head) =
      if isMediaQuery head then some ⟨[], (head, nodes) :: media, none⟩
      else some ⟨nodes, media, some (head, [])⟩ := by
  have visible : (openingLine (level + media.length) head).all (· = ' ') = false := by
    simp [openingLine]
  simp [step, nodeStep, visible, readOpening?_openingLine]

/-- Outside a rule, the line that ends a block completes the innermost media node. -/
theorem step_endLine_media (query : String) (before : List Node) :
    step level ⟨nodes, (query, before) :: media, none⟩ (endLine (level + media.length)) =
      some ⟨before ++ [.media query nodes], media, none⟩ := by
  have visible : (endLine (level + media.length)).all (· = ' ') = false := by
    simp [endLine]
  simp [step, nodeStep, visible, readOpening?_endLine, closeStep]

/-- Inside a rule, the line of a declaration adds the declaration. -/
theorem step_line (selector : String) (declarations : List Declaration) {d : Declaration}
    (h : d.Splits) :
    step level ⟨nodes, media, some (selector, declarations)⟩ (d.line (level + media.length)) =
      some ⟨nodes, media, some (selector, declarations ++ [d])⟩ := by
  -- declarations end in a semicolon, so none is taken for the end of its rule
  have unended : d.line (level + media.length) ≠ endLine (level + media.length) := by
    intro line_eq
    have last := getLast?_line (level + media.length) d
    simp [line_eq, getLast?_endLine] at last
  simp [step, ruleStep, unended, readDeclaration?_line h]

/-- Inside a rule, the line that ends a block completes the rule. -/
theorem step_endLine_rule (selector : String) (declarations : List Declaration) :
    step level ⟨nodes, media, some (selector, declarations)⟩ (endLine (level + media.length)) =
      some ⟨nodes ++ [.rule selector declarations], media, none⟩ := by
  simp [step, ruleStep]

/-- Reading the lines of declarations adds the declarations to the open rule. -/
theorem foldlM_declarations (selector : String) {declarations : List Declaration}
    (h : ∀ d ∈ declarations, d.Splits) (before : List Declaration) (later : List (List Char)) :
    (declarations.map (Declaration.line (level + media.length)) ++ later).foldlM (step level)
        ⟨nodes, media, some (selector, before)⟩ =
      later.foldlM (step level) ⟨nodes, media, some (selector, before ++ declarations)⟩ := by
  -- induction on the declarations: each one moves on to those before
  induction declarations generalizing before with
  | nil => simp
  | cons d rest ih =>
    obtain ⟨first, others⟩ := List.forall_mem_cons.1 h
    rw [List.map_cons, List.cons_append, List.foldlM_cons, step_line _ _ _ _ _ first,
      Option.bind_eq_bind, Option.bind_some, ih others, List.append_assoc, List.singleton_append]

mutual

/-- Reading the lines of a node adds the node to those read before it, inside whatever media nodes
are open. -/
theorem foldlM_node {node : Node}
    (proper : node.All (isMediaQuery · = false) (isMediaQuery · = true) (fun _ => True))
    (splits : node.All (fun _ => True) (fun _ => True) Declaration.Splits)
    (before : List Node) (media : List (String × List Node)) (later : List (List Char)) :
    (node.lines (level + media.length) ++ later).foldlM (step level) ⟨before, media, none⟩ =
      later.foldlM (step level) ⟨before ++ [node], media, none⟩ := by
  have blank : step level ⟨before, media, none⟩ [] = some ⟨before, media, none⟩ :=
    step_blank level before media 0
  match node with
  | .rule selector declarations =>
    rw [all_rule] at proper splits
    have opening := step_openingLine level before media selector
    rw [if_neg (by simp [proper.1])] at opening
    simp only [Node.lines, List.cons_append, List.append_assoc, List.foldlM_cons, blank, opening,
      Option.bind_eq_bind, Option.bind_some, foldlM_declarations _ _ _ _ splits.2, List.nil_append,
      step_endLine_rule]
  | .media query body =>
    rw [all_media] at proper splits
    have opening := step_openingLine level before media query
    rw [if_pos proper.1] at opening
    -- inside the query, its own nodes are read from none on
    have inner := foldlM_nodes proper.2 splits.2 [] ((query, before) :: media)
      (indentation (level + media.length) :: endLine (level + media.length) :: later)
    rw [List.length_cons, ← Nat.add_assoc, List.nil_append] at inner
    have padding : step level ⟨body, (query, before) :: media, none⟩
        (indentation (level + media.length)) = some ⟨body, (query, before) :: media, none⟩ :=
      step_blank ..
    simp only [Node.lines, List.cons_append, List.append_assoc, List.foldlM_cons, blank, opening,
      Option.bind_eq_bind, Option.bind_some, List.nil_append, inner, padding, step_endLine_media]

/-- Reading the lines of nodes adds the nodes to those before. -/
theorem foldlM_nodes {nodes : List Node}
    (proper : AllNodes (isMediaQuery · = false) (isMediaQuery · = true) (fun _ => True) nodes)
    (splits : AllNodes (fun _ => True) (fun _ => True) Declaration.Splits nodes)
    (before : List Node) (media : List (String × List Node)) (later : List (List Char)) :
    (linesOfNodes (level + media.length) nodes ++ later).foldlM (step level)
        ⟨before, media, none⟩ =
      later.foldlM (step level) ⟨before ++ nodes, media, none⟩ := by
  match nodes with
  | [] => simp
  | node :: rest =>
    rw [allNodes_cons] at proper splits
    rw [linesOfNodes_cons, List.append_assoc, foldlM_node proper.1 splits.1,
      foldlM_nodes proper.2 splits.2, List.append_assoc, List.singleton_append]

end

end Reading

/-! ## Reading a layout -/

/-- What is laid out is read back. -/
theorem readLayout?_layoutNodes (level : Nat) {nodes : List Node}
    (feed : AllNodes NoLineFeed NoLineFeed Declaration.NoLineFeed nodes)
    (proper : AllNodes (isMediaQuery · = false) (isMediaQuery · = true) (fun _ => True) nodes)
    (splits : AllNodes (fun _ => True) (fun _ => True) Declaration.Splits nodes) :
    readLayout? level (layoutNodes level nodes) = some nodes := by
  have read := Reading.foldlM_nodes level proper splits [] [] []
  rw [List.append_nil, List.length_nil, Nat.add_zero, List.nil_append] at read
  rw [readLayout?, lines_layoutNodes level feed, read]
  rfl

/-- The text of a style map determines its rule tree: it is read back from the text, with each
selector, each media query and each declaration as it is, if there is no line feed in what the text
is made of and each declaration splits behind its property. -/
theorem readLayout_compile {o : Options} {level : Nat} {selector css : String} {styles : StyleMap}
    (ho : o.NoLineFeed) (hselector : NoLineFeed selector)
    (hstyles : ∀ s ∈ (StyleValue.map styles).strings, NoLineFeed s)
    (hsplits : ∀ nodes, ruleTree o selector styles = .ok nodes →
      AllNodes (fun _ => True) (fun _ => True) Declaration.Splits nodes)
    (h : compile o level selector styles = .ok css) :
    ∃ nodes, ruleTree o selector styles = .ok nodes ∧ readLayout? level css = some nodes := by
  rw [compile, Result.map_eq_ok] at h
  obtain ⟨nodes, tree, rfl⟩ := h
  have feed := noLineFeed_of_ruleTree ho hselector hstyles tree
  exact ⟨nodes, tree,
    readLayout?_layoutNodes level feed (proper_of_ruleTree tree) (hsplits nodes tree)⟩

/-- A value with braces, a colon and a semicolon, a nested selector, and one in a media query. -/
theorem readLayout_compile_panel :
    ∃ nodes,
      ruleTree {} ".panel"
        [("hover", .map [("content", .text "\x7b a: b; \x7d")]), ("color", .text "red"),
          ("@media print", .map [("before", .map [("margin", .map [("top", .text "0")])])])] =
        .ok nodes ∧
      readLayout? 1
        ("\n  .panel \x7b\n    color: red;\n  \x7d\n" ++
          "\n  .panel:hover \x7b\n    content: \x7b a: b; \x7d;\n  \x7d\n" ++
          "\n  @media print \x7b\n" ++
          "\n    .panel::before \x7b\n      margin-top: 0;\n    \x7d\n" ++
          "  \n  \x7d\n") =
        some nodes := by
  refine readLayout_compile (by decide) (by decide) (by decide) ?_ (by decide +kernel)
  intro nodes h
  obtain rfl : nodes = [.rule ".panel" [⟨"color", "red"⟩],
      .rule ".panel:hover" [⟨"content", "\x7b a: b; \x7d"⟩],
      .media "@media print" [.rule ".panel::before" [⟨"margin-top", "0"⟩]]] :=
    Except.ok.inj (h.symm.trans rfl)
  simp only [allNodes_cons, all_rule, all_media, allNodes_nil, List.forall_mem_singleton,
    and_true, true_and]
  decide +kernel

end StyleTree
