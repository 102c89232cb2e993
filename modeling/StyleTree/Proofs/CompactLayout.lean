import StyleTree.Proofs.LayoutReader
import StyleTree.Proofs.MinifiedLines

/-! # Compact layout

Minifying the text of a style map prints its rule tree with nothing between the parts. Selectors,
media queries, properties and values come out as they are, if no blank stands where minifying trims:
at the ends of the head of a block, before a property, and behind a colon in one.

* **`compactNodes`** prints a rule tree in compact form.
* **`minifyLines_nodes`** minifies the lines of a rule tree, with what follows them.
* **`minify_compile`** is the result for the text of a style map, at every level. -/

namespace StyleTree

/-! ## Printing in compact form -/

/-- A declaration in compact form. -/
def Declaration.compact (d : Declaration) : String := d.property ++ ":" ++ d.value ++ ";"

/-- Declarations in compact form. -/
def compactDeclarations : List Declaration → String
  | [] => ""
  | d :: rest => d.compact ++ compactDeclarations rest

mutual

/-- A node in compact form. -/
def Node.compact : Node → String
  | .rule selector declarations =>
    selector ++ "\x7b" ++ compactDeclarations declarations ++ "\x7d"
  | .media query body => query ++ "\x7b" ++ compactNodes body ++ "\x7d"

/-- Nodes in compact form. -/
def compactNodes : List Node → String
  | [] => ""
  | node :: rest => node.compact ++ compactNodes rest

end

@[simp] theorem compactNodes_nil : compactNodes [] = "" := by
  rw [compactNodes]

/-- Nodes in compact form follow each other with nothing between them. -/
theorem compactNodes_cons (node : Node) (rest : List Node) :
    compactNodes (node :: rest) = node.compact ++ compactNodes rest := by
  rw [compactNodes]

/-! ## Strings without blanks at their ends -/

/-- A string does not start with a blank. -/
def NoBlankFront (s : String) : Prop := s.toList.head?.any isBlank = false

/-- A string neither starts nor ends with a blank. -/
def NoBlankEnds (s : String) : Prop :=
  NoBlankFront s ∧ s.toList.getLast?.any isBlank = false

instance : DecidablePred NoBlankFront := fun s =>
  inferInstanceAs (Decidable (s.toList.head?.any isBlank = false))

instance : DecidablePred NoBlankEnds := fun s =>
  inferInstanceAs (Decidable (NoBlankFront s ∧ s.toList.getLast?.any isBlank = false))

/-- Where there is no blank in front, trimming takes nothing away there. -/
theorem trimStart_eq_self {cs : List Char} (h : cs.head?.any isBlank = false) :
    trimStart cs = cs := by
  cases cs with
  | nil => rfl
  | cons c cs =>
    have visible : isBlank c = false := by simpa using h
    rw [trimStart_cons, if_neg (by simp [visible])]

/-- Where there is no blank at the end, trimming takes nothing away there. -/
theorem trimEnd_eq_self {cs : List Char} (h : cs.getLast?.any isBlank = false) :
    trimEnd cs = cs := by
  rcases List.eq_nil_or_concat cs with rfl | ⟨front, c, rfl⟩
  · rfl
  · have visible : isBlank c = false := by simpa using h
    rw [List.concat_eq_append, trimEnd_append_singleton, if_neg (by simp [visible])]

/-- Nothing is trimmed where no blank is. -/
theorem NoBlankEnds.trim_eq {s : String} (h : NoBlankEnds s) : trim s.toList = s.toList := by
  rw [trim, trimStart_eq_self h.1, trimEnd_eq_self h.2]

/-- No blank comes to the front by something behind. -/
theorem head?_append_any_isBlank {cs ds : List Char} (hcs : cs.head?.any isBlank = false)
    (hds : ds.head?.any isBlank = false) : (cs ++ ds).head?.any isBlank = false := by
  cases cs with
  | nil => exact hds
  | cons c cs => exact hcs

/-- What neither starts nor ends with a blank can be put together behind a string that does not
start with one. -/
theorem noBlankEnds_append {s t : String} (hs : NoBlankFront s) (ht : NoBlankEnds t)
    (visible : t ≠ "") : NoBlankEnds (s ++ t) := by
  have hne : t.toList ≠ [] := by simpa using visible
  refine ⟨?_, ?_⟩
  · rw [NoBlankFront, String.toList_append]
    exact head?_append_any_isBlank hs ht.1
  · rw [String.toList_append, List.getLast?_append_of_ne_nil _ hne]
    exact ht.2

/-- A nested selector brings no blanks to the ends, for its name is letters and hyphens. -/
theorem noBlankEnds_nestedSelector {o : Options} {selector key separator : String}
    (role : o.role key = .selector separator) (h : NoBlankFront selector) :
    NoBlankEnds (selector ++ separator ++ spinalCase key) := by
  have listed : key ∈ nestedSelectors := by
    have isSome := isSome_selectorSeparator? key
    rw [selectorSeparator?_of_role role] at isSome
    simpa using isSome.symm
  have names : ∀ name ∈ nestedSelectors,
      NoBlankEnds (":" ++ spinalCase name) ∧ NoBlankEnds ("::" ++ spinalCase name) := by
    decide +kernel
  rw [String.append_assoc]
  rcases selectorSeparator?_cases (selectorSeparator?_of_role role) with rfl | rfl
  · exact noBlankEnds_append h (names key listed).1 (by simp)
  · exact noBlankEnds_append h (names key listed).2 (by simp)

/-- Nested selectors have no blanks at their ends if the selector around them has none. -/
theorem noBlankEnds_of_contributes {o : Options} {selector : String}
    {entries : List (String × StyleValue)} {f : Fragment} (h : Contributes o selector entries f)
    (hselector : NoBlankEnds selector) :
    AllNodes NoBlankEnds (fun _ => True) (fun _ => True) f.nested := by
  induction h with
  | nil selector => simp [Fragment.empty]
  | property hyphen role declared later ih => exact ih hselector
  | selector hyphen role proper inner later ihInner ihLater =>
    have longer := noBlankEnds_nestedSelector role hselector.1
    exact allNodes_append.2
      ⟨allNodes_close longer (fun _ _ => trivial) (ihInner longer), ihLater hselector⟩
  | mediaQuery hyphen role proper inner later ihInner ihLater =>
    refine allNodes_append.2 ⟨?_, ihLater hselector⟩
    simp only [Fragment.ofNodes, allNodes_cons, allNodes_nil, all_media, and_true, true_and]
    exact allNodes_close hselector (fun _ _ => trivial) (ihInner hselector)

/-- All selectors in a rule tree have no blanks at their ends if the one it is made for has none. -/
theorem noBlankEnds_of_ruleTree {o : Options} {selector : String} {styles : StyleMap}
    {nodes : List Node} (hselector : NoBlankEnds selector)
    (h : ruleTree o selector styles = .ok nodes) :
    AllNodes NoBlankEnds (fun _ => True) (fun _ => True) nodes := by
  obtain ⟨-, f, contributes, rfl⟩ := contributes_of_ruleTree h
  exact allNodes_close hselector (fun _ _ => trivial)
    (noBlankEnds_of_contributes contributes hselector)

/-! ## Minifying lines of nodes -/

/-- Only the blank behind the property goes. -/
theorem compactDeclaration_colon {name : List Char} (h : ¬ [':', ' '] <:+: name)
    (value : List Char) :
    compactDeclaration (name ++ ':' :: ' ' :: value) = name ++ ':' :: value := by
  induction name with
  | nil => rfl
  | cons c name ih =>
    have later : ¬ [':', ' '] <:+: name :=
      fun hname => h (hname.trans (List.suffix_cons c name).isInfix)
    rw [List.cons_append, compactDeclaration, ih later, List.cons_append]
    -- a colon in the name is followed by no blank
    rintro rest rfl split
    cases name with
    | nil => simp at split
    | cons d name =>
      obtain rfl : d = ' ' := (List.cons.inj split).1
      exact h ⟨[], name, rfl⟩

/-- A declaration **stays apart** from its value when it is minified: no blank is trimmed at its
front, and its first colon with a blank behind it is the one behind the property. -/
def Declaration.StaysApart (d : Declaration) : Prop := NoBlankFront d.property ∧ d.Splits

instance : DecidablePred Declaration.StaysApart := fun d =>
  inferInstanceAs (Decidable (NoBlankFront d.property ∧ d.Splits))

/-- The line of a declaration becomes its compact form. -/
theorem minifyLines_line {d : Declaration} (h : d.StaysApart) (level : Nat)
    (later : List (List Char)) :
    minifyLines none (d.line level :: later) = d.compact.toList ++ minifyLines none later := by
  have front : trimStart (d.property.toList ++ ':' :: ' ' :: d.value.toList) =
      d.property.toList ++ ':' :: ' ' :: d.value.toList :=
    trimStart_eq_self (head?_append_any_isBlank h.1 rfl)
  rw [minifyLines, LineKind.ofLine_line, front]
  simp only [List.append_assoc, List.cons_append]
  rw [compactDeclaration_colon h.2]
  simp [Declaration.compact]

/-- The lines of declarations become their compact forms, one behind the other. -/
theorem minifyLines_declarations {declarations : List Declaration}
    (h : ∀ d ∈ declarations, d.StaysApart) (level : Nat) (later : List (List Char)) :
    minifyLines none (declarations.map (Declaration.line level) ++ later) =
      (compactDeclarations declarations).toList ++ minifyLines none later := by
  induction declarations with
  | nil => simp [compactDeclarations]
  | cons d rest ih =>
    obtain ⟨first, others⟩ := List.forall_mem_cons.1 h
    rw [List.map_cons, List.cons_append, minifyLines_line first, ih others, compactDeclarations,
      String.toList_append, List.append_assoc]

/-- The line that opens a block becomes its head and a brace. -/
theorem minifyLines_openingLine {head : String} (h : NoBlankEnds head) (level : Nat)
    (later : List (List Char)) :
    minifyLines none (openingLine level head :: later) =
      head.toList ++ '\x7b' :: minifyLines none later := by
  rw [minifyLines, LineKind.ofLine_openingLine, h.trim_eq]

/-- The line that ends a block becomes a brace. -/
theorem minifyLines_endLine (level : Nat) (later : List (List Char)) :
    minifyLines none (endLine level :: later) = '\x7d' :: minifyLines none later := by
  rw [minifyLines, LineKind.ofLine_endLine]

/-- A line of blanks becomes nothing. -/
theorem minifyLines_blank {line : List Char} (h : ∀ c ∈ line, isBlank c)
    (later : List (List Char)) : minifyLines none (line :: later) = minifyLines none later := by
  rw [minifyLines, LineKind.ofLine_blanks h]

mutual

/-- The lines of a node become its compact form, and no declaration is left open behind them. -/
theorem minifyLines_node (level : Nat) {node : Node}
    (selectors : node.All NoBlankEnds (fun _ => True) (fun _ => True))
    (others : node.All (fun _ => True) NoBlankEnds Declaration.StaysApart)
    (later : List (List Char)) :
    minifyLines none (node.lines level ++ later) =
      node.compact.toList ++ minifyLines none later := by
  have blank (lines : List (List Char)) : minifyLines none ([] :: lines) = minifyLines none lines :=
    minifyLines_blank (by simp) lines
  match node with
  | .rule selector declarations =>
    rw [all_rule] at selectors others
    simp only [Node.lines, List.cons_append, List.append_assoc, List.nil_append, blank,
      minifyLines_openingLine selectors.1, minifyLines_declarations others.2, minifyLines_endLine]
    simp [Node.compact]
  | .media query body =>
    rw [all_media] at selectors others
    simp only [Node.lines, List.cons_append, List.append_assoc, List.nil_append, blank,
      minifyLines_openingLine others.1, minifyLines_nodes (level + 1) selectors.2 others.2,
      minifyLines_blank isBlank_of_mem_indentation, minifyLines_endLine]
    simp [Node.compact]

/-- Minifying the lines of nodes prints the nodes in compact form. -/
theorem minifyLines_nodes (level : Nat) {nodes : List Node}
    (selectors : AllNodes NoBlankEnds (fun _ => True) (fun _ => True) nodes)
    (others : AllNodes (fun _ => True) NoBlankEnds Declaration.StaysApart nodes)
    (later : List (List Char)) :
    minifyLines none (linesOfNodes level nodes ++ later) =
      (compactNodes nodes).toList ++ minifyLines none later := by
  match nodes with
  | [] => simp
  | node :: rest =>
    rw [allNodes_cons] at selectors others
    rw [linesOfNodes_cons, List.append_assoc, minifyLines_node level selectors.1 others.1,
      minifyLines_nodes level selectors.2 others.2, compactNodes_cons, String.toList_append,
      List.append_assoc]

end

/-! ## Minifying a layout -/

/-- The minified layout of a rule tree is its compact form, whatever the level. -/
theorem minify_layoutNodes (level : Nat) {nodes : List Node}
    (feed : AllNodes NoLineFeed NoLineFeed Declaration.NoLineFeed nodes)
    (selectors : AllNodes NoBlankEnds (fun _ => True) (fun _ => True) nodes)
    (others : AllNodes (fun _ => True) NoBlankEnds Declaration.StaysApart nodes) :
    minify (layoutNodes level nodes) = compactNodes nodes := by
  have minified := minifyLines_nodes level selectors others []
  rw [List.append_nil, minifyLines, List.append_nil] at minified
  rw [minify, lines_layoutNodes level feed, minified, String.ofList_toList]

/-- Minifying the text of a style map prints its rule tree in compact form, with each selector, each
media query and each declaration as it is. The level of the text makes no difference. -/
theorem minify_compile {o : Options} {level : Nat} {selector css : String} {styles : StyleMap}
    (ho : o.NoLineFeed) (hfeed : NoLineFeed selector)
    (hstyles : ∀ s ∈ (StyleValue.map styles).strings, NoLineFeed s)
    (hselector : NoBlankEnds selector)
    (htree : ∀ nodes, ruleTree o selector styles = .ok nodes →
      AllNodes (fun _ => True) NoBlankEnds Declaration.StaysApart nodes)
    (h : compile o level selector styles = .ok css) :
    ∃ nodes, ruleTree o selector styles = .ok nodes ∧ minify css = compactNodes nodes ∧
      ∀ level', (compile o level' selector styles).map minify = .ok (minify css) := by
  rw [compile, Result.map_eq_ok] at h
  obtain ⟨nodes, tree, rfl⟩ := h
  have minified (level : Nat) : minify (layoutNodes level nodes) = compactNodes nodes :=
    minify_layoutNodes level (noLineFeed_of_ruleTree ho hfeed hstyles tree)
      (noBlankEnds_of_ruleTree hselector tree) (htree nodes tree)
  refine ⟨nodes, tree, minified level, ?_⟩
  intro level'
  rw [compile, tree]
  show Except.ok (minify (layoutNodes level' nodes)) = .ok (minify (layoutNodes level nodes))
  rw [minified level', minified level]

/-- A value with braces, a colon and a semicolon, and a value with a blank inside a media query. -/
theorem minify_compile_card :
    ∃ nodes,
      ruleTree {} ".card"
        [("content", .text "\x7b a: b; \x7d"), ("@media print",
          .map [("hover", .map [("margin", .map [("top", .text "0 auto")])])])] = .ok nodes ∧
      minify
        ("\n  .card \x7b\n    content: \x7b a: b; \x7d;\n  \x7d\n" ++
          "\n  @media print \x7b\n" ++
          "\n    .card:hover \x7b\n      margin-top: 0 auto;\n    \x7d\n" ++
          "  \n  \x7d\n") =
        compactNodes nodes ∧
      ∀ level',
        (compile {} level' ".card"
          [("content", .text "\x7b a: b; \x7d"), ("@media print",
            .map [("hover", .map [("margin", .map [("top", .text "0 auto")])])])]).map minify =
        .ok (minify
          ("\n  .card \x7b\n    content: \x7b a: b; \x7d;\n  \x7d\n" ++
            "\n  @media print \x7b\n" ++
            "\n    .card:hover \x7b\n      margin-top: 0 auto;\n    \x7d\n" ++
            "  \n  \x7d\n")) := by
  refine @minify_compile {} 1 _ _ _ (by decide) (by decide) (by decide) (by decide) ?_
    (by decide +kernel)
  intro nodes h
  obtain rfl : nodes = [.rule ".card" [⟨"content", "\x7b a: b; \x7d"⟩],
      .media "@media print" [.rule ".card:hover" [⟨"margin-top", "0 auto"⟩]]] :=
    Except.ok.inj (h.symm.trans rfl)
  simp only [allNodes_cons, all_rule, all_media, allNodes_nil, List.forall_mem_singleton,
    and_true, true_and]
  decide +kernel

end StyleTree
