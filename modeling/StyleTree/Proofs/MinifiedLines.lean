import StyleTree.Minify
import StyleTree.Proofs.LayoutLines

/-! # Minified lines

What minifying does to the lines of a style sheet. A line that ends in a brace or a semicolon is
told by its last character, whatever else is in it. Minifying looks back only behind a line that
opens a longer declaration, so **closed** lines, which do not, can be minified apart from what
follows them.

* **`LineKind.ofLine_brace`**, **`ofLine_semicolon`**, **`ofLine_endLine`** and **`ofLine_blanks`**
  are the lines of a layout.
* **`ClosedText`** is a text of closed lines, and **`minify_append`** says that it is minified apart
  from what follows. -/

namespace StyleTree

/-! ## Blanks at the ends -/

/-- What ends in a character that is not blank is trimmed at the front alone. -/
theorem trim_append_singleton (cs : List Char) {c : Char} (hc : isBlank c = false) :
    trim (cs ++ [c]) = trimStart cs ++ [c] := by
  have front : trimStart (cs ++ [c]) = trimStart cs ++ [c] := by
    rw [trimStart, trimStart, List.dropWhile_append]
    split
    · next nothing => simp [List.isEmpty_iff.1 nothing, hc]
    · rfl
  rw [trim, front, trimEnd_append_singleton, if_neg (by simp [hc])]

/-- Blanks at the front of a line are trimmed away. -/
theorem trimStart_append_of_blanks {blanks : List Char} (h : ∀ c ∈ blanks, isBlank c)
    (cs : List Char) : trimStart (blanks ++ cs) = trimStart cs :=
  List.dropWhile_append_of_pos h

/-- A blank at the end does not count. -/
theorem trim_append_blank (cs : List Char) {c : Char} (hc : isBlank c = true) :
    trim (cs ++ [c]) = trim cs := by
  rw [trim, trim, trimStart, trimStart, List.dropWhile_append]
  split
  · next nothing => simp [List.isEmpty_iff.1 nothing, hc]
  · rw [trimEnd_append_singleton, if_pos hc]

/-- A line trimmed does not tell how far it was indented. -/
theorem trim_append_of_blanks {blanks : List Char} (h : ∀ c ∈ blanks, isBlank c)
    (cs : List Char) : trim (blanks ++ cs) = trim cs := by
  rw [trim, trim, trimStart_append_of_blanks h]

/-- Spaces are blank. -/
theorem isBlank_of_mem_replicate {n : Nat} : ∀ c ∈ List.replicate n ' ', isBlank c := by
  intro c hc
  rw [List.eq_of_mem_replicate hc]
  decide

/-- Every indentation is blank. -/
theorem isBlank_of_mem_indentation {level : Nat} : ∀ c ∈ indentation level, isBlank c :=
  isBlank_of_mem_replicate

/-! ## Kinds of lines -/

namespace LineKind

/-- A line of blanks is blank. -/
theorem ofLine_blanks {cs : List Char} (h : ∀ c ∈ cs, isBlank c) : ofLine cs = .blank := by
  have trimmed : trim cs = [] := by
    have front := trimStart_append_of_blanks h []
    rw [List.append_nil, trimStart_nil] at front
    rw [trim, front, trimEnd_nil]
  simp [ofLine, trimmed]

/-- A line that ends in an opening brace opens a block. -/
theorem ofLine_brace (cs : List Char) : ofLine (cs ++ ['\x7b']) = .header (trim cs) := by
  have trimmed := trim_append_singleton cs (c := '\x7b') (by decide)
  simp only [ofLine, trimmed, List.getLast?_concat, List.dropLast_concat]
  rfl

/-- A line that ends in a semicolon is a declaration. -/
theorem ofLine_semicolon (cs : List Char) :
    ofLine (cs ++ [';']) = .declaration (trimStart cs ++ [';']) := by
  have trimmed := trim_append_singleton cs (c := ';') (by decide)
  simp only [ofLine, trimmed, List.getLast?_concat]

/-- The line that opens a block gives its head, trimmed. -/
theorem ofLine_openingLine (level : Nat) (head : String) :
    ofLine (openingLine level head) = .header (trim head.toList) := by
  have line_eq : openingLine level head =
      (indentation level ++ (head.toList ++ [' '])) ++ ['\x7b'] := by
    simp [openingLine]
  rw [line_eq, ofLine_brace, trim_append_of_blanks isBlank_of_mem_indentation,
    trim_append_blank _ (by decide)]

/-- The line of a declaration gives the declaration, trimmed at its front. -/
theorem ofLine_line (level : Nat) (d : Declaration) :
    ofLine (d.line level) =
      .declaration (trimStart (d.property.toList ++ ':' :: ' ' :: d.value.toList) ++ [';']) := by
  rw [line_eq_concat, ofLine_semicolon, trimStart_append_of_blanks isBlank_of_mem_indentation]

/-- A closing brace alone closes a block. -/
theorem ofLine_endLine (level : Nat) : ofLine (endLine level) = .closing := by
  have front := trimStart_append_of_blanks (@isBlank_of_mem_indentation level) []
  rw [List.append_nil, trimStart_nil] at front
  have trimmed := trim_append_singleton (indentation level) (c := '\x7d') (by decide)
  rw [front, List.nil_append] at trimmed
  simp [ofLine, endLine, trimmed]

end LineKind

/-! ## Closed lines -/

/-- A line is **closed** if no declaration goes on behind it. -/
def ClosedLine (line : List Char) : Prop := ∀ text, LineKind.ofLine line ≠ .opening text

/-- Closed lines are minified apart from what follows. -/
theorem minifyLines_append {ls : List (List Char)} (h : ∀ l ∈ ls, ClosedLine l)
    (later : List (List Char)) :
    minifyLines none (ls ++ later) = minifyLines none ls ++ minifyLines none later := by
  induction ls with
  | nil => rfl
  | cons l ls ih =>
    obtain ⟨closed, others⟩ := List.forall_mem_cons.1 h
    rw [List.cons_append, minifyLines, minifyLines, ih others]
    cases hl : LineKind.ofLine l with
    | blank => rfl
    | header head => simp
    | closing => simp
    | declaration text => simp
    | opening text => exact absurd hl (closed text)

/-- A text is **closed** if it consists of whole lines that are closed, each with a line feed behind
it. -/
def ClosedText (css : String) : Prop :=
  ∃ ls, css.toList = joinLines ls ∧ ∀ l ∈ ls, WholeLine l ∧ ClosedLine l

/-- The empty text has no lines, so all of them are closed. -/
theorem closedText_empty : ClosedText "" := ⟨[], rfl, by simp⟩

/-- Closed lines behind closed lines are closed. -/
theorem ClosedText.append {css later : String} (h : ClosedText css) (h' : ClosedText later) :
    ClosedText (css ++ later) := by
  obtain ⟨ls, css_eq, closed⟩ := h
  obtain ⟨ls', later_eq, closed'⟩ := h'
  refine ⟨ls ++ ls', ?_, List.forall_mem_append.2 ⟨closed, closed'⟩⟩
  rw [String.toList_append, css_eq, later_eq, joinLines_append]

/-- A closed text is minified apart from what follows. -/
theorem minify_append {css : String} (h : ClosedText css) (later : String) :
    minify (css ++ later) = minify css ++ minify later := by
  obtain ⟨ls, css_eq, closed⟩ := h
  have whole : ∀ l ∈ ls, WholeLine l := fun l hl => (closed l hl).1
  rw [minify, minify, minify, String.toList_append, css_eq, lines_joinLines_append whole,
    lines_joinLines whole, minifyLines_append (fun l hl => (closed l hl).2), String.ofList_append]

/-- A line of blanks is closed. -/
theorem closedLine_blanks (n : Nat) : ClosedLine (List.replicate n ' ') := by
  simp [ClosedLine, LineKind.ofLine_blanks isBlank_of_mem_replicate]

/-- The line that opens a block is closed, whatever its head. -/
theorem closedLine_openingLine (level : Nat) (head : String) :
    ClosedLine (openingLine level head) := by
  simp [ClosedLine, LineKind.ofLine_openingLine]

/-- The line of a declaration is closed, whatever the declaration. -/
theorem closedLine_line (level : Nat) (d : Declaration) : ClosedLine (d.line level) := by
  simp [ClosedLine, LineKind.ofLine_line]

/-- The line that ends a block is closed. -/
theorem closedLine_endLine (level : Nat) : ClosedLine (endLine level) := by
  simp [ClosedLine, LineKind.ofLine_endLine]

/-- The text of nodes without line feeds is closed, whatever colons, braces and semicolons are in
it. -/
theorem closedText_layoutNodes (level : Nat) {nodes : List Node}
    (h : AllNodes NoLineFeed NoLineFeed Declaration.NoLineFeed nodes) :
    ClosedText (layoutNodes level nodes) := by
  have closed : ∀ l ∈ linesOfNodes level nodes, ClosedLine l :=
    forall_mem_linesOfNodes closedLine_blanks (fun level s _ => closedLine_openingLine level s)
      (fun level d _ => closedLine_line level d) closedLine_endLine level nodes h
  exact ⟨linesOfNodes level nodes, toList_layoutNodes level nodes,
    fun l hl => ⟨wholeLine_of_mem_linesOfNodes level h l hl, closed l hl⟩⟩

end StyleTree
