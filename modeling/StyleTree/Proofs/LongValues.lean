import StyleTree.Proofs.CompactLayout
import StyleTree.Proofs.MinifiedCharacters

/-! # Values of several lines

A value may have line feeds of its own, and its text then spreads over several lines of the style
sheet. Minifying has to guess from the end of each line whether the value goes on, and it takes a
carriage return before a line feed for a part of the line end. So a value is kept as it is only if
the ends of its lines mislead no one.

* **`KeepsItsLines`** says that no line of a value misleads.
* **`minifyLines_spread`** minifies the lines of a declaration whose value keeps its lines.
* **`lineEnds_minifyLines_lt`** counts what is lost where a declaration seems to end early.
* **`minify_keeps_value_iff`** says that a value is kept exactly if it keeps its lines. -/

namespace StyleTree

/-! ## Lines of a value -/

/-- The lines of a value that a line feed ends: all but its last one. -/
def endedLines (value : String) : List (List Char) := (value.toList.splitOn '\n').dropLast

/-- The first line of a value **misleads** if it ends in a carriage return or if, apart from the
blanks at its end, it seems to end the declaration or to open a block. -/
def MisleadsFirst (line : List Char) : Prop :=
  line.getLast? = some '\r' ∨
    (trimEnd line).getLast? = some ';' ∨ (trimEnd line).getLast? = some '\x7b'

/-- A further line of a value **misleads** if it ends in a carriage return or seems to end the
declaration. -/
def Misleads (line : List Char) : Prop := line.getLast? = some '\r' ∨ line.getLast? = some ';'

/-- A value **keeps its lines** if none of those that a line feed ends misleads. -/
def KeepsItsLines (value : String) : Prop :=
  (∀ line ∈ (endedLines value).head?, ¬ MisleadsFirst line) ∧
    ∀ line ∈ (endedLines value).tail, ¬ Misleads line

instance : DecidablePred MisleadsFirst := fun line =>
  inferInstanceAs (Decidable (line.getLast? = some '\r' ∨
    (trimEnd line).getLast? = some ';' ∨ (trimEnd line).getLast? = some '\x7b'))

instance : DecidablePred Misleads := fun line =>
  inferInstanceAs (Decidable (line.getLast? = some '\r' ∨ line.getLast? = some ';'))

instance : DecidablePred KeepsItsLines := fun value =>
  inferInstanceAs (Decidable ((∀ line ∈ (endedLines value).head?, ¬ MisleadsFirst line) ∧
    ∀ line ∈ (endedLines value).tail, ¬ Misleads line))

/-- A text split at a character has parts without it. -/
theorem not_mem_of_mem_splitOn {c : Char} {cs line : List Char} (h : line ∈ cs.splitOn c) :
    c ∉ line := by
  induction cs generalizing line with
  | nil => simp_all
  | cons d cs ih =>
    rw [List.splitOn_cons_eq_if_modifyHead] at h
    split at h
    · rcases List.mem_cons.1 h with rfl | h
      · exact List.not_mem_nil
      · exact ih h
    · next other =>
      obtain ⟨first, others, split⟩ := List.exists_cons_of_ne_nil (List.splitOn_ne_nil c cs)
      rw [split, List.modifyHead_cons] at h
      rcases List.mem_cons.1 h with rfl | h
      · have hfirst : c ∉ first := ih (split ▸ List.mem_cons_self)
        simpa [hfirst] using Ne.symm (by simpa using other)
      · exact ih (split ▸ List.mem_cons_of_mem first h)

/-- A value is its ended lines and one more. -/
theorem exists_lines_of_value (value : String) :
    ∃ last, value.toList = glueLines (endedLines value ++ [last]) ∧
      ∀ line ∈ endedLines value ++ [last], '\n' ∉ line := by
  have split := List.splitOn_ne_nil '\n' value.toList
  refine ⟨(value.toList.splitOn '\n').getLast split, ?_, ?_⟩
  · rw [endedLines, List.dropLast_append_getLast, glueLines, List.intercalate_splitOn]
  · rw [endedLines, List.dropLast_append_getLast]
    exact fun line => not_mem_of_mem_splitOn

/-! ## Line ends -/

/-- A line without the carriage return at its end, if it has one. -/
def withoutReturn (line : List Char) : List Char :=
  if line.getLast? = some '\r' then line.dropLast else line

/-- A line that does not end in a carriage return is kept whole. -/
theorem withoutReturn_of_ne {line : List Char} (h : line.getLast? ≠ some '\r') :
    withoutReturn line = line :=
  if_neg h

/-- A carriage return before a line feed belongs to the line end. -/
theorem lines_append_carriageReturn {l : List Char} (feed : '\n' ∉ l) (rest : List Char) :
    lines (l ++ '\r' :: '\n' :: rest) = l :: lines rest := by
  induction l with
  | nil => exact lines_carriageReturn_lineFeed rest
  | cons c l ih =>
    simp only [List.mem_cons, not_or] at feed
    refine lines_cons (Ne.symm feed.1) ?_ (ih feed.2)
    intro rest' _ e
    cases l with
    | nil => simp at e
    | cons d l => exact feed.2 (by simp [(List.cons.inj e).1])

/-- Every line loses its carriage return when a text is split. -/
theorem lines_joinLines_eq_map {ls : List (List Char)} (feed : ∀ l ∈ ls, '\n' ∉ l) :
    lines (joinLines ls) = ls.map withoutReturn := by
  induction ls with
  | nil => rfl
  | cons l ls ih =>
    obtain ⟨first, others⟩ := List.forall_mem_cons.1 feed
    rw [joinLines_cons, List.map_cons, ← ih others]
    by_cases ending : l.getLast? = some '\r'
    · have l_eq := List.dropLast_append_getLast? '\r' ending
      have hfeed : '\n' ∉ l.dropLast := fun h => first (List.dropLast_subset l h)
      rw [withoutReturn, if_pos ending, ← lines_append_carriageReturn hfeed]
      nth_rewrite 1 [← l_eq]
      rw [List.append_assoc, List.singleton_append]
    · rw [lines_append_lineFeed first ending, withoutReturn_of_ne ending]

/-- How many line feeds and carriage returns are in a text. -/
def lineEnds (cs : List Char) : Nat := cs.countP fun c => c = '\n' || c = '\r'

/-- The line ends of a joined text are those of its parts. -/
@[simp] theorem lineEnds_append (cs ds : List Char) :
    lineEnds (cs ++ ds) = lineEnds cs + lineEnds ds :=
  List.countP_append

/-- A line feed is one line end more. -/
theorem lineEnds_lineFeed_cons (cs : List Char) : lineEnds ('\n' :: cs) = lineEnds cs + 1 :=
  List.countP_cons_of_pos (by decide)

/-- Without some blanks a text has no more line ends than before. -/
theorem DropsBlanks.lineEnds_le {cs ds : List Char} (h : DropsBlanks cs ds) :
    lineEnds ds ≤ lineEnds cs :=
  h.sublist.countP_le

/-- A line loses a line end with its carriage return. -/
theorem lineEnds_withoutReturn (line : List Char) :
    lineEnds (withoutReturn line) + [line].countP (fun l => l.getLast? = some '\r') =
      lineEnds line := by
  unfold withoutReturn
  split
  · next ending =>
    nth_rewrite 3 [← List.dropLast_append_getLast? '\r' ending]
    simp [ending, lineEnds]
  · next ending => simp [ending]

/-- Lines lose a line end with every carriage return. -/
theorem lineEnds_glueLines_withoutReturn (ls : List (List Char)) :
    lineEnds (glueLines (ls.map withoutReturn)) + ls.countP (fun l => l.getLast? = some '\r') =
      lineEnds (glueLines ls) := by
  induction ls with
  | nil => rfl
  | cons l ls ih =>
    have first := lineEnds_withoutReturn l
    cases ls with
    | nil => simpa using first
    | cons next ls =>
      rw [List.map_cons] at ih
      rw [← List.singleton_append, List.countP_append, List.singleton_append, List.map_cons,
        List.map_cons, glueLines_cons_cons, glueLines_cons_cons, lineEnds_append, lineEnds_append,
        lineEnds_lineFeed_cons, lineEnds_lineFeed_cons]
      omega

/-- Between two groups of glued lines there is one more line feed. -/
theorem glueLines_append {ls later : List (List Char)} (hls : ls ≠ []) (hlater : later ≠ []) :
    glueLines (ls ++ later) = glueLines ls ++ '\n' :: glueLines later := by
  induction ls with
  | nil => exact absurd rfl hls
  | cons l ls ih =>
    cases ls with
    | nil => simp [glueLines_cons hlater]
    | cons next ls =>
      rw [List.cons_append, List.cons_append, glueLines_cons_cons, glueLines_cons_cons,
        ← List.cons_append, ih (List.cons_ne_nil next ls), List.append_assoc, List.cons_append]

/-- A last line that is longer at its end makes a text that is longer at its end. -/
theorem glueLines_append_end (ls : List (List Char)) (l cs : List Char) :
    glueLines (ls ++ [l ++ cs]) = glueLines (ls ++ [l]) ++ cs := by
  cases ls with
  | nil => simp
  | cons first ls =>
    rw [glueLines_append (by simp) (by simp), glueLines_append (by simp) (by simp)]
    simp

/-- Joined lines are glued lines with a line feed behind the last one. -/
theorem joinLines_eq_glueLines {ls : List (List Char)} (h : ls ≠ []) :
    joinLines ls = glueLines ls ++ ['\n'] := by
  induction ls with
  | nil => exact absurd rfl h
  | cons l ls ih =>
    cases ls with
    | nil => simp [joinLines_cons]
    | cons next ls =>
      rw [joinLines_cons, ih (List.cons_ne_nil next ls), glueLines_cons_cons, List.append_assoc,
        List.cons_append]

/-! ## Where a declaration ends -/

/-- A semicolon at the end of a line ends every declaration. -/
theorem minifyLines_append_of_semicolon {line : List Char} (h : line.getLast? = some ';')
    (carried : Option (List Char)) (before later : List (List Char)) :
    minifyLines carried (before ++ line :: later) =
      minifyLines carried (before ++ [line]) ++ minifyLines none later := by
  have closing : LineKind.ofLine line = .declaration (trimStart line.dropLast ++ [';']) := by
    nth_rewrite 1 [← List.dropLast_append_getLast? ';' h]
    exact LineKind.ofLine_semicolon line.dropLast
  induction before generalizing carried with
  | nil => cases carried <;> simp [minifyLines, closing, h]
  | cons first before ih =>
    cases carried with
    | none =>
      rw [List.cons_append, List.cons_append, minifyLines, minifyLines]
      cases LineKind.ofLine first <;> simp [ih]
    | some declaration =>
      rw [List.cons_append, List.cons_append, minifyLines, minifyLines]
      split <;> simp [ih]

/-- A declaration goes on until a line ends in a semicolon. -/
theorem minifyLines_carried {others : List (List Char)} {last : List Char}
    (open_ : ∀ line ∈ others, line.getLast? ≠ some ';') (closing : last.getLast? = some ';')
    (carried : List Char) :
    minifyLines (some carried) (others ++ [last]) =
      compactDeclaration (glueLines (carried :: (others ++ [last]))) := by
  induction others generalizing carried with
  | nil => simp [minifyLines, closing, glueLines_cons_cons]
  | cons line others ih =>
    obtain ⟨first, later⟩ := List.forall_mem_cons.1 open_
    rw [List.cons_append, minifyLines, if_neg first, ih later, glueLines_joined]

/-- Where lines are minified apart, the line feed between them is lost. -/
theorem lineEnds_minifyLines_lt {before later : List (List Char)} {line : List Char}
    (hlater : later ≠ [])
    (apart : minifyLines none (before ++ line :: later) =
      minifyLines none (before ++ [line]) ++ minifyLines none later) :
    lineEnds (minifyLines none (before ++ line :: later)) <
      lineEnds (glueLines (before ++ line :: later)) := by
  have first := (dropsBlanks_minifyLines none (before ++ [line])).lineEnds_le
  have second := (dropsBlanks_minifyLines none later).lineEnds_le
  have glued : glueLines (before ++ line :: later) =
      glueLines (before ++ [line]) ++ '\n' :: glueLines later := by
    rw [← glueLines_append (by simp) hlater, List.append_assoc, List.singleton_append]
  rw [apart, glued, lineEnds_append, lineEnds_append, lineEnds_lineFeed_cons]
  simp only [Option.toList_none, List.nil_append] at first second
  omega

/-! ## The first line of a declaration -/

/-- Blanks at the end are behind what is visible. -/
theorem trimEnd_append (cs ds : List Char) :
    trimEnd (cs ++ ds) = if trimEnd ds = [] then trimEnd cs else cs ++ trimEnd ds := by
  rw [trimEnd, List.reverse_append, List.dropWhile_append]
  by_cases h : ds.reverse.dropWhile isBlank = []
  · simp [trimEnd, h]
  · simp [trimEnd, h]

/-- The first line of a declaration at a level. -/
def firstLine (level : Nat) (property first : List Char) : List Char :=
  indentation (level + 1) ++ (property ++ ':' :: ' ' :: first)

variable {property first : List Char}

/-- The first line of a declaration ends in a carriage return where that of the value does. -/
theorem getLast?_firstLine_iff (level : Nat) :
    (firstLine level property first).getLast? = some '\r' ↔ first.getLast? = some '\r' := by
  have split : firstLine level property first =
      (indentation (level + 1) ++ property ++ [':', ' ']) ++ first := by
    simp [firstLine]
  rw [split]
  cases first with
  | nil => simp
  | cons c first => rw [List.getLast?_append_of_ne_nil _ (List.cons_ne_nil c first)]

/-- At the end of the first line of a declaration stands what the value has there, or the colon. -/
theorem trim_firstLine (level : Nat) (front : property.head?.any isBlank = false) :
    trim (firstLine level property first) =
      property ++ ':' :: if trimEnd first = [] then [] else ' ' :: trimEnd first := by
  have start : trimStart (property ++ ':' :: ' ' :: first) = property ++ ':' :: ' ' :: first :=
    trimStart_eq_self (head?_append_any_isBlank front rfl)
  have colon : trimEnd (property ++ [':', ' ']) = property ++ [':'] := by
    have split : property ++ [':', ' '] = (property ++ [':']) ++ [' '] := by simp
    rw [split, trimEnd_append_singleton, if_pos (by decide), trimEnd_append_singleton,
      if_neg (by decide)]
  have split : property ++ ':' :: ' ' :: first = (property ++ [':', ' ']) ++ first := by simp
  rw [firstLine, trim_append_of_blanks isBlank_of_mem_indentation, trim, start, split,
    trimEnd_append]
  split <;> simp [colon]

/-- Trimmed, the first line of a long value ends as the value does there. -/
theorem getLast?_trim_firstLine (level : Nat) (front : property.head?.any isBlank = false)
    (visible : trimEnd first ≠ []) :
    (trim (firstLine level property first)).getLast? = (trimEnd first).getLast? := by
  rw [trim_firstLine level front, if_neg visible, List.getLast?_append_cons,
    List.getLast?_cons_cons, ← List.singleton_append, List.getLast?_append_of_ne_nil _ visible]

/-- A first line that does not mislead opens the declaration. -/
theorem ofLine_firstLine (level : Nat) (front : property.head?.any isBlank = false)
    (semicolon : (trimEnd first).getLast? ≠ some ';')
    (brace : (trimEnd first).getLast? ≠ some '\x7b') :
    LineKind.ofLine (firstLine level property first) =
      .opening (property ++ ':' :: ' ' :: first) := by
  have start : trimStart (firstLine level property first) = property ++ ':' :: ' ' :: first := by
    rw [firstLine, trimStart_append_of_blanks isBlank_of_mem_indentation]
    exact trimStart_eq_self (head?_append_any_isBlank front rfl)
  -- the colon shows that the line is not blank and no brace on its own
  have colon : ':' ∈ trim (firstLine level property first) := by
    simp [trim_firstLine level front]
  have ending : (trim (firstLine level property first)).getLast? ≠ some ';' ∧
      (trim (firstLine level property first)).getLast? ≠ some '\x7b' := by
    by_cases visible : trimEnd first = []
    · simp [trim_firstLine level front, visible]
    · rw [getLast?_trim_firstLine level front visible]
      exact ⟨semicolon, brace⟩
  unfold LineKind.ofLine
  dsimp only
  split
  · next nothing =>
    rw [List.getLast?_eq_none_iff.1 nothing] at colon
    cases colon
  · next h => exact absurd h ending.2
  · next h => exact absurd h ending.1
  · rw [if_neg, start]
    intro alone
    rw [alone] at colon
    simp at colon

/-- A first line that seems to end the declaration or to open a block is minified by itself. -/
theorem closedLine_firstLine (level : Nat) (front : property.head?.any isBlank = false)
    (h : (trimEnd first).getLast? = some ';' ∨ (trimEnd first).getLast? = some '\x7b') :
    ClosedLine (firstLine level property first) := by
  have visible : trimEnd first ≠ [] := by
    intro nothing
    simp [nothing] at h
  intro text opening
  unfold LineKind.ofLine at opening
  dsimp only at opening
  rw [getLast?_trim_firstLine level front visible] at opening
  rcases h with h | h <;> simp [h] at opening

/-! ## The lines of a declaration -/

/-- The lines over which a declaration at a level is spread: the property with the first line of the
value, other lines of it, and the last one with the semicolon. -/
def spread (level : Nat) (property first : List Char) (others : List (List Char))
    (last : List Char) : List (List Char) :=
  firstLine level property first :: (others ++ [last ++ [';']])

variable {d : Declaration} {last : List Char} {others : List (List Char)}

/-- The line of a declaration with a long value is spread over the lines of the value. -/
theorem line_eq_glueLines (level : Nat)
    (value_eq : d.value.toList = glueLines (first :: others ++ [last])) :
    d.line level = glueLines (spread level d.property.toList first others last) := by
  have front : firstLine level d.property.toList first =
      (indentation (level + 1) ++ (d.property.toList ++ [':', ' '])) ++ first := by
    simp [firstLine]
  rw [spread, front, glueLines_append_cons, ← List.cons_append, glueLines_append_end, ← value_eq]
  simp [Declaration.line]

/-- A declaration whose value keeps its lines is minified to its compact form. -/
theorem minifyLines_spread (level : Nat) (apart : d.StaysApart)
    (value_eq : d.value.toList = glueLines (first :: others ++ [last]))
    (keepsFirst : ¬ MisleadsFirst first) (keepsOthers : ∀ line ∈ others, ¬ Misleads line) :
    minifyLines none (spread level d.property.toList first others last) = d.compact.toList := by
  simp only [MisleadsFirst, not_or] at keepsFirst
  have goesOn : ∀ line ∈ others, line.getLast? ≠ some ';' :=
    fun line hline ending => keepsOthers line hline (.inr ending)
  have front : d.property.toList ++ ':' :: ' ' :: first =
      (d.property.toList ++ [':', ' ']) ++ first := by
    simp
  rw [spread, minifyLines, ofLine_firstLine level apart.1 keepsFirst.2.1 keepsFirst.2.2]
  dsimp only
  rw [minifyLines_carried goesOn (by simp), front, glueLines_append_cons, ← List.cons_append,
    glueLines_append_end, ← value_eq, List.append_assoc, List.cons_append, List.singleton_append,
    compactDeclaration_colon apart.2]
  simp [Declaration.compact]

/-- A declaration and its compact form have the same line ends. -/
theorem lineEnds_line (level : Nat) (d : Declaration) :
    lineEnds (d.line level) = lineEnds d.compact.toList := by
  have blanks : lineEnds (indentation (level + 1)) = 0 := by
    rw [lineEnds, List.countP_eq_zero]
    intro c hc
    rw [List.eq_of_mem_replicate hc]
    decide
  have colon (cs : List Char) : lineEnds (':' :: ' ' :: cs) = lineEnds (':' :: cs) := by
    simp [lineEnds]
  rw [Declaration.line, lineEnds_append, blanks, lineEnds_append, colon]
  simp [Declaration.compact, lineEnds]

/-- A declaration with a line that ends in a carriage return loses it when the text is split. -/
theorem lineEnds_lt_of_return (level : Nat)
    (value_eq : d.value.toList = glueLines (first :: others ++ [last]))
    (h : ∃ line ∈ spread level d.property.toList first others last, line.getLast? = some '\r') :
    lineEnds (minifyLines none
        ((spread level d.property.toList first others last).map withoutReturn)) <
      lineEnds d.compact.toList := by
  have total :=
    lineEnds_glueLines_withoutReturn (spread level d.property.toList first others last)
  rw [← line_eq_glueLines level value_eq, lineEnds_line] at total
  have lost : 0 < (spread level d.property.toList first others last).countP
      (fun l => l.getLast? = some '\r') := by
    obtain ⟨line, hline, ending⟩ := h
    exact List.countP_pos_iff.2 ⟨line, hline, by simp [ending]⟩
  have kept := (dropsBlanks_minifyLines none
    ((spread level d.property.toList first others last).map withoutReturn)).lineEnds_le
  simp only [Option.toList_none, List.nil_append] at kept
  omega

/-- A declaration with a line that seems to end it, or to open a block, loses the line feed behind
that line. -/
theorem lineEnds_lt_of_ending (level : Nat) (apart : d.StaysApart)
    (value_eq : d.value.toList = glueLines (first :: others ++ [last]))
    (h : ((trimEnd first).getLast? = some ';' ∨ (trimEnd first).getLast? = some '\x7b') ∨
      ∃ line ∈ others, line.getLast? = some ';') :
    lineEnds (minifyLines none (spread level d.property.toList first others last)) <
      lineEnds d.compact.toList := by
  rw [← lineEnds_line level, line_eq_glueLines level value_eq]
  rcases h with h | ⟨line, hline, ending⟩
  · -- the loop starts afresh behind the first line
    have closed : ∀ line ∈ [firstLine level d.property.toList first], ClosedLine line := by
      simpa using closedLine_firstLine level apart.1 h
    have alone : minifyLines none ([] ++ firstLine level d.property.toList first ::
          (others ++ [last ++ [';']])) =
        minifyLines none ([] ++ [firstLine level d.property.toList first]) ++
          minifyLines none (others ++ [last ++ [';']]) :=
      minifyLines_append closed (others ++ [last ++ [';']])
    exact lineEnds_minifyLines_lt (by simp) alone
  · -- the loop starts afresh behind the line that ends in a semicolon
    obtain ⟨before, later, rfl⟩ := List.append_of_mem hline
    have split : spread level d.property.toList first (before ++ line :: later) last =
        (firstLine level d.property.toList first :: before) ++
          line :: (later ++ [last ++ [';']]) := by
      simp [spread]
    rw [split]
    exact lineEnds_minifyLines_lt (by simp) (minifyLines_append_of_semicolon ending none _ _)

/-- The lines of a declaration are minified to its compact form exactly if its value keeps its
lines. -/
theorem minifyLines_spread_iff (level : Nat) (apart : d.StaysApart)
    (value_eq : d.value.toList = glueLines (first :: others ++ [last])) :
    minifyLines none ((spread level d.property.toList first others last).map withoutReturn) =
        d.compact.toList ↔
      ¬ MisleadsFirst first ∧ ∀ line ∈ others, ¬ Misleads line := by
  by_cases returns : first.getLast? = some '\r' ∨ ∃ line ∈ others, line.getLast? = some '\r'
  · -- a line end is dropped with the carriage return before it
    have lost := lineEnds_lt_of_return level value_eq (by
      simpa [spread, getLast?_firstLine_iff, or_and_right, exists_or] using returns)
    refine iff_of_false (fun same => absurd lost (by simp [same])) ?_
    rintro ⟨keepsFirst, keepsOthers⟩
    rcases returns with ending | ⟨line, hline, ending⟩
    · exact keepsFirst (.inl ending)
    · exact keepsOthers line hline (.inl ending)
  · -- without a carriage return the text is split into the lines as they are
    simp only [not_or, not_exists, not_and] at returns
    have whole : ∀ line ∈ spread level d.property.toList first others last,
        withoutReturn line = line := by
      intro line hline
      refine withoutReturn_of_ne ?_
      simp only [spread, List.mem_cons, List.mem_append, List.not_mem_nil, or_false] at hline
      rcases hline with rfl | hline | rfl
      · exact fun ending => returns.1 ((getLast?_firstLine_iff level).1 ending)
      · exact returns.2 line hline
      · simp
    rw [List.map_congr_left whole, List.map_id']
    -- a misleading line costs a line end; without one the loop carries every line on
    constructor
    · intro same
      refine ⟨?_, fun line hline misleads => ?_⟩
      · rintro (ending | ending)
        · exact returns.1 ending
        · exact absurd (lineEnds_lt_of_ending level apart value_eq (.inl ending)) (by simp [same])
      · rcases misleads with ending | ending
        · exact returns.2 line hline ending
        · exact absurd (lineEnds_lt_of_ending level apart value_eq (.inr ⟨line, hline, ending⟩))
            (by simp [same])
    · rintro ⟨keepsFirst, keepsOthers⟩
      exact minifyLines_spread level apart value_eq keepsFirst keepsOthers

/-! ## A rule with one declaration -/

/-- The text of a rule with one declaration is minified line by line. -/
theorem minify_layoutNodes_rule {selector : String} (level : Nat) (hselector : NoLineFeed selector)
    (ends : NoBlankEnds selector) {before : List (List Char)}
    (line_eq : d.line level = glueLines (before ++ [last ++ [';']]))
    (feed : ∀ line ∈ before ++ [last ++ [';']], '\n' ∉ line) :
    (minify (layoutNodes level [.rule selector [d]])).toList =
      selector.toList ++ '\x7b' ::
        (minifyLines none ((before ++ [last ++ [';']]).map withoutReturn) ++ ['\x7d']) := by
  have opening := wholeLine_openingLine hselector level
  have closing := wholeLine_endLine level
  have some_line : before ++ [last ++ [';']] ≠ [] := by simp
  -- the text is a blank line, the opening line, the lines of the declaration and the closing one
  have text_eq : (layoutNodes level [.rule selector [d]]).toList =
      joinLines ([] :: openingLine level selector ::
        (before ++ [last ++ [';']] ++ [endLine level])) := by
    rw [toList_layoutNodes, linesOfNodes_cons, linesOfNodes_nil, List.append_nil, Node.lines,
      joinLines_cons, joinLines_cons, joinLines_cons, joinLines_cons, joinLines_append,
      joinLines_append, joinLines_eq_glueLines some_line, ← line_eq]
    simp [joinLines_cons]
  have lines_eq : lines (layoutNodes level [.rule selector [d]]).toList =
      [] :: openingLine level selector ::
        ((before ++ [last ++ [';']]).map withoutReturn ++ [endLine level]) := by
    rw [text_eq, lines_joinLines_eq_map]
    · rw [List.map_cons, List.map_cons, List.map_append, List.map_singleton,
        withoutReturn_of_ne opening.2, withoutReturn_of_ne closing.2]
      rfl
    · rw [List.forall_mem_cons, List.forall_mem_cons, List.forall_mem_append]
      exact ⟨List.not_mem_nil, opening.1, feed, by simpa using closing.1⟩
  have ended : withoutReturn (last ++ [';']) = last ++ [';'] := withoutReturn_of_ne (by simp)
  rw [minify, String.toList_ofList, lines_eq, minifyLines_blank (by simp),
    minifyLines_openingLine ends, List.map_append, List.map_singleton, ended,
    List.append_assoc, List.singleton_append, minifyLines_append_of_semicolon (by simp),
    minifyLines_endLine]
  rfl

/-- Minifying a rule with one declaration keeps it as it is exactly if the value of the declaration
keeps its lines. -/
theorem minify_rule_iff {selector : String} (level : Nat) (hselector : NoLineFeed selector)
    (ends : NoBlankEnds selector) (hproperty : NoLineFeed d.property) (apart : d.StaysApart) :
    minify (layoutNodes level [.rule selector [d]]) = compactNodes [.rule selector [d]] ↔
      KeepsItsLines d.value := by
  have compact_eq : (compactNodes [.rule selector [d]]).toList =
      selector.toList ++ '\x7b' :: (d.compact.toList ++ ['\x7d']) := by
    simp [compactNodes_cons, Node.compact, compactDeclarations]
  obtain ⟨last, value_eq, feed⟩ := exists_lines_of_value d.value
  rw [KeepsItsLines]
  cases hended : endedLines d.value with
  | nil =>
    -- a value of one line is kept in any case
    have hvalue : NoLineFeed d.value := by
      rw [NoLineFeed, value_eq, hended]
      simpa [hended] using feed
    refine iff_of_true (minify_layoutNodes level ?_ ?_ ?_) (by simp)
    · simpa using ⟨hselector, hproperty, hvalue⟩
    · simpa using ends
    · simpa using apart
  | cons first others =>
    rw [hended] at value_eq feed
    have line_eq : d.line level =
        glueLines ((firstLine level d.property.toList first :: others) ++ [last ++ [';']]) :=
      line_eq_glueLines level value_eq
    have whole : ∀ line ∈ (firstLine level d.property.toList first :: others) ++ [last ++ [';']],
        '\n' ∉ line := by
      simp only [List.cons_append, List.forall_mem_cons, List.forall_mem_append] at feed ⊢
      refine ⟨?_, feed.2.1, by simpa using feed.2.2.1, by simp⟩
      simpa [firstLine, indentation, feed.1, NoLineFeed] using hproperty
    rw [← String.toList_inj, compact_eq,
      minify_layoutNodes_rule level hselector ends line_eq whole]
    simpa [spread] using minifyLines_spread_iff level apart value_eq

/-! ## Property names -/

/-- Spinal case brings in nothing but hyphens and small letters. -/
theorem mem_of_mem_spinalChars {c : Char} (hyphen : c ≠ '-') (small : c.isLower = false)
    {afterSmall : Bool} {cs : List Char} (h : c ∈ spinalChars afterSmall cs) : c ∈ cs := by
  obtain rfl | ⟨d, hd, rfl⟩ := eq_hyphen_or_exists_of_mem_spinalChars h
  · exact absurd rfl hyphen
  · by_cases capital : d.isUpper
    · rw [isLower_toLower_of_isUpper capital] at small
      cases small
    · rw [Bool.not_eq_true] at capital
      rwa [toLower_of_not_isUpper capital]

/-- The visible ASCII characters are not blank. -/
theorem isBlank_eq_false {c : Char} (low : 33 ≤ c.toNat) (high : c.toNat ≤ 126) :
    isBlank c = false := by
  simp [isBlank, blankRanges]
  omega

/-- Letters are not blank, whether they are capital or small. -/
theorem isBlank_toLower (c : Char) : isBlank c.toLower = isBlank c := by
  cases h : c.isUpper with
  | false => rw [toLower_of_not_isUpper h]
  | true =>
    have bounds := isUpper_iff.1 h
    have shifted := toNat_toLower_of_isUpper h
    rw [isBlank_eq_false (by omega) (by omega), isBlank_eq_false (by omega) (by omega)]

/-- A name without a blank at its front has none there in spinal case. -/
theorem noBlankFront_spinalCase {name : String} (h : NoBlankFront name) :
    NoBlankFront (spinalCase name) := by
  rw [NoBlankFront] at h ⊢
  rw [toList_spinalCase]
  cases hname : name.toList with
  | nil => rfl
  | cons c cs =>
    rw [hname] at h
    simpa [isBlank_toLower] using h

/-- The rule tree of a text for one property is one rule. -/
theorem ruleTree_text {o : Options} {selector key : String}
    (proper : isMediaQuery selector = false) (hyphen : isHyphenated key = false)
    (role : o.role key = .property []) (value : String) :
    ruleTree o selector [(key, .text value)] =
      .ok [.rule selector [⟨spinalCase key, value⟩]] :=
  ruleTree_singleton proper hyphen role rfl (by simp)

/-- Minifying the text of one property keeps the value as it is, line feeds included, exactly if
the value keeps its lines: no line of it that a line feed ends does itself end in a carriage return
or in a semicolon, and the first such line ends neither in a semicolon nor in an opening brace even
without the blanks at its end. So every value without a line feed is kept. -/
theorem minify_keeps_value_iff {o : Options} {level : Nat} {selector key value : String}
    (proper : isMediaQuery selector = false) (hselector : NoLineFeed selector)
    (ends : NoBlankEnds selector) (hkey : NoLineFeed key) (front : NoBlankFront key)
    (colon : ':' ∉ key.toList) (hyphen : hasHyphen key = false) (plain : key ∉ nestedSelectors)
    (query : isMediaQuery key = false) (unprefixed : o.prefixesFor? key = none) :
    (compile o level selector [(key, .text value)]).map minify =
        .ok (selector ++ "\x7b" ++ spinalCase key ++ ":" ++ value ++ ";\x7d") ↔
      KeepsItsLines value := by
  have role : o.role key = .property [] := role_of_unprefixed unprefixed plain query
  -- spinal case brings in no colon, so the declaration is split where it should be
  have splits : ¬ [':', ' '] <:+: (spinalCase key).toList := by
    intro split
    have mem : ':' ∈ spinalChars false key.toList := by
      rw [← toList_spinalCase]
      exact split.subset List.mem_cons_self
    exact colon (mem_of_mem_spinalChars (by decide) (by decide) mem)
  have apart : (⟨spinalCase key, value⟩ : Declaration).StaysApart :=
    ⟨noBlankFront_spinalCase front, splits⟩
  have compact_eq : compactNodes [.rule selector [⟨spinalCase key, value⟩]] =
      selector ++ "\x7b" ++ spinalCase key ++ ":" ++ value ++ ";\x7d" := by
    simp [compactNodes_cons, Node.compact, compactDeclarations, Declaration.compact,
      ← String.toList_inj]
  have text : compile o level selector [(key, .text value)] =
      .ok (layoutNodes level [.rule selector [⟨spinalCase key, value⟩]]) := by
    rw [compile, ruleTree_text proper (by simp [isHyphenated, hyphen]) role]
    rfl
  rw [text, Except.map, Except.ok.injEq, ← compact_eq]
  exact minify_rule_iff level hselector ends (noLineFeed_spinalCase hkey) apart

/-- A value whose second line ends in a brace and whose last one starts with a semicolon. -/
theorem minify_keeps_value_iff_lines :
    KeepsItsLines "\n a: \x7b\n;b " ∧
      (compile {} 1 "p > q" [("gridArea", .text "\n a: \x7b\n;b ")]).map minify =
        .ok "p > q\x7bgrid-area:\n a: \x7b\n;b ;\x7d" := by
  have keeps : KeepsItsLines "\n a: \x7b\n;b " := by decide
  exact ⟨keeps, (minify_keeps_value_iff (by decide) (by decide) (by decide) (by decide) (by decide)
    (by decide) (by decide) (by decide) (by decide) (by decide)).2 keeps⟩

/-- A line feed is lost behind a semicolon inside a value. -/
theorem minify_loses_line_feed :
    (compile {} 0 "p" [("content", .text "a;\nb")]).map minify = .ok "p\x7bcontent:a;b;\x7d" ∧
      (compile {} 0 "p" [("content", .text "a;\nb")]).map minify ≠
        .ok ("p" ++ "\x7b" ++ spinalCase "content" ++ ":" ++ "a;\nb" ++ ";\x7d") := by
  decide +kernel

end StyleTree
