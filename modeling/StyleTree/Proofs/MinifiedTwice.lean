import Mathlib.Data.List.Induction
import StyleTree.Proofs.LongValues
import StyleTree.Proofs.Outcomes

/-! # Minifying twice

A declaration that is not in a block loses a blank whenever it is minified, so minifying twice is in
general not minifying once. What a call makes ends in a line with a closing brace, and so what is
minified of it ends in a closing brace, with no line feed behind it. For the second time this is one
declaration that never ends, for none of its lines ends in a semicolon.

* **`GoesOn`** is a line that starts such a declaration and stays as it is; what is put before it,
  and the blank that it may lose, change nothing in this.
* **`Settled`** lines are left alone by minifying, **`Settled.minifyLines_eq`**.
* **`exists_settled`** says that lines up to a closing brace are minified to settled lines.
* **`EndsWithBlock`** is how the text of a call ends, and **`minify_generated_twice`** minifies it
  twice. -/

namespace StyleTree

/-! ## Visible characters -/

/-- The characters of a text that are not blank. -/
def visible (cs : List Char) : List Char := cs.filter fun c => !isBlank c

/-- The visible characters of two texts follow each other. -/
theorem visible_append (cs ds : List Char) : visible (cs ++ ds) = visible cs ++ visible ds :=
  List.filter_append cs ds

/-- A character that is not blank is the first visible one. -/
theorem visible_cons {c : Char} (hc : isBlank c = false) (cs : List Char) :
    visible (c :: cs) = c :: visible cs :=
  List.filter_cons_of_pos (by simp [hc])

/-- Blanks that are left out are not visible. -/
theorem DropsBlanks.visible_eq {cs ds : List Char} (h : DropsBlanks cs ds) :
    visible ds = visible cs :=
  h.filter_visible

/-- A line without the blanks at its end ends in its last visible character. -/
theorem getLast?_trimEnd (cs : List Char) : (trimEnd cs).getLast? = (visible cs).getLast? := by
  induction cs using List.reverseRecOn with
  | nil => rfl
  | append_singleton cs c ih =>
    rw [trimEnd_append_singleton, visible_append]
    cases hc : isBlank c with
    | true =>
      have nothing : visible [c] = [] := by simp [visible, hc]
      rw [if_pos rfl, ih, nothing, List.append_nil]
    | false =>
      rw [if_neg (by simp), visible_cons hc, List.getLast?_append_cons, List.getLast?_append_cons]
      rfl

/-- A trimmed text ends in its last visible character. -/
theorem getLast?_trim (cs : List Char) : (trim cs).getLast? = (visible cs).getLast? := by
  rw [trim, getLast?_trimEnd, (dropsBlanks_trimStart cs).visible_eq]

/-- No blank is left at the front of a trimmed line. -/
theorem head?_trimStart_any_isBlank (cs : List Char) :
    (trimStart cs).head?.any isBlank = false := by
  induction cs with
  | nil => rfl
  | cons c cs ih =>
    rw [trimStart_cons]
    cases hc : isBlank c with
    | true => simpa using ih
    | false => simp [hc]

/-- A trimmed text is one character if only this one is visible. -/
theorem trim_eq_singleton_iff {cs : List Char} {c : Char} (hc : isBlank c = false) :
    trim cs = [c] ↔ visible cs = [c] := by
  have alone : visible [c] = [c] := visible_cons hc []
  constructor
  · intro h
    rw [← (dropsBlanks_trim cs).visible_eq, h, alone]
  · intro h
    -- what is trimmed begins with its one visible character, and only blanks follow it
    have front := head?_trimStart_any_isBlank cs
    rw [← (dropsBlanks_trimStart cs).visible_eq] at h
    rw [trim]
    cases start : trimStart cs with
    | nil => simp [start, visible] at h
    | cons d rest =>
      rw [start] at front h
      rw [visible_cons (by simpa using front), List.cons.injEq] at h
      obtain ⟨rfl, nothing⟩ := h
      have blanks : trimEnd rest = [] := by
        rw [← List.getLast?_eq_none_iff, getLast?_trimEnd, nothing, List.getLast?_nil]
      rw [← List.singleton_append, trimEnd_append, if_pos blanks,
        trimEnd_eq_self (by simpa using front)]

/-- What stands at the front of a text has no blank at its front unless the text has one. -/
theorem head?_any_isBlank_mono {cs ds : List Char} (h : ds <+: cs)
    (front : cs.head?.any isBlank = false) : ds.head?.any isBlank = false := by
  obtain ⟨later, rfl⟩ := h
  cases ds with
  | nil => rfl
  | cons d ds => exact front

/-- Trimming the end of a line leaves its beginning. -/
theorem prefix_trimEnd (cs : List Char) : trimEnd cs <+: cs := by
  have behind := List.reverse_prefix.2 (List.dropWhile_suffix isBlank (l := cs.reverse))
  rwa [List.reverse_reverse] at behind

/-- No blank is left at the front of a line that is trimmed on both sides. -/
theorem head?_trim_any_isBlank (cs : List Char) : (trim cs).head?.any isBlank = false :=
  head?_any_isBlank_mono (prefix_trimEnd (trimStart cs)) (head?_trimStart_any_isBlank cs)

/-- What is kept of a line has no blank at its front. -/
theorem head?_text_any_isBlank (line : List Char) :
    (LineKind.ofLine line).text.head?.any isBlank = false := by
  have trimmed := head?_trim_any_isBlank line
  unfold LineKind.ofLine
  dsimp only
  split
  · rfl
  · have head : trimEnd (trim line).dropLast <+: trim line :=
      (prefix_trimEnd _).trans (List.dropLast_prefix _)
    exact head?_append_any_isBlank (head?_any_isBlank_mono head trimmed) rfl
  · exact trimmed
  · split
    · rfl
    · exact head?_trimStart_any_isBlank line

/-- A compact declaration begins as the declaration does. -/
theorem head?_compactDeclaration (cs : List Char) : (compactDeclaration cs).head? = cs.head? := by
  unfold compactDeclaration
  split <;> rfl

/-! ## Lines that go on -/

/-- A line **goes on** if it is the first line of a declaration that goes on, and has no blank at
its front that would be lost. -/
structure GoesOn (line : List Char) : Prop where
  front : line.head?.any isBlank = false
  last : ∃ c, (visible line).getLast? = some c ∧ c ≠ '\x7b' ∧ c ≠ ';'
  more : visible line ≠ ['\x7d']

/-- A line that opens a longer declaration goes on, without the blanks at its front. -/
theorem goesOn_of_opening {line text : List Char} (h : LineKind.ofLine line = .opening text) :
    GoesOn text := by
  have front : text.head?.any isBlank = false := by
    have text_front := head?_text_any_isBlank line
    rwa [h] at text_front
  have same : visible text = visible line := (dropsBlanks_of_kind h).visible_eq
  unfold LineKind.ofLine at h
  dsimp only at h
  -- the tests of a line that the first three cases fail say how it ends
  split at h
  · cases h
  · cases h
  · cases h
  · next c brace semicolon last =>
    split at h
    · cases h
    · next more =>
      rw [trim_eq_singleton_iff (by decide)] at more
      rw [getLast?_trim] at last
      refine ⟨front, ⟨c, ?_, ?_, ?_⟩, ?_⟩
      · rw [same, last]
      · rintro rfl
        exact brace rfl
      · rintro rfl
        exact semicolon rfl
      · rwa [same]

namespace GoesOn

variable {line piece : List Char}

/-- A declaration that goes on is taken as it is. -/
theorem ofLine_eq (h : GoesOn line) : LineKind.ofLine line = .opening line := by
  obtain ⟨c, last, brace, semicolon⟩ := h.last
  have more : trim line ≠ ['\x7d'] := (trim_eq_singleton_iff (by decide)).not.2 h.more
  unfold LineKind.ofLine
  dsimp only
  rw [getLast?_trim, last, if_neg more, trimStart_eq_self h.front]
  split <;> simp_all

/-- A declaration that goes on has something to show. -/
theorem visible_ne_nil (h : GoesOn line) : visible line ≠ [] := by
  obtain ⟨c, last, -⟩ := h.last
  rintro nothing
  simp [nothing] at last

/-- A declaration that goes on does not end in a semicolon. -/
theorem getLast?_ne_semicolon (h : GoesOn line) : line.getLast? ≠ some ';' := by
  obtain ⟨c, last, -, semicolon⟩ := h.last
  intro ending
  rw [← List.dropLast_append_getLast? ';' ending, visible_append] at last
  have alone : visible [';'] = [';'] := rfl
  rw [alone, List.getLast?_concat, Option.some.injEq] at last
  exact semicolon last.symm

/-- A line still goes on if something stands before it, with no blank at its front. -/
theorem prepend (h : GoesOn line) (front : piece.head?.any isBlank = false) :
    GoesOn (piece ++ line) := by
  cases piece with
  | nil => exact h
  | cons c piece =>
    have hc : isBlank c = false := by simpa using front
    obtain ⟨d, last, other⟩ := h.last
    refine ⟨front, ⟨d, ?_, other⟩, ?_⟩
    · rw [visible_append, List.getLast?_append_of_ne_nil _ h.visible_ne_nil, last]
    · rw [visible_append, visible_cons hc]
      intro alone
      have nothing : visible piece ++ visible line = [] := (List.cons.inj alone).2
      exact h.visible_ne_nil (List.append_eq_nil_iff.1 nothing).2

/-- A line still goes on if it loses the blank behind a colon. -/
theorem compact (h : GoesOn line) : GoesOn (compactDeclaration line) := by
  have same := (dropsBlanks_compactDeclaration line).visible_eq
  refine ⟨?_, ?_, ?_⟩
  · rw [head?_compactDeclaration]
    exact h.front
  · rw [same]
    exact h.last
  · rw [same]
    exact h.more

end GoesOn

/-- A closing brace goes on behind anything else. -/
theorem goesOn_append_brace {piece : List Char} (ne : piece ≠ [])
    (front : piece.head?.any isBlank = false) : GoesOn (piece ++ ['\x7d']) := by
  obtain ⟨c, piece, rfl⟩ := List.exists_cons_of_ne_nil ne
  have hc : isBlank c = false := by simpa using front
  have brace : visible ['\x7d'] = ['\x7d'] := rfl
  refine ⟨front, ⟨'\x7d', ?_, by decide, by decide⟩, ?_⟩
  · rw [visible_append, brace, List.getLast?_concat]
  · rw [visible_append, visible_cons hc, brace]
    simp

/-! ## One line minified -/

/-- A line opens a longer declaration, or else it is minified by itself to a piece of text without a
blank at its front. -/
theorem minifyLines_cons_cases (line : List Char) (later : List (List Char)) :
    (∃ text, LineKind.ofLine line = .opening text ∧
      minifyLines none (line :: later) = minifyLines (some text) later) ∨
    ∃ piece, piece.head?.any isBlank = false ∧ DropsBlanks line piece ∧
      minifyLines none (line :: later) = piece ++ minifyLines none later := by
  have front := head?_text_any_isBlank line
  rw [minifyLines]
  cases kind : LineKind.ofLine line with
  | opening text => exact .inl ⟨text, rfl, rfl⟩
  | blank => exact .inr ⟨[], rfl, dropsBlanks_of_kind kind, rfl⟩
  | closing => exact .inr ⟨['\x7d'], rfl, dropsBlanks_of_kind kind, rfl⟩
  | header head =>
    rw [kind] at front
    exact .inr ⟨head ++ ['\x7b'], front, dropsBlanks_of_kind kind, by simp⟩
  | declaration text =>
    rw [kind] at front
    refine .inr ⟨compactDeclaration text, ?_,
      (dropsBlanks_of_kind kind).trans (dropsBlanks_compactDeclaration text), rfl⟩
    rw [head?_compactDeclaration]
    exact front

/-- Up to a closing brace at its end, a text is minified to one that ends in the brace too. -/
theorem getLast?_minifyLines (carried : Option (List Char)) (before : List (List Char)) :
    (minifyLines carried (before ++ [['\x7d']])).getLast? = some '\x7d' := by
  induction before generalizing carried with
  | nil =>
    cases carried with
    | none => rfl
    | some declaration => simp [minifyLines]
  | cons line before ih =>
    cases carried with
    | none =>
      rcases minifyLines_cons_cases line (before ++ [['\x7d']]) with
        ⟨text, -, minified⟩ | ⟨piece, -, -, minified⟩
      · rw [List.cons_append, minified, ih]
      · rw [List.cons_append, minified, List.getLast?_append, ih, Option.some_or]
    | some declaration =>
      rw [List.cons_append, minifyLines]
      split
      · rw [List.getLast?_append, ih, Option.some_or]
      · exact ih _

/-! ## Lines inside a declaration -/

/-- A line behind the first one of a declaration, which does not end it. -/
structure Inside (line : List Char) : Prop where
  noFeed : '\n' ∉ line
  open_ : line.getLast? ≠ some ';'

/-- A line inside a declaration stays one with text before it that has no line feed. -/
theorem inside_append {line first : List Char} (hline : '\n' ∉ line) (ne : first ≠ [])
    (h : Inside first) : Inside (line ++ first) := by
  refine ⟨by simp [hline, h.noFeed], ?_⟩
  rw [List.getLast?_append_of_ne_nil _ ne]
  exact h.open_

/-- A blank dropped behind a colon does not bring a semicolon to the end. -/
theorem getLast?_compactDeclaration_ne {line : List Char} (h : line.getLast? ≠ some ';') :
    (compactDeclaration line).getLast? ≠ some ';' := by
  fun_induction compactDeclaration line with
  | case1 value => cases value <;> simp_all
  | case2 c rest other ih =>
    cases rest with
    | nil => simpa [compactDeclaration] using h
    | cons d rest =>
      have head := head?_compactDeclaration (d :: rest)
      cases compacted : compactDeclaration (d :: rest) with
      | nil => simp [compacted] at head
      | cons e later =>
        rw [List.getLast?_cons_cons] at h ⊢
        exact compacted ▸ ih h
  | case3 => simp

/-- A compact declaration has no character that the declaration lacks. -/
theorem not_mem_compactDeclaration {c : Char} {line : List Char} (h : c ∉ line) :
    c ∉ compactDeclaration line :=
  fun hc => h ((dropsBlanks_compactDeclaration line).sublist.subset hc)

/-- A line inside a declaration stays one when it is made compact. -/
theorem Inside.compact {line : List Char} (h : Inside line) : Inside (compactDeclaration line) :=
  ⟨not_mem_compactDeclaration h.noFeed, getLast?_compactDeclaration_ne h.open_⟩

/-- The first colon with a blank is in the first line, or in the lines behind it. -/
theorem compactDeclaration_append_lineFeed (line later : List Char) :
    compactDeclaration (line ++ '\n' :: later) = compactDeclaration line ++ '\n' :: later ∨
      compactDeclaration (line ++ '\n' :: later) = line ++ '\n' :: compactDeclaration later := by
  fun_induction compactDeclaration line with
  | case1 value => exact .inl rfl
  | case2 c rest other ih =>
    -- the two characters looked for do not reach over the line feed
    have first : compactDeclaration (c :: (rest ++ '\n' :: later)) =
        c :: compactDeclaration (rest ++ '\n' :: later) := by
      rw [compactDeclaration]
      rintro value rfl split
      cases rest with
      | nil => simp at split
      | cons d rest =>
        obtain rfl : d = ' ' := (List.cons.inj split).1
        exact other rest rfl rfl
    rw [List.cons_append, first]
    rcases ih with ih | ih
    · exact .inl (by rw [ih, List.cons_append])
    · exact .inr (by rw [ih, List.cons_append])
  | case3 => exact .inr (by rw [List.nil_append, compactDeclaration]; rfl; simp)

/-- Lines inside a declaration and its last line can lose the blank behind a colon. -/
theorem exists_compact_inside {others : List (List Char)} {line : List Char}
    (hothers : ∀ l ∈ others, Inside l) (hline : '\n' ∉ line) :
    ∃ others' line', (∀ l ∈ others', Inside l) ∧ '\n' ∉ line' ∧
      compactDeclaration (glueLines (others ++ [line])) = glueLines (others' ++ [line']) := by
  induction others with
  | nil => exact ⟨[], compactDeclaration line, by simp, not_mem_compactDeclaration hline, by simp⟩
  | cons first others ih =>
    obtain ⟨hfirst, hothers⟩ := List.forall_mem_cons.1 hothers
    rw [List.cons_append, glueLines_cons (by simp)]
    rcases compactDeclaration_append_lineFeed first (glueLines (others ++ [line])) with
      compacted | compacted
    · refine ⟨compactDeclaration first :: others, line,
        List.forall_mem_cons.2 ⟨hfirst.compact, hothers⟩, hline, ?_⟩
      rw [compacted, List.cons_append, glueLines_cons (by simp)]
    · obtain ⟨others', line', hothers', hline', glued⟩ := ih hothers
      refine ⟨first :: others', line', List.forall_mem_cons.2 ⟨hfirst, hothers'⟩, hline', ?_⟩
      rw [compacted, glued, List.cons_append, glueLines_cons (by simp)]

/-- The lines of a declaration that is not **finished**: the first line goes on, and no other one
ends it. -/
structure Unfinished (first : List Char) (others : List (List Char)) : Prop where
  goesOn : GoesOn first
  noFeed : '\n' ∉ first
  inside : ∀ l ∈ others, Inside l

namespace Unfinished

variable {first line : List Char} {others : List (List Char)}

/-- An unfinished declaration may have one more line. -/
theorem concat (h : Unfinished first others) (hline : Inside line) :
    Unfinished first (others ++ [line]) :=
  ⟨h.goesOn, h.noFeed, List.forall_mem_append.2 ⟨h.inside, by simpa using hline⟩⟩

/-- A declaration that loses the blank behind a colon loses it in one of its lines, and up to its
last line it is still not finished. -/
theorem exists_compact (h : Unfinished first others) (hline : '\n' ∉ line) :
    ∃ first' others' line', Unfinished first' others' ∧ '\n' ∉ line' ∧
      compactDeclaration (glueLines (first :: (others ++ [line]))) =
        glueLines (first' :: (others' ++ [line'])) := by
  rw [glueLines_cons (by simp)]
  rcases compactDeclaration_append_lineFeed first (glueLines (others ++ [line])) with
    compacted | compacted
  · refine ⟨compactDeclaration first, others, line,
      ⟨h.goesOn.compact, not_mem_compactDeclaration h.noFeed, h.inside⟩, hline, ?_⟩
    rw [compacted, glueLines_cons (by simp)]
  · obtain ⟨others', line', hothers', hline', glued⟩ := exists_compact_inside h.inside hline
    refine ⟨first, others', line', ⟨h.goesOn, h.noFeed, hothers'⟩, hline', ?_⟩
    rw [compacted, glued, glueLines_cons (by simp)]

end Unfinished

/-! ## Settled lines -/

/-- Lines are **settled** if they are a declaration that is not finished, or a closing brace. -/
inductive Settled : List (List Char) → Prop
  | brace : Settled [['\x7d']]
  | unfinished {first : List Char} {others : List (List Char)} :
      Unfinished first others → Settled (first :: others)

/-- A declaration that nothing ends is kept as it is. -/
theorem minifyLines_of_inside {others : List (List Char)} (h : ∀ l ∈ others, Inside l)
    (carried : List Char) : minifyLines (some carried) others = glueLines (carried :: others) := by
  induction others generalizing carried with
  | nil => simp [minifyLines]
  | cons line others ih =>
    obtain ⟨first, later⟩ := List.forall_mem_cons.1 h
    rw [minifyLines, if_neg first.open_, ih later, glueLines_joined]

namespace Settled

variable {first piece : List Char} {others : List (List Char)}

/-- Settled lines are left alone by minifying. -/
theorem minifyLines_eq {ls : List (List Char)} (h : Settled ls) :
    minifyLines none ls = glueLines ls := by
  cases h with
  | brace => rfl
  | unfinished h =>
    rw [minifyLines, h.goesOn.ofLine_eq]
    exact minifyLines_of_inside h.inside _

/-- There is always a first line. -/
theorem exists_cons {ls : List (List Char)} (h : Settled ls) :
    ∃ first others, ls = first :: others := by
  cases h <;> exact ⟨_, _, rfl⟩

/-- No line holds a line feed. -/
theorem noFeed {ls : List (List Char)} (h : Settled ls) : ∀ l ∈ ls, '\n' ∉ l := by
  cases h with
  | brace => decide
  | unfinished h => exact List.forall_mem_cons.2 ⟨h.noFeed, fun l hl => (h.inside l hl).noFeed⟩

/-- Lines are still settled if something stands before them, with no blank at its front. -/
theorem prepend (h : Settled (first :: others)) (front : piece.head?.any isBlank = false)
    (noFeed : '\n' ∉ piece) : Settled ((piece ++ first) :: others) := by
  cases h with
  | brace =>
    by_cases ne : piece = []
    · rw [ne]
      exact .brace
    · exact .unfinished ⟨goesOn_append_brace ne front, by simp [noFeed], by simp⟩
  | unfinished h =>
    exact .unfinished ⟨h.goesOn.prepend front, by simp [noFeed, h.noFeed], h.inside⟩

/-- Behind the last line of a declaration, settled lines do not end it. -/
theorem inside_append (h : Settled (first :: others)) {line : List Char} (hline : '\n' ∉ line) :
    ∀ l ∈ (line ++ first) :: others, Inside l := by
  cases h with
  | brace =>
    have brace : Inside ['\x7d'] := ⟨by decide, by decide⟩
    simpa using StyleTree.inside_append hline (List.cons_ne_nil _ _) brace
  | unfinished h =>
    have ne : first ≠ [] := fun nothing => h.goesOn.visible_ne_nil (by rw [nothing]; rfl)
    have inside : Inside first := ⟨h.noFeed, h.goesOn.getLast?_ne_semicolon⟩
    exact List.forall_mem_cons.2 ⟨StyleTree.inside_append hline ne inside, h.inside⟩

end Settled

/-- The last of some lines and the first of others are one line if no line feed joins them. -/
theorem glueLines_append_glueLines (ls : List (List Char)) (line first : List Char)
    (others : List (List Char)) :
    glueLines (ls ++ [line]) ++ glueLines (first :: others) =
      glueLines (ls ++ (line ++ first) :: others) := by
  induction ls with
  | nil => rw [List.nil_append, List.nil_append, glueLines_singleton, glueLines_append_cons]
  | cons l ls ih =>
    have before_ne : ls ++ [line] ≠ [] := by simp
    have joined_ne : ls ++ (line ++ first) :: others ≠ [] := by simp
    rw [List.cons_append, List.cons_append, glueLines_cons before_ne, glueLines_cons joined_ne,
      ← ih, List.append_assoc, List.cons_append]

/-- A further line comes behind a line feed. -/
theorem glueLines_concat (first line : List Char) (others : List (List Char)) :
    glueLines (first :: others) ++ '\n' :: line = glueLines (first :: (others ++ [line])) := by
  rw [← List.cons_append, glueLines_append (by simp) (by simp), glueLines_singleton]

/-- Lines up to a closing brace are minified to settled lines, also in a declaration that is not
finished. -/
theorem exists_settled {before : List (List Char)} (h : ∀ l ∈ before, '\n' ∉ l) :
    (∃ ls, Settled ls ∧ minifyLines none (before ++ [['\x7d']]) = glueLines ls) ∧
    ∀ first others, Unfinished first others →
      ∃ ls, Settled ls ∧
        minifyLines (some (glueLines (first :: others))) (before ++ [['\x7d']]) =
          glueLines ls := by
  -- nothing ends the text but the brace behind it; each line either opens a declaration, is carried
  -- on to the next one, or ends the declaration that is open
  induction before with
  | nil =>
    refine ⟨⟨[['\x7d']], .brace, rfl⟩, fun first others unfinished => ?_⟩
    have brace : Inside ['\x7d'] := ⟨by decide, by decide⟩
    refine ⟨first :: (others ++ [['\x7d']]), .unfinished (unfinished.concat brace), ?_⟩
    rw [List.nil_append, minifyLines, if_neg (by decide), minifyLines, glueLines_concat]
  | cons line before ih =>
    obtain ⟨hline, hbefore⟩ := List.forall_mem_cons.1 h
    obtain ⟨apart, inside⟩ := ih hbefore
    refine ⟨?_, fun first others unfinished => ?_⟩
    · rcases minifyLines_cons_cases line (before ++ [['\x7d']]) with
        ⟨text, opening, minified⟩ | ⟨piece, front, kept, minified⟩
      · -- the line opens a declaration, which is unfinished so far
        have noFeed : '\n' ∉ text :=
          fun feed => hline ((dropsBlanks_of_kind opening).sublist.subset feed)
        obtain ⟨ls, settled, ls_eq⟩ :=
          inside text [] ⟨goesOn_of_opening opening, noFeed, by simp⟩
        rw [glueLines_singleton] at ls_eq
        exact ⟨ls, settled, by rw [List.cons_append, minified, ls_eq]⟩
      · -- the line is a piece that joins the one behind it
        obtain ⟨ls, settled, ls_eq⟩ := apart
        have noFeed : '\n' ∉ piece := fun feed => hline (kept.sublist.subset feed)
        obtain ⟨first, others, rfl⟩ := settled.exists_cons
        refine ⟨(piece ++ first) :: others, settled.prepend front noFeed, ?_⟩
        rw [List.cons_append, minified, ls_eq, glueLines_append_cons]
    · rw [List.cons_append, minifyLines, glueLines_concat]
      split
      · -- the line ends the declaration, and no line feed parts it from what is behind it
        obtain ⟨ls, settled, ls_eq⟩ := apart
        obtain ⟨next, later, rfl⟩ := settled.exists_cons
        obtain ⟨first', others', line', unfinished', hline', compacted⟩ :=
          unfinished.exists_compact hline
        refine ⟨first' :: (others' ++ (line' ++ next) :: later), .unfinished
          { unfinished' with
            inside := List.forall_mem_append.2
              ⟨unfinished'.inside, settled.inside_append hline'⟩ }, ?_⟩
        rw [compacted, ls_eq, ← List.cons_append, glueLines_append_glueLines, List.cons_append]
      · -- the declaration goes on for one more line
        next open_ =>
        exact inside first (others ++ [line]) (unfinished.concat ⟨hline, open_⟩)

/-! ## Splitting minified lines -/

/-- A line that is not empty is the only line of its text. -/
theorem lines_of_noFeed {l : List Char} (feed : '\n' ∉ l) (ne : l ≠ []) : lines l = [l] := by
  induction l with
  | nil => exact absurd rfl ne
  | cons c l ih =>
    rw [List.mem_cons, not_or] at feed
    cases l with
    | nil => rw [lines, lines_nil] <;> simp [Ne.symm feed.1]
    | cons d l =>
      refine lines_cons (Ne.symm feed.1) ?_ (ih feed.2 (List.cons_ne_nil d l))
      intro rest _ split
      exact feed.2 (by simp [(List.cons.inj split).1])

/-- Lines that are glued, with something in the last one, are the lines of the text. -/
theorem lines_glueLines {ls : List (List Char)} (feed : ∀ l ∈ ls, '\n' ∉ l) {c : Char}
    (hc : c ≠ '\n') (ending : (glueLines ls).getLast? = some c) (noReturn : '\r' ∉ glueLines ls) :
    lines (glueLines ls) = ls := by
  induction ls with
  | nil => rfl
  | cons l ls ih =>
    obtain ⟨first, others⟩ := List.forall_mem_cons.1 feed
    cases ls with
    | nil =>
      rw [glueLines_singleton] at ending ⊢
      exact lines_of_noFeed first fun nothing => by simp [nothing] at ending
    | cons next ls =>
      rw [glueLines_cons_cons] at ending noReturn ⊢
      rw [List.mem_append, List.mem_cons, not_or, not_or] at noReturn
      -- the text still ends in the same character when its first line is left out
      have behind : (glueLines (next :: ls)).getLast? = some c := by
        rw [List.getLast?_append_cons] at ending
        cases rest : glueLines (next :: ls) with
        | nil =>
          rw [rest, List.getLast?_singleton, Option.some.injEq] at ending
          exact absurd ending.symm hc
        | cons d rest' => rwa [rest, List.getLast?_cons_cons] at ending
      -- no carriage return is cut off the end of the first line
      have whole : l.getLast? ≠ some '\r' := fun return_ =>
        noReturn.1 (List.mem_of_getLast? return_)
      rw [lines_append_lineFeed first whole, ih others behind noReturn.2.2]

/-- A line shows in the text of its lines. -/
theorem subset_glueLines {ls : List (List Char)} {l : List Char} (h : l ∈ ls) :
    l ⊆ glueLines ls := by
  induction ls with
  | nil => cases h
  | cons first ls ih =>
    cases ls with
    | nil => simp_all
    | cons next ls =>
      rw [glueLines_cons_cons]
      rcases List.mem_cons.1 h with rfl | h
      · exact List.subset_append_left ..
      · exact fun c hc => List.mem_append_right _ (List.mem_cons_of_mem _ (ih h hc))

/-- The lines of a text without carriage returns, up to a line with a closing brace. -/
theorem lines_append_brace {cs : List Char} (noReturn : '\r' ∉ cs) :
    lines (cs ++ ['\n', '\x7d', '\n']) = cs.splitOn '\n' ++ [['\x7d']] := by
  have glued : glueLines (cs.splitOn '\n') = cs := by rw [glueLines, List.intercalate_splitOn]
  have whole : ∀ l ∈ cs.splitOn '\n', WholeLine l := by
    refine fun l hl => ⟨not_mem_of_mem_splitOn hl, fun return_ => noReturn ?_⟩
    exact glued ▸ subset_glueLines hl (List.mem_of_getLast? return_)
  have joined : cs ++ ['\n', '\x7d', '\n'] = joinLines (cs.splitOn '\n') ++ ['\x7d', '\n'] := by
    rw [joinLines_eq_glueLines (List.splitOn_ne_nil '\n' cs), glued, List.append_assoc]
    rfl
  rw [joined, lines_joinLines_append whole]
  rfl

/-- Minifying a text without carriage returns that ends in a line with a closing brace leaves
nothing to be minified. -/
theorem minify_minify_of_brace {css : String} {cs : List Char}
    (css_eq : css.toList = cs ++ ['\n', '\x7d', '\n']) (noReturn : '\r' ∉ css.toList) :
    minify (minify css) = minify css := by
  have feed : ∀ l ∈ cs.splitOn '\n', '\n' ∉ l := fun l => not_mem_of_mem_splitOn
  obtain ⟨ls, settled, ls_eq⟩ := (exists_settled feed).1
  have cs_noReturn : '\r' ∉ cs := fun return_ => noReturn (by simp [css_eq, return_])
  have minified : minifyLines none (lines css.toList) = glueLines ls := by
    rw [css_eq, lines_append_brace cs_noReturn, ls_eq]
  have kept : DropsBlanks css.toList (glueLines ls) :=
    minified ▸ (dropsBlanks_lines css.toList).trans
      (dropsBlanks_minifyLines none (lines css.toList))
  have ending : (glueLines ls).getLast? = some '\x7d' := by rw [← ls_eq, getLast?_minifyLines]
  have lines_eq : lines (glueLines ls) = ls :=
    lines_glueLines settled.noFeed (by decide) ending fun return_ =>
      noReturn (kept.sublist.subset return_)
  rw [minify, minify, minified, String.toList_ofList, lines_eq, settled.minifyLines_eq]

/-- Without the line with a brace there may be a blank left to lose. -/
example : minify (minify "a: : b;") ≠ minify "a: : b;" := by decide +kernel

/-! ## How generated text ends -/

/-- A text **ends with a block** if it is empty or ends in a line with a closing brace and nothing
else. -/
def EndsWithBlock (css : String) : Prop :=
  css = "" ∨ ∃ cs, css.toList = cs ++ ['\n', '\x7d', '\n']

/-- The empty text ends no block, and need not. -/
theorem endsWithBlock_empty : EndsWithBlock "" := .inl rfl

/-- Texts that end with a block do so when they follow each other. -/
theorem EndsWithBlock.append {css later : String} (h : EndsWithBlock css)
    (h' : EndsWithBlock later) : EndsWithBlock (css ++ later) := by
  rcases h' with rfl | ⟨cs, later_eq⟩
  · rwa [String.append_empty]
  · exact .inr ⟨css.toList ++ cs, by rw [String.toList_append, later_eq, List.append_assoc]⟩

/-- At the outermost level a node ends with a block. -/
theorem endsWithBlock_layout (node : Node) : EndsWithBlock (node.layout 0) := by
  obtain ⟨before, ne, lines_eq⟩ : ∃ before, before ≠ [] ∧ node.lines 0 = before ++ [['\x7d']] := by
    cases node with
    | rule selector declarations =>
      refine ⟨[] :: openingLine 0 selector :: declarations.map (Declaration.line 0), by simp, ?_⟩
      rw [Node.lines, List.cons_append, List.cons_append]
      rfl
    | media query body =>
      refine ⟨[] :: openingLine 0 query :: (linesOfNodes 1 body ++ [[]]), by simp, ?_⟩
      rw [Node.lines, List.cons_append, List.cons_append, List.append_assoc]
      rfl
  refine .inr ⟨glueLines before, ?_⟩
  rw [toList_layout, lines_eq, joinLines_append, joinLines_eq_glueLines ne, List.append_assoc]
  rfl

/-- Every layout at the outermost level ends with a block. -/
theorem endsWithBlock_layoutNodes (nodes : List Node) : EndsWithBlock (layoutNodes 0 nodes) := by
  induction nodes with
  | nil => exact endsWithBlock_empty
  | cons node rest ih =>
    rw [layoutNodes_cons]
    exact (endsWithBlock_layout node).append ih

/-- What a style map is compiled to ends with a block. -/
theorem endsWithBlock_compile {o : Options} {selector css : String} {styles : StyleMap}
    (h : compile o 0 selector styles = .ok css) : EndsWithBlock css := by
  obtain ⟨nodes, -, rfl⟩ := Result.map_eq_ok.1 h
  exact endsWithBlock_layoutNodes nodes

/-- The text of rules ends with a block. -/
theorem endsWithBlock_rulesText {o : Options} {rules : RuleSet} {css : String}
    (h : rulesText o 0 rules = .ok css) : EndsWithBlock css := by
  induction rules generalizing css with
  | nil =>
    cases h
    exact endsWithBlock_empty
  | cons rule rest ih =>
    obtain ⟨selector, styles⟩ := rule
    obtain ⟨text, later, htext, hlater, rfl⟩ := rulesText_cons_ok.1 h
    exact (endsWithBlock_compile htext).append (ih hlater)

/-- The frames of an animation are not at the outermost level, but their wrapper is. -/
theorem endsWithBlock_keyframesText {o : Options} {name css : String} {frames : RuleSet}
    (h : keyframesText o name frames = .ok css) : EndsWithBlock css := by
  obtain ⟨body, -, rfl⟩ := Result.map_eq_ok.1 h
  unfold wrapKeyframes
  split
  · exact endsWithBlock_empty
  · exact .inr ⟨("\n@keyframes " ++ name ++ " \x7b\n" ++ body).toList, by simp⟩

/-- A batch ends with a block if each of its entries does. -/
theorem Batch.Completes.endsWithBlock {α : Type} {w : EntryWriter α} {obfuscate : Bool}
    {r r' : Reservation} {entries : Table α} {made : Generated}
    (h : Batch.Completes w obfuscate r entries made r')
    (written : ∀ name entry css, w.text name entry = .ok css → EndsWithBlock css) :
    EndsWithBlock made.css := by
  induction h with
  | done r => exact endsWithBlock_empty
  | entry free named text later ih => exact (written _ _ _ text).append ih

/-- What a session makes of a section ends with a block, unless it is minified. -/
theorem Session.endsWithBlock_generate {s : Session} {styles : StyleSection} {made : Generated}
    (unminified : s.options.minify = false) (h : (s.generate styles).result = .ok made) :
    EndsWithBlock made.css := by
  have final (css : String) : finish s.options css = css := by simp [finish, unminified]
  have named {α : Type} {kind : NameKind} {w : EntryWriter α} {entries : Table α}
      (written : ∀ name entry css, w.text name entry = .ok css → EndsWithBlock css)
      (h : (s.generateNamed kind w entries).result = .ok made) : EndsWithBlock made.css := by
    obtain ⟨css, r, g, completes, css_eq, -⟩ := generateNamed_ok h
    rw [css_eq, final]
    exact completes.endsWithBlock written
  cases styles with
  | tags rules =>
    obtain ⟨css, hcss, rfl⟩ := Result.map_eq_ok.1 h
    rw [final]
    exact endsWithBlock_rulesText hcss
  | classes rules => exact named (fun _ _ _ => endsWithBlock_compile) h
  | animations frames => exact named (fun _ _ _ => endsWithBlock_keyframesText) h

/-- What a call makes of a section is minified at once: minifying it twice is minifying it once,
whatever selectors, values and names it is made of, as long as there is no carriage return. -/
theorem minify_generated_twice {s : Session} {styles : StyleSection} {made : Generated}
    (unminified : s.options.minify = false) (h : (s.generate styles).result = .ok made)
    (noReturn : '\r' ∉ made.css.toList) : minify (minify made.css) = minify made.css := by
  rcases Session.endsWithBlock_generate unminified h with nothing | ⟨cs, css_eq⟩
  · rw [nothing]
    rfl
  · exact minify_minify_of_brace css_eq noReturn

/-- A rule whose selector has two lines and whose value has three, the first of them with a
semicolon at its end and the second one with a brace. -/
theorem minify_generated_twice_lines :
    let s := Session.new (.sheet "") (.ofSeed 0)
    let styles : StyleSection := .tags [("a,\nb", [("content", .text "x: y;\n  \x7b\n: ;z")])]
    let made : Generated := ⟨[], "\na,\nb \x7b\n  content: x: y;\n  \x7b\n: ;z;\n\x7d\n"⟩
    s.options.minify = false ∧ (s.generate styles).result = .ok made ∧ '\r' ∉ made.css.toList ∧
      minify made.css = "a,\nb \x7b\n  content:x: y;\x7b:;z;\x7d" ∧
      minify (minify made.css) = minify made.css := by
  intro s styles made
  have unminified : s.options.minify = false := rfl
  have generated : (s.generate styles).result = .ok made := by decide +kernel
  have noReturn : '\r' ∉ made.css.toList := by decide +kernel
  exact ⟨unminified, generated, noReturn, by decide +kernel,
    minify_generated_twice unminified generated noReturn⟩

end StyleTree
