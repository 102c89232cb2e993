import Mathlib.Data.List.Basic
import StyleTree.Minify

/-! # Characters that minifying leaves out

Minifying copies characters in their order and leaves some of them out, all of them blank. This
holds of every text, whether or not it is a style sheet: of declarations that never end, of lines
after a carriage return, of braces that match nothing.

* **`DropsBlanks`** is the relation between a text and what is left of it without some blanks.
* **`dropsBlanks_lines`** puts the lines of a text together again.
* **`dropsBlanks_minifyLines`** minifies them, with the part of a declaration that is carried from
  line to line standing before them.
* **`minify_deletes_only_blanks`** is both together. -/

namespace StyleTree

/-! ## Texts without some blanks -/

/-- The second text is the first one without some of its blank characters. -/
inductive DropsBlanks : List Char → List Char → Prop
  | nil : DropsBlanks [] []
  /-- A character stays, whatever it is. -/
  | keep (c : Char) {cs ds : List Char} : DropsBlanks cs ds → DropsBlanks (c :: cs) (c :: ds)
  /-- A blank character goes. -/
  | drop {c : Char} {cs ds : List Char} : isBlank c → DropsBlanks cs ds → DropsBlanks (c :: cs) ds

namespace DropsBlanks

variable {cs ds es fs : List Char}

/-- Nothing need be dropped. -/
@[refl] theorem refl (cs : List Char) : DropsBlanks cs cs := by
  induction cs with
  | nil => exact .nil
  | cons c cs ih => exact .keep c ih

/-- Blanks dropped in two goes are blanks dropped. -/
theorem trans (h : DropsBlanks cs ds) (h' : DropsBlanks ds es) : DropsBlanks cs es := by
  induction h generalizing es with
  | nil => exact h'
  | keep c _ ih =>
    cases h' with
    | keep _ h' => exact .keep c (ih h')
    | drop blank h' => exact .drop blank (ih h')
  | drop blank _ ih => exact .drop blank (ih h')

/-- Blanks are dropped from each of two texts that follow each other. -/
theorem append (h : DropsBlanks cs ds) (h' : DropsBlanks es fs) :
    DropsBlanks (cs ++ es) (ds ++ fs) := by
  induction h with
  | nil => exact h'
  | keep c _ ih => exact .keep c ih
  | drop blank _ ih => exact .drop blank ih

/-- Blanks can go all at once. -/
theorem of_blanks (h : ∀ c ∈ cs, isBlank c) : DropsBlanks cs [] := by
  induction cs with
  | nil => exact .nil
  | cons c cs ih =>
    obtain ⟨first, others⟩ := List.forall_mem_cons.1 h
    exact .drop first (ih others)

/-- Blanks before a text can go. -/
theorem blanks_append (hcs : ∀ c ∈ cs, isBlank c) (h : DropsBlanks ds es) :
    DropsBlanks (cs ++ ds) es :=
  (of_blanks hcs).append h

/-- Blanks behind a text can go. -/
theorem append_blanks (h : DropsBlanks cs ds) (hes : ∀ c ∈ es, isBlank c) :
    DropsBlanks (cs ++ es) ds := by
  simpa using h.append (of_blanks hes)

/-- What is left is in order. -/
theorem sublist (h : DropsBlanks cs ds) : ds.Sublist cs := by
  induction h with
  | nil => exact .slnil
  | keep c _ ih => exact ih.cons_cons c
  | drop _ _ ih => exact ih.cons _

/-- Every character that is not blank is left. -/
theorem filter_visible (h : DropsBlanks cs ds) :
    ds.filter (fun c => !isBlank c) = cs.filter (fun c => !isBlank c) := by
  induction h with
  | nil => rfl
  | keep c _ ih => rw [List.filter_cons, List.filter_cons, ih]
  | drop blank _ ih => rw [ih, List.filter_cons_of_neg (by simp [blank])]

end DropsBlanks

/-! ## Trimming -/

/-- What is trimmed from the front of a line is blank. -/
theorem isBlank_of_mem_takeWhile {cs : List Char} : ∀ c ∈ cs.takeWhile isBlank, isBlank c :=
  List.all_eq_true.1 List.all_takeWhile

/-- Trimming the front of a line drops blanks only. -/
theorem dropsBlanks_trimStart (cs : List Char) : DropsBlanks cs (trimStart cs) := by
  have left := DropsBlanks.blanks_append (@isBlank_of_mem_takeWhile cs) (.refl (trimStart cs))
  rwa [takeWhile_append_trimStart] at left

/-- Trimming the end of a line drops blanks only. -/
theorem dropsBlanks_trimEnd (cs : List Char) : DropsBlanks cs (trimEnd cs) := by
  have whole : trimEnd cs ++ (cs.reverse.takeWhile isBlank).reverse = cs := by
    rw [trimEnd, ← List.reverse_append, List.takeWhile_append_dropWhile, List.reverse_reverse]
  have blanks : ∀ c ∈ (cs.reverse.takeWhile isBlank).reverse, isBlank c :=
    fun c hc => isBlank_of_mem_takeWhile c (List.mem_reverse.1 hc)
  have left := (DropsBlanks.refl (trimEnd cs)).append_blanks blanks
  rwa [whole] at left

/-- Trimming a line drops blanks only. -/
theorem dropsBlanks_trim (cs : List Char) : DropsBlanks cs (trim cs) :=
  (dropsBlanks_trimStart cs).trans (dropsBlanks_trimEnd (trimStart cs))

/-- The blank behind a colon is all that a compact declaration loses. -/
theorem dropsBlanks_compactDeclaration (text : List Char) :
    DropsBlanks text (compactDeclaration text) := by
  fun_induction compactDeclaration text with
  | case1 value => exact .keep ':' (.drop (by decide) (.refl value))
  | case2 c rest _ ih => exact .keep c ih
  | case3 => exact .nil

/-! ## Lines put together again -/

/-- Lines with a line feed between each two of them. -/
def glueLines (ls : List (List Char)) : List Char := ['\n'].intercalate ls

@[simp] theorem glueLines_nil : glueLines [] = [] := rfl

@[simp] theorem glueLines_singleton (l : List Char) : glueLines [l] = l :=
  List.intercalate_singleton

/-- The first of several lines keeps its line feed. -/
theorem glueLines_cons {ls : List (List Char)} (h : ls ≠ []) (l : List Char) :
    glueLines (l :: ls) = l ++ '\n' :: glueLines ls := by
  obtain ⟨next, later, rfl⟩ := List.exists_cons_of_ne_nil h
  rw [glueLines, List.intercalate_cons_cons, List.append_assoc, List.singleton_append, glueLines]

theorem glueLines_cons_cons (l next : List Char) (ls : List (List Char)) :
    glueLines (l :: next :: ls) = l ++ '\n' :: glueLines (next :: ls) :=
  glueLines_cons (List.cons_ne_nil next ls) l

/-- A line that is longer at its front makes a text that is longer at its front. -/
theorem glueLines_append_cons (cs l : List Char) (ls : List (List Char)) :
    glueLines ((cs ++ l) :: ls) = cs ++ glueLines (l :: ls) := by
  cases ls with
  | nil => simp
  | cons next later => simp [glueLines_cons_cons]

/-- Two lines that a line feed has already joined are glued no further. -/
theorem glueLines_joined (l next : List Char) (ls : List (List Char)) :
    glueLines ((l ++ '\n' :: next) :: ls) = glueLines (l :: next :: ls) := by
  rw [glueLines_append_cons, glueLines_cons_cons]
  exact congrArg (l ++ ·) (glueLines_append_cons ['\n'] next ls)

namespace DropsBlanks

variable {l ds es : List Char} {ls : List (List Char)}

/-- Where a line is minified apart from those behind it, the line feed between them goes. -/
theorem glueLines_cons_apart (h : DropsBlanks l ds) (h' : DropsBlanks (glueLines ls) es) :
    DropsBlanks (glueLines (l :: ls)) (ds ++ es) := by
  cases ls with
  | nil => simpa using h.append h'
  | cons next later =>
    rw [glueLines_cons_cons]
    exact h.append (.drop (by decide) h')

/-- Where a line is carried on, the line feed behind it stays. -/
theorem glueLines_cons_on (h : DropsBlanks l ds) :
    DropsBlanks (glueLines (l :: ls)) (glueLines (ds :: ls)) := by
  cases ls with
  | nil => simpa using h
  | cons next later =>
    rw [glueLines_cons_cons, glueLines_cons_cons]
    exact h.append (.refl _)

end DropsBlanks

/-- Splitting a text into lines loses the carriage returns before line feeds, and the line feed at
its end. -/
theorem dropsBlanks_lines (cs : List Char) : DropsBlanks cs (glueLines (lines cs)) := by
  -- a line feed is kept unless nothing follows it
  have feed {rest : List Char} (ih : DropsBlanks rest (glueLines (lines rest))) :
      DropsBlanks ('\n' :: rest) (glueLines ([] :: lines rest)) := by
    cases later : lines rest with
    | nil =>
      rw [later] at ih
      exact .drop (by decide) ih
    | cons next ls =>
      rw [later] at ih
      rw [glueLines_cons_cons]
      exact .keep '\n' ih
  fun_induction lines cs with
  | case1 => exact .nil
  | case2 rest ih => exact feed ih
  | case3 rest ih => exact .drop (by decide) (feed ih)
  | case4 c rest _ _ nothing ih =>
    rw [nothing] at ih
    simpa using ih.keep c
  | case5 c rest _ _ line later split ih =>
    rw [split] at ih
    exact glueLines_append_cons [c] line later ▸ ih.keep c

/-! ## Lines minified -/

/-- The characters of a line that its kind keeps. -/
def LineKind.text : LineKind → List Char
  | .blank => []
  | .header head => head ++ ['\x7b']
  | .closing => ['\x7d']
  | .declaration text => text
  | .opening text => text

/-- What a line is keeps all of it but blanks at its ends, and before a brace at its end. -/
theorem dropsBlanks_ofLine (line : List Char) : DropsBlanks line (LineKind.ofLine line).text := by
  have trimmed := dropsBlanks_trim line
  unfold LineKind.ofLine
  dsimp only
  split
  · next nothing => rwa [List.getLast?_eq_none_iff.1 nothing] at trimmed
  · next brace =>
    have head := (dropsBlanks_trimEnd (trim line).dropLast).append (.refl ['\x7b'])
    rw [List.dropLast_append_getLast? '\x7b' brace] at head
    exact trimmed.trans head
  · exact trimmed
  · split
    · next alone => rwa [alone] at trimmed
    · exact dropsBlanks_trimStart line

/-- What a line is taken for has the text of the line, blanks apart. -/
theorem dropsBlanks_of_kind {line : List Char} {kind : LineKind}
    (h : LineKind.ofLine line = kind) : DropsBlanks line kind.text :=
  h ▸ dropsBlanks_ofLine line

/-- Minifying lines leaves out blanks only. What is carried of a declaration counts as a line before
them: its blanks at the front are gone already, and it has its line feeds. -/
theorem dropsBlanks_minifyLines (carried : Option (List Char)) (ls : List (List Char)) :
    DropsBlanks (glueLines (carried.toList ++ ls)) (minifyLines carried ls) := by
  fun_induction minifyLines carried ls with
  | case1 => exact .nil
  | case2 declaration => simpa using DropsBlanks.refl declaration
  | case3 line rest kind ih => exact (dropsBlanks_of_kind kind).glueLines_cons_apart ih
  | case4 line rest head kind ih =>
    simpa [LineKind.text] using (dropsBlanks_of_kind kind).glueLines_cons_apart ih
  | case5 line rest kind ih => exact (dropsBlanks_of_kind kind).glueLines_cons_apart ih
  | case6 line rest text kind ih =>
    have compact := (dropsBlanks_of_kind kind).trans (dropsBlanks_compactDeclaration text)
    exact compact.glueLines_cons_apart ih
  | case7 line rest text kind ih =>
    -- the declaration is open, and its line feed with it
    exact (dropsBlanks_of_kind kind).glueLines_cons_on.trans ih
  | case8 line rest declaration longer ending ih =>
    rw [Option.toList_some, List.singleton_append, ← glueLines_joined]
    exact (dropsBlanks_compactDeclaration longer).glueLines_cons_apart ih
  | case9 line rest declaration longer ending ih =>
    rw [Option.toList_some, List.singleton_append, ← glueLines_joined]
    exact ih

/-- Minifying deletes white space and nothing else. Whatever the text is, the minified text consists
of characters of it in their order, every character that is left out is white space, and so the
characters that are not white space are the same in both, as often and in the same order. -/
theorem minify_deletes_only_blanks (css : String) :
    DropsBlanks css.toList (minify css).toList ∧
    (minify css).toList.Sublist css.toList ∧
    (minify css).toList.filter (fun c => !isBlank c) =
      css.toList.filter (fun c => !isBlank c) := by
  have left : DropsBlanks css.toList (minify css).toList := by
    rw [minify, String.toList_ofList]
    exact (dropsBlanks_lines css.toList).trans (dropsBlanks_minifyLines none (lines css.toList))
  exact ⟨left, left.sublist, left.filter_visible⟩

end StyleTree
