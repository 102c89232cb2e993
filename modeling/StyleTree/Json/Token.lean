import StyleTree.Decimal.Numeral

/-! # Tokens of JSON text

JSON text is a sequence of **tokens** with white space between them: the six punctuation marks, the
three words, numerals and string literals. A string literal may name a UTF-16 surrogate that has no
partner; such a literal is well formed but denotes no text, so its token holds `none`.

* **`Token.scanString?`** reads a literal into pieces, **`Token.textOf?`** joins the pieces.
* **`Token.ofText?`** reads a whole text; it fails at the first character that starts no token. -/

namespace StyleTree

namespace Json

/-- A token. -/
inductive Token
  | openArray
  | closeArray
  | openObject
  | closeObject
  | comma
  | colon
  | null
  | bool (b : Bool)
  | number (n : Numeral)
  /-- A string literal, `none` if it denotes no text. -/
  | string (text : Option String)
deriving DecidableEq, Repr

/-- A part of a string literal: a character, or a UTF-16 code unit written as four hexadecimal
digits. -/
inductive Piece
  | char (c : Char)
  | unit (u : Nat)
deriving DecidableEq, Repr

namespace Token

/-- The characters between tokens. -/
def isSpace (c : Char) : Bool := c == ' ' || c == '\t' || c == '\n' || c == '\r'

/-- The value of a hexadecimal digit. -/
def hexDigit? (c : Char) : Option Nat :=
  if '0' ≤ c ∧ c ≤ '9' then some (c.toNat - '0'.toNat)
  else if 'a' ≤ c ∧ c ≤ 'f' then some (c.toNat - 'a'.toNat + 10)
  else if 'A' ≤ c ∧ c ≤ 'F' then some (c.toNat - 'A'.toNat + 10)
  else none

/-- The code unit that four hexadecimal digits denote. -/
def hexUnit? (a b c d : Char) : Option Nat := do
  let a ← hexDigit? a
  let b ← hexDigit? b
  let c ← hexDigit? c
  let d ← hexDigit? d
  pure (((a * 16 + b) * 16 + c) * 16 + d)

/-- The character that a letter after a backslash denotes. -/
def escaped? : Char → Option Char
  | '"' => some '"'
  | '\\' => some '\\'
  | '/' => some '/'
  | 'b' => some '\x08'
  | 'f' => some '\x0c'
  | 'n' => some '\n'
  | 'r' => some '\r'
  | 't' => some '\t'
  | _ => none

/-- The pieces of a string literal up to its closing quote, after those already read, and the rest
of the text. Control characters have to be escaped. -/
def scanString? (done : List Piece) : List Char → Option (List Piece × List Char)
  | [] => none
  | '"' :: rest => some (done.reverse, rest)
  | '\\' :: 'u' :: a :: b :: c :: d :: rest =>
    match hexUnit? a b c d with
    | some u => scanString? (.unit u :: done) rest
    | none => none
  | '\\' :: letter :: rest =>
    match escaped? letter with
    | some c => scanString? (.char c :: done) rest
    | none => none
  | c :: rest => if c.toNat < 0x20 then none else scanString? (.char c :: done) rest

/-- Whether a code unit is the first of a surrogate pair. -/
def isHighSurrogate (u : Nat) : Bool := 0xD800 ≤ u && u ≤ 0xDBFF

/-- Whether a code unit is the second of a surrogate pair. -/
def isLowSurrogate (u : Nat) : Bool := 0xDC00 ≤ u && u ≤ 0xDFFF

/-- The character of a surrogate pair. -/
def pairChar (high low : Nat) : Char :=
  Char.ofNat (0x10000 + (high - 0xD800) * 0x400 + (low - 0xDC00))

/-- The text that the pieces of a literal denote: surrogates have to come in pairs. -/
def textOf? : List Piece → Option (List Char)
  | [] => some []
  | .char c :: rest => (textOf? rest).map (c :: ·)
  -- the two units of a pair have to be written directly after one another
  | .unit u :: .unit v :: rest =>
    if isHighSurrogate u && isLowSurrogate v then (textOf? rest).map (pairChar u v :: ·)
    else if isHighSurrogate u || isLowSurrogate u then none
    else (textOf? (.unit v :: rest)).map (Char.ofNat u :: ·)
  | .unit u :: rest =>
    if isHighSurrogate u || isLowSurrogate u then none
    else (textOf? rest).map (Char.ofNat u :: ·)

/-- The rest of a text after a word, if it starts with the word. -/
def skipWord? : List Char → List Char → Option (List Char)
  | [], cs => some cs
  | w :: ws, c :: cs => if w = c then skipWord? ws cs else none
  | _ :: _, [] => none

/-- The token that starts with a character, and the rest of the text. -/
def scan? (c : Char) (rest : List Char) : Option (Token × List Char) :=
  match c with
  | '[' => some (.openArray, rest)
  | ']' => some (.closeArray, rest)
  | '\x7b' => some (.openObject, rest)
  | '\x7d' => some (.closeObject, rest)
  | ',' => some (.comma, rest)
  | ':' => some (.colon, rest)
  | 'n' => (skipWord? ['u', 'l', 'l'] rest).map (.null, ·)
  | 't' => (skipWord? ['r', 'u', 'e'] rest).map (.bool true, ·)
  | 'f' => (skipWord? ['a', 'l', 's', 'e'] rest).map (.bool false, ·)
  | '"' => (scanString? [] rest).map fun (pieces, rest) =>
      (.string ((textOf? pieces).map String.ofList), rest)
  | c => (Numeral.scan? (c :: rest)).map fun (n, rest) => (.number n, rest)

/-- What follows a word is no longer than the text. -/
theorem skipWord?_length {ws cs rest : List Char} (h : skipWord? ws cs = some rest) :
    rest.length ≤ cs.length := by
  fun_induction skipWord? ws cs with
  | case1 cs => cases h; exact Nat.le_refl _
  | case2 ws c cs ih => exact Nat.le_succ_of_le (ih h)
  | case3 | case4 => cases h

/-- What follows a string is no longer than the text. -/
theorem scanString?_length {done pieces : List Piece} {cs rest : List Char}
    (h : scanString? done cs = some (pieces, rest)) : rest.length ≤ cs.length := by
  fun_induction scanString? done cs with
  | case2 =>
    cases h
    exact Nat.le_succ _
  | case3 done a b c d cs u hu ih =>
    have := ih h
    simp only [List.length_cons]
    omega
  | case5 done letter cs hne c hc ih =>
    have := ih h
    simp only [List.length_cons]
    omega
  | case8 done c cs h₁ h₂ h₃ hc ih => exact Nat.le_succ_of_le (ih h)
  | case1 | case4 | case6 | case7 => cases h

/-- What is left after a token is no longer than what follows its first character. -/
theorem scan?_length {c : Char} {cs rest : List Char} {token : Token}
    (h : scan? c cs = some (token, rest)) : rest.length ≤ cs.length := by
  unfold scan? at h
  split at h <;>
    simp only [Option.some.injEq, Option.map_eq_some_iff, Prod.mk.injEq, Prod.exists] at h
  case h_7 | h_8 | h_9 =>
    obtain ⟨r, hr, -, rfl⟩ := h
    exact skipWord?_length hr
  case h_10 =>
    obtain ⟨pieces, r, hr, -, rfl⟩ := h
    exact scanString?_length hr
  case h_11 =>
    obtain ⟨n, r, hr, -, rfl⟩ := h
    exact Nat.le_of_lt_succ (Numeral.scan?_length hr)
  all_goals
    obtain ⟨-, rfl⟩ := h
    exact Nat.le_refl _

/-- The tokens of a text, after those already read. -/
def scanAll? (done : Array Token) (cs : List Char) : Option (Array Token) :=
  match cs with
  | [] => some done
  | c :: rest =>
    if isSpace c then scanAll? done rest
    else
      match _h : scan? c rest with
      | none => none
      | some (token, rest') => scanAll? (done.push token) rest'
termination_by cs.length
decreasing_by
  · exact Nat.lt_succ_self _
  · exact Nat.lt_succ_of_le (scan?_length ‹_›)

/-- The tokens of a text. -/
def ofText? (text : String) : Option (List Token) :=
  (scanAll? #[] text.toList).map Array.toList

end Token

end Json

end StyleTree
