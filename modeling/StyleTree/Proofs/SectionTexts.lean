import StyleTree.Proofs.MinifiedLines
import StyleTree.Proofs.StyleParts

/-! # Texts of sections

What the texts of rules, classes and animations are before they get their final form. They depend on
the vendor prefixes and on what becomes of empty blocks, and on no other option. If no string in
them has a line feed they are closed, so they are minified one by one as they are all together.

* **`Options.StyleAlike`** is the relation between options that give the same texts.
* **`RuleSet.NoLineFeed`** and **`KeyframeSet.NoLineFeed`** say that no string has a line feed.
* **`closedText_rulesText`**, **`closedText_classText`** and **`closedText_keyframesText`** are the
  texts, and **`Batch.Completes.closedText`** puts those of a batch together. -/

namespace StyleTree

/-! ## Options that matter -/

/-- Two options **style alike** if they differ neither in the vendor prefixes nor in what becomes of
empty blocks. -/
structure Options.StyleAlike (o o' : Options) : Prop where
  vendorPrefixes_eq : o'.vendorPrefixes = o.vendorPrefixes
  emptyBlocks_eq : o'.emptyBlocks = o.emptyBlocks

variable {o o' : Options}

/-- Options that style alike have the same parts for each style map, the same copies for each part,
and the same rule for each selector. -/
theorem compile_alike (h : o.StyleAlike o') (level : Nat) (selector : String)
    (styles : StyleMap) : compile o' level selector styles = compile o level selector styles := by
  cases query : isMediaQuery selector with
  | true =>
    rw [compile, compile, ruleTree_of_isMediaQuery o' query, ruleTree_of_isMediaQuery o query]
  | false =>
    have declares (key : String) : o'.Declares key ↔ o.Declares key := by
      rw [Options.Declares, Options.Declares, h.vendorPrefixes_eq]
    rw [compile_eq_map_parts query, compile_eq_map_parts query, partsOf_congr declares]
    simp only [prefixedParts_congr h.vendorPrefixes_eq, nodesOfParts_congr h.emptyBlocks_eq]

/-- Rules have the same text under options that are alike in style. -/
theorem rulesText_alike (h : o.StyleAlike o') (level : Nat) (rules : RuleSet) :
    rulesText o' level rules = rulesText o level rules := by
  induction rules with
  | nil => rfl
  | cons rule rest ih =>
    obtain ⟨selector, styles⟩ := rule
    rw [rulesText_cons, rulesText_cons, compile_alike h, ih]

/-- A class has the same text under options that are alike in style. -/
theorem classText_alike (h : o.StyleAlike o') : classText o' = classText o := by
  funext name styles
  exact compile_alike h 0 (classSelector name) styles

/-- Keyframes have the same text under options that are alike in style. -/
theorem keyframesText_alike (h : o.StyleAlike o') : keyframesText o' = keyframesText o := by
  funext name frames
  rw [keyframesText, keyframesText, rulesText_alike h]

/-! ## Strings of a section -/

/-- No string in a style map has a line feed. -/
def StyleMap.NoLineFeed (styles : StyleMap) : Prop :=
  ∀ s ∈ (StyleValue.map styles).strings, StyleTree.NoLineFeed s

/-- No selector and no string in the style maps of rules has a line feed. -/
def RuleSet.NoLineFeed (rules : RuleSet) : Prop :=
  ∀ rule ∈ rules, StyleTree.NoLineFeed rule.1 ∧ StyleMap.NoLineFeed rule.2

/-- No name of an animation and no string in its frames has a line feed. -/
def KeyframeSet.NoLineFeed (frames : KeyframeSet) : Prop :=
  ∀ animation ∈ frames, StyleTree.NoLineFeed animation.1 ∧ RuleSet.NoLineFeed animation.2

/-- No string in a section has a line feed. -/
def StyleSection.NoLineFeed : StyleSection → Prop
  | .tags rules => RuleSet.NoLineFeed rules
  | .classes rules => RuleSet.NoLineFeed rules
  | .animations frames => KeyframeSet.NoLineFeed frames

instance : DecidablePred StyleMap.NoLineFeed := fun styles =>
  inferInstanceAs (Decidable (∀ s ∈ (StyleValue.map styles).strings, StyleTree.NoLineFeed s))

instance : DecidablePred RuleSet.NoLineFeed := fun rules =>
  inferInstanceAs (Decidable (∀ rule ∈ rules, StyleTree.NoLineFeed rule.1 ∧ StyleMap.NoLineFeed _))

instance : DecidablePred KeyframeSet.NoLineFeed := fun frames =>
  inferInstanceAs
    (Decidable (∀ animation ∈ frames, StyleTree.NoLineFeed animation.1 ∧ RuleSet.NoLineFeed _))

instance : DecidablePred StyleSection.NoLineFeed
  | .tags rules => inferInstanceAs (Decidable (RuleSet.NoLineFeed rules))
  | .classes rules => inferInstanceAs (Decidable (RuleSet.NoLineFeed rules))
  | .animations frames => inferInstanceAs (Decidable (KeyframeSet.NoLineFeed frames))

/-- Letters and an underscore bring no line feed into a name. -/
theorem noLineFeed_of_namedAfter {obfuscate : Bool} {base name : String}
    (h : NamedAfter obfuscate base name) (hbase : NoLineFeed base) : NoLineFeed name :=
  not_mem_of_namedAfter h hbase (by decide) (by decide)

/-! ## Closed texts -/

/-- Without line feeds in it, a rule has closed lines. -/
theorem closedText_compile (ho : o.NoLineFeed) {level : Nat} {selector css : String}
    {styles : StyleMap} (hselector : NoLineFeed selector) (hstyles : StyleMap.NoLineFeed styles)
    (h : compile o level selector styles = .ok css) : ClosedText css := by
  obtain ⟨nodes, tree, rfl⟩ := Result.map_eq_ok.1 h
  exact closedText_layoutNodes level (noLineFeed_of_ruleTree ho hselector hstyles tree)

/-- Without line feeds in them, rules have closed lines. -/
theorem closedText_rulesText (ho : o.NoLineFeed) {level : Nat} {rules : RuleSet} {css : String}
    (hrules : RuleSet.NoLineFeed rules) (h : rulesText o level rules = .ok css) :
    ClosedText css := by
  induction rules generalizing css with
  | nil =>
    cases h
    exact closedText_empty
  | cons rule rest ih =>
    obtain ⟨selector, styles⟩ := rule
    obtain ⟨first, others⟩ := List.forall_mem_cons.1 hrules
    obtain ⟨text, later, htext, hlater, rfl⟩ := rulesText_cons_ok.1 h
    exact (closedText_compile ho first.1 first.2 htext).append (ih others hlater)

/-- Without line feeds in it, a class has closed lines. -/
theorem closedText_classText (ho : o.NoLineFeed) {name css : String} {styles : StyleMap}
    (hname : NoLineFeed name) (hstyles : StyleMap.NoLineFeed styles)
    (h : classText o name styles = .ok css) : ClosedText css :=
  closedText_compile ho (noLineFeed_append.2 ⟨by decide, hname⟩) hstyles h

/-- The wrapper of an animation has the lines of a block. -/
theorem closedText_wrapKeyframes {name body : String} (hname : NoLineFeed name)
    (hbody : ClosedText body) : ClosedText (wrapKeyframes name body) := by
  have head : NoLineFeed ("@keyframes " ++ name) := noLineFeed_append.2 ⟨by decide, hname⟩
  obtain ⟨ls, body_eq, closed⟩ := hbody
  have blank : WholeLine [] ∧ ClosedLine [] := ⟨wholeLine_blanks 0, closedLine_blanks 0⟩
  have opening : WholeLine (openingLine 0 ("@keyframes " ++ name)) ∧
      ClosedLine (openingLine 0 ("@keyframes " ++ name)) :=
    ⟨wholeLine_openingLine head 0, closedLine_openingLine 0 _⟩
  have ending : WholeLine (endLine 0) ∧ ClosedLine (endLine 0) :=
    ⟨wholeLine_endLine 0, closedLine_endLine 0⟩
  unfold wrapKeyframes
  split
  · exact closedText_empty
  · refine ⟨[] :: openingLine 0 ("@keyframes " ++ name) :: (ls ++ [[], endLine 0]), ?_, ?_⟩
    · simp [joinLines_cons, joinLines_append, openingLine, endLine, indentation, body_eq]
    · simp only [List.forall_mem_cons, List.forall_mem_append]
      exact ⟨blank, opening, closed, blank, ending, by simp⟩

/-- Without line feeds in them, keyframes have closed lines. -/
theorem closedText_keyframesText (ho : o.NoLineFeed) {name css : String} {frames : RuleSet}
    (hname : NoLineFeed name) (hframes : RuleSet.NoLineFeed frames)
    (h : keyframesText o name frames = .ok css) : ClosedText css := by
  obtain ⟨body, hbody, rfl⟩ := Result.map_eq_ok.1 h
  exact closedText_wrapKeyframes hname (closedText_rulesText ho hframes hbody)

namespace Batch

variable {α : Type} {w w' : EntryWriter α} {obfuscate : Bool} {r r' : Reservation}
  {entries : Table α} {made : Generated}

/-- The text of a batch is closed if those of its entries are. -/
theorem Completes.closedText {fits : α → Prop} (h : Completes w obfuscate r entries made r')
    (written : ∀ name entry css, NoLineFeed name → fits entry → w.text name entry = .ok css →
      ClosedText css)
    (hentries : ∀ entry ∈ entries, NoLineFeed entry.1 ∧ fits entry.2) : ClosedText made.css := by
  induction h with
  | done r => exact closedText_empty
  | entry free named text later ih =>
    obtain ⟨first, others⟩ := List.forall_mem_cons.1 hentries
    have name := noLineFeed_of_namedAfter named first.1
    exact (written _ _ _ name first.2 text).append (ih others)

/-- What a batch makes and the letters it draws do not depend on its events. -/
theorem run_of_text_eq (h : w'.text = w.text) (obfuscate : Bool) (r : Reservation) (g : Generator)
    (entries : Table α) :
    (run w' obfuscate r g entries).result = (run w obfuscate r g entries).result ∧
      (run w' obfuscate r g entries).generator = (run w obfuscate r g entries).generator := by
  induction entries generalizing r g with
  | nil => exact ⟨rfl, rfl⟩
  | cons head rest ih =>
    obtain ⟨base, entry⟩ := head
    simp only [run, h]
    cases (r.issue obfuscate base g).name with
    | error e => exact ⟨rfl, rfl⟩
    | ok name =>
      cases hcss : w.text name entry with
      | error e => simp [hcss]
      | ok css =>
        obtain ⟨result_eq, generator_eq⟩ :=
          ih (r.issue obfuscate base g).reservation (r.issue obfuscate base g).generator
        simp only [hcss, prepend, result_eq, generator_eq, and_self]

end Batch

end StyleTree
