import StyleTree.Proofs.StyleParts

/-! # Vendor prefixes only add copies

A table of vendor prefixes that turns no nested selector and no media query into a property changes
nothing about a rule tree but its runs of declarations: each run whose key is in the table gets a
copy of the whole run for each prefix before it, in the order of the prefixes.

* **`partsOf_withoutPrefixes`** says that the parts are those without the table.
* **`vendorPrefixes_add_copies`** compares the rule trees, and the texts. -/

namespace StyleTree

/-- The options without vendor prefixes. -/
def Options.withoutPrefixes (o : Options) : Options := { o with vendorPrefixes := [] }

/-- A table of vendor prefixes is **plain** if no key in it names a nested selector or media query. -/
def Options.PlainPrefixes (o : Options) : Prop :=
  ∀ key ∈ Table.keys o.vendorPrefixes, key ∉ nestedSelectors ∧ isMediaQuery key = false

instance : DecidablePred Options.PlainPrefixes := fun o =>
  inferInstanceAs
    (Decidable (∀ key ∈ Table.keys o.vendorPrefixes,
      key ∉ nestedSelectors ∧ isMediaQuery key = false))

variable {o : Options}

/-- A plain table makes no key declare that would not do so anyway. -/
theorem declares_withoutPrefixes_iff (h : o.PlainPrefixes) (key : String) :
    o.withoutPrefixes.Declares key ↔ o.Declares key := by
  constructor
  · rintro (listed | plain)
    · cases listed
    · exact .inr plain
  · rintro (listed | plain)
    · exact .inr (h key listed)
    · exact .inr plain

/-- A plain table changes no part of a style map. -/
theorem partsOf_withoutPrefixes (h : o.PlainPrefixes) (styles : StyleMap) :
    partsOf o.withoutPrefixes styles = partsOf o styles :=
  partsOf_congr (declares_withoutPrefixes_iff h) styles

/-- With a plain table of vendor prefixes a style map fails with the same error as without the
table, or its parts make both rule trees: the one without the table as they are, and the one with
the table when each run of declarations in them is replaced, where it stands, by its copies and
itself. The texts are those of the two trees. -/
theorem vendorPrefixes_add_copies (h : o.PlainPrefixes) (level : Nat) (selector : String)
    (styles : StyleMap) :
    (∃ e, compile o.withoutPrefixes level selector styles = .error e ∧
        compile o level selector styles = .error e) ∨
      ∃ parts, partsOf o.withoutPrefixes styles = .ok parts ∧
        ruleTree o.withoutPrefixes selector styles =
          .ok (nodesOfParts o.withoutPrefixes selector parts) ∧
        ruleTree o selector styles =
          .ok (nodesOfParts o.withoutPrefixes selector (prefixedParts o parts)) ∧
        compile o.withoutPrefixes level selector styles =
          .ok (layoutNodes level (nodesOfParts o.withoutPrefixes selector parts)) ∧
        compile o level selector styles =
          .ok (layoutNodes level
            (nodesOfParts o.withoutPrefixes selector (prefixedParts o parts))) := by
  cases query : isMediaQuery selector with
  | true =>
    refine .inl ⟨.misplacedMediaQuery selector, ?_, ?_⟩
    · rw [compile, ruleTree_of_isMediaQuery _ query]
      rfl
    · rw [compile, ruleTree_of_isMediaQuery _ query]
      rfl
  | false =>
    have same := partsOf_withoutPrefixes h styles
    cases made : partsOf o.withoutPrefixes styles with
    | error e =>
      rw [made] at same
      refine .inl ⟨e, ?_, ?_⟩
      · rw [compile_eq_map_parts query, made]
        rfl
      · rw [compile_eq_map_parts query, ← same]
        rfl
    | ok parts =>
      rw [made] at same
      have plain : prefixedParts o.withoutPrefixes parts = parts :=
        prefixedParts_of_no_prefixes rfl parts
      -- what becomes of empty blocks has nothing to do with the table
      have policy : o.emptyBlocks = o.withoutPrefixes.emptyBlocks := rfl
      have nodes : nodesOfParts o selector (prefixedParts o parts) =
          nodesOfParts o.withoutPrefixes selector (prefixedParts o parts) :=
        nodesOfParts_congr policy selector _
      have plainTree : ruleTree o.withoutPrefixes selector styles =
          .ok (nodesOfParts o.withoutPrefixes selector parts) := by
        rw [ruleTree_eq_map_parts query, made, Except.map, plain]
      have prefixedTree : ruleTree o selector styles =
          .ok (nodesOfParts o.withoutPrefixes selector (prefixedParts o parts)) := by
        rw [ruleTree_eq_map_parts query, ← same, Except.map, nodes]
      refine .inr ⟨parts, rfl, plainTree, prefixedTree, ?_, ?_⟩
      · rw [compile, plainTree]
        rfl
      · rw [compile, prefixedTree]
        rfl

/-- Two prefixes, the second in camelCase, for a property with two sides and the same property in a
nested selector. -/
theorem vendorPrefixes_add_copies_sides :
    let o : Options := { vendorPrefixes := [("scrollMargin", ["webkit", "oldMoz"])] }
    let styles : StyleMap :=
      [("color", .text "red"), ("scrollMargin", .map [("vertical", .text "1em")]),
        ("hover", .map [("scrollMargin", .text "0")])]
    o.PlainPrefixes ∧
      ruleTree o.withoutPrefixes "p" styles =
        .ok [.rule "p" [⟨"color", "red"⟩, ⟨"scroll-margin-top", "1em"⟩,
            ⟨"scroll-margin-bottom", "1em"⟩],
          .rule "p:hover" [⟨"scroll-margin", "0"⟩]] ∧
      ruleTree o "p" styles =
        .ok [.rule "p" [⟨"color", "red"⟩,
            ⟨"-webkit-scroll-margin-top", "1em"⟩, ⟨"-webkit-scroll-margin-bottom", "1em"⟩,
            ⟨"-old-moz-scroll-margin-top", "1em"⟩, ⟨"-old-moz-scroll-margin-bottom", "1em"⟩,
            ⟨"scroll-margin-top", "1em"⟩, ⟨"scroll-margin-bottom", "1em"⟩],
          .rule "p:hover" [⟨"-webkit-scroll-margin", "0"⟩, ⟨"-old-moz-scroll-margin", "0"⟩,
            ⟨"scroll-margin", "0"⟩]] := by
  intro o styles
  have plain : o.PlainPrefixes := by decide
  obtain ⟨parts, made⟩ : ∃ parts, partsOf o.withoutPrefixes styles = .ok parts := ⟨_, rfl⟩
  rcases vendorPrefixes_add_copies plain 0 "p" styles with
    ⟨e, failed, -⟩ | ⟨parts', made', plainTree, prefixedTree, -, -⟩
  · rw [compile_eq_map_parts (by decide), made] at failed
    cases failed
  · obtain rfl : parts' = [.run "color" [⟨"color", "red"⟩],
        .run "scrollMargin" [⟨"scroll-margin-top", "1em"⟩, ⟨"scroll-margin-bottom", "1em"⟩],
        .nested ":hover" [.run "scrollMargin" [⟨"scroll-margin", "0"⟩]]] :=
      Except.ok.inj (made'.symm.trans rfl)
    exact ⟨plain, plainTree, prefixedTree⟩

end StyleTree
