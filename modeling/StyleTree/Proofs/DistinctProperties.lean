import Mathlib.Data.List.Chain
import Mathlib.Data.Set.Function
import StyleTree.Proofs.Contribution
import StyleTree.Rule.Layout

/-! # Distinct properties

Spinal case can be undone where it marks every capital letter by a hyphen of its own. That is so for
names in **strict camelCase**: they have no hyphen, and every capital letter in them stands directly
behind a small one. So two such names that differ are different properties in the style sheet too.

* **`camelOfSpinal`** undoes spinal case: each hyphen gives way to the capital of what follows it.
* **`StrictCamel`** are the names of which nothing is lost, digits and foreign letters among them.
* **`strict_names_stay_distinct`** says so, of the names and of the declarations of a style map. -/

namespace StyleTree

/-! ## Undoing spinal case -/

/-- Characters in which every hyphen has given way to the capital of the character behind it. -/
def camelOfSpinalChars : List Char → List Char
  | [] => []
  | '-' :: c :: cs => c.toUpper :: camelOfSpinalChars cs
  | c :: cs => c :: camelOfSpinalChars cs

/-- The name in camelCase that a name in spinal case stands for. -/
def camelOfSpinal (name : String) : String := String.ofList (camelOfSpinalChars name.toList)

/-- A hyphen gives way to the capital of the character behind it. -/
@[simp] theorem camelOfSpinalChars_hyphen_cons (c : Char) (cs : List Char) :
    camelOfSpinalChars ('-' :: c :: cs) = c.toUpper :: camelOfSpinalChars cs := rfl

/-- Any other character stays. -/
theorem camelOfSpinalChars_cons_of_ne {c : Char} (h : c ≠ '-') (cs : List Char) :
    camelOfSpinalChars (c :: cs) = c :: camelOfSpinalChars cs := by
  rw [camelOfSpinalChars]
  exact fun _ _ hyphen => absurd hyphen h

/-- A name is in **strict camelCase** if it has no hyphen and every capital letter in it stands
directly behind a small letter. -/
structure StrictCamel (name : String) : Prop where
  /-- No character is a hyphen. -/
  unhyphenated : '-' ∉ name.toList
  /-- The first character is no capital letter. -/
  start : ∀ c ∈ name.toList.head?, c.isUpper = false
  /-- Of two characters in a row, the second is a capital letter only if the first is small. -/
  humps : name.toList.IsChain fun c d => d.isUpper → c.isLower

/-- What comes of strict camelCase in spinal case can be undone from any character on: a capital
letter has its hyphen, because what is remembered of the character before is that it is small. -/
theorem camelOfSpinalChars_spinalChars {cs : List Char} (unhyphenated : '-' ∉ cs)
    (humps : cs.IsChain fun c d => d.isUpper → c.isLower) {afterSmall : Bool}
    (start : ∀ c ∈ cs.head?, c.isUpper → afterSmall) :
    camelOfSpinalChars (spinalChars afterSmall cs) = cs := by
  induction cs generalizing afterSmall with
  | nil => rfl
  | cons c cs ih =>
    rw [List.mem_cons, not_or] at unhyphenated
    have later : camelOfSpinalChars (spinalChars c.isLower cs) = cs :=
      ih unhyphenated.2 humps.tail fun d hd => humps.rel_head? hd
    cases capital : c.isUpper with
    | true =>
      have small : afterSmall = true := start c rfl capital
      rw [small, spinalChars_true_cons, if_pos capital, camelOfSpinalChars_hyphen_cons, later,
        toUpper_toLower_of_isUpper capital]
    | false =>
      have kept : spinalChars afterSmall (c :: cs) = c :: spinalChars c.isLower cs := by
        simp [spinalChars, capital, toLower_of_not_isUpper capital]
      rw [kept, camelOfSpinalChars_cons_of_ne (Ne.symm unhyphenated.1), later]

/-- A name in strict camelCase is read back from its spinal case. -/
theorem StrictCamel.camelOfSpinal_spinalCase {name : String} (h : StrictCamel name) :
    camelOfSpinal (spinalCase name) = name := by
  have start : ∀ c ∈ name.toList.head?, c.isUpper → false := by
    intro c hc capital
    rw [h.start c hc] at capital
    exact capital
  rw [camelOfSpinal, toList_spinalCase, camelOfSpinalChars_spinalChars h.unhyphenated h.humps start,
    String.ofList_toList]

/-- No two names in strict camelCase have the same spinal case. -/
theorem injOn_spinalCase : Set.InjOn spinalCase {name | StrictCamel name} :=
  Set.LeftInvOn.injOn fun _ => StrictCamel.camelOfSpinal_spinalCase

/-! ## Single declarations -/

/-- An entry **declares once** if its key is a property without vendor prefixes and its value is no
map of sides. -/
structure Options.DeclaresOnce (o : Options) (key : String) (value : StyleValue) : Prop where
  /-- The key is not in the table of vendor prefixes. -/
  unprefixed : o.prefixesFor? key = none
  /-- The key is no nested selector. -/
  plain : key ∉ nestedSelectors
  /-- The key is no media query. -/
  query : isMediaQuery key = false
  /-- The value is no map. -/
  single : ∀ sides, value ≠ .map sides

/-- A value that is no map gives one declaration. -/
theorem declareProperty_of_not_map {value : StyleValue} (single : ∀ sides, value ≠ .map sides)
    (name property : String) :
    declareProperty name property value =
      (value.format property).map fun text => [⟨spinalCase name, text⟩] := by
  unfold declareProperty
  split
  · next sides => exact absurd rfl (single sides)
  · rw [declareSide, sideName, sideName]
    cases value.format property <;> rfl

/-- An entry that declares once, under a key without a hyphen, contributes one declaration. -/
theorem Options.DeclaresOnce.entryFragment_ok {o : Options} {selector key : String}
    {value : StyleValue} {f : Fragment} (h : o.DeclaresOnce key value)
    (unhyphenated : '-' ∉ key.toList)
    (contributed : entryFragment o selector (key, value) = .ok f) :
    ∃ text, value.format key = .ok text ∧ f = .ofDeclarations [⟨spinalCase key, text⟩] := by
  have camel : isHyphenated key = false := by simp [isHyphenated, hasHyphen, unhyphenated]
  rw [entryFragment, camel, role_of_unprefixed h.unprefixed h.plain h.query] at contributed
  dsimp only at contributed
  rw [declareEntry_nil, declareProperty_of_not_map h.single] at contributed
  obtain ⟨declarations, declared, rfl⟩ := Result.map_eq_ok.1 contributed
  obtain ⟨text, written, rfl⟩ := Result.map_eq_ok.1 declared
  exact ⟨text, written, rfl⟩

/-- A name in strict camelCase is read back from its spinal case, so no two of them have the same
spinal case. If a style map gives values other than maps to two such names that are properties
without vendor prefixes, then in its style sheet each of the two entries is one declaration, in its
place among those of the entries around it, and the properties of the two are different. -/
theorem strict_names_stay_distinct :
    (∀ name, StrictCamel name → camelOfSpinal (spinalCase name) = name) ∧
    Set.InjOn spinalCase {name | StrictCamel name} ∧
    ∀ (o : Options) (level : Nat) (selector : String) (before between after : StyleMap)
      (first second : String) (value value' : StyleValue),
      StrictCamel first → StrictCamel second → first ≠ second →
      o.DeclaresOnce first value → o.DeclaresOnce second value' →
      ∀ css, compile o level selector
          (before ++ (first, value) :: (between ++ (second, value') :: after)) = .ok css →
        ∃ f g h text text',
          entriesFragment o selector before = .ok f ∧
          entriesFragment o selector between = .ok g ∧
          entriesFragment o selector after = .ok h ∧
          value.format first = .ok text ∧ value'.format second = .ok text' ∧
          css = layoutNodes level
            (.rule selector
                (f.declarations ++ ⟨spinalCase first, text⟩ ::
                  (g.declarations ++ ⟨spinalCase second, text'⟩ :: h.declarations)) ::
              (f.nested ++ (g.nested ++ h.nested))) ∧
          spinalCase first ≠ spinalCase second := by
  refine ⟨fun name => StrictCamel.camelOfSpinal_spinalCase, injOn_spinalCase, ?_⟩
  intro o level selector before between after first second value value' strict strict' differ once
    once' css compiled
  obtain ⟨nodes, tree, rfl⟩ := Result.map_eq_ok.1 compiled
  rw [ruleTree, enclose_ok] at tree
  obtain ⟨-, whole, contributed, rfl⟩ := tree
  -- what the map contributes, taken apart at the first entry and then at the second
  obtain ⟨f, own, rest, hf, hown, hrest, rfl⟩ := entriesFragment_around_ok.1 contributed
  obtain ⟨g, own', h, hg, hown', hh, rfl⟩ := entriesFragment_around_ok.1 hrest
  obtain ⟨text, written, rfl⟩ := once.entryFragment_ok strict.unhyphenated hown
  obtain ⟨text', written', rfl⟩ := once'.entryFragment_ok strict'.unhyphenated hown'
  refine ⟨f, g, h, text, text', hf, hg, hh, written, written', ?_,
    fun same => differ (injOn_spinalCase strict strict' same)⟩
  rw [Fragment.close_of_declarations]
  · simp [Fragment.append, Fragment.ofDeclarations]
  · simp [Fragment.append, Fragment.ofDeclarations]

/-- Two names that differ in one capital letter only, on both sides of a nested selector and of a
property with sides. -/
theorem strict_names_stay_distinct_area :
    let o : Options := { vendorPrefixes := [("gridGap", ["ms"])] }
    let between : StyleMap :=
      [("gridGap", .map [("row", .text "0")]), ("hover", .map [("gridArea", .text "b")])]
    let styles : StyleMap :=
      ("gridArea", .text "a") :: (between ++ [("gridarea", .list [.text "c", .text "d"])])
    StrictCamel "gridArea" ∧ StrictCamel "gridarea" ∧
      camelOfSpinal "grid-area" = "gridArea" ∧
      compile o 0 "p" styles =
        .ok (layoutNodes 0 [.rule "p" [⟨"grid-area", "a"⟩, ⟨"-ms-grid-gap-row", "0"⟩,
          ⟨"grid-gap-row", "0"⟩, ⟨"gridarea", "c d"⟩], .rule "p:hover" [⟨"grid-area", "b"⟩]]) ∧
      "grid-area" ≠ "gridarea" := by
  intro o between styles
  have strict : StrictCamel "gridArea" := ⟨by decide, by simp, by decide⟩
  have strict' : StrictCamel "gridarea" := ⟨by decide, by simp, by decide⟩
  have once : o.DeclaresOnce "gridArea" (.text "a") :=
    ⟨by decide, by decide, by decide, by simp⟩
  have once' : o.DeclaresOnce "gridarea" (.list [.text "c", .text "d"]) :=
    ⟨by decide, by decide, by decide, by simp⟩
  have area : spinalCase "gridArea" = "grid-area" := by decide
  have area' : spinalCase "gridarea" = "gridarea" := by decide
  obtain ⟨back, -, apart⟩ := strict_names_stay_distinct
  obtain ⟨css, compiled⟩ : ∃ css, compile o 0 "p" styles = .ok css := ⟨_, rfl⟩
  obtain ⟨f, g, h, text, text', hf, hg, hh, written, written', rfl, differ⟩ :=
    apart o 0 "p" [] between [] _ _ _ _ strict strict' (by decide) once once' _ compiled
  have between_eq : entriesFragment o "p" between =
      .ok ⟨[⟨"-ms-grid-gap-row", "0"⟩, ⟨"grid-gap-row", "0"⟩],
        [.rule "p:hover" [⟨"grid-area", "b"⟩]]⟩ := rfl
  rw [entriesFragment_nil, Except.ok.injEq] at hf hh
  rw [between_eq, Except.ok.injEq] at hg
  cases hf
  cases hg
  cases hh
  cases written
  obtain rfl : "c d" = text' := Except.ok.inj written'
  have read := back _ strict
  rw [area] at read
  rw [area, area'] at compiled differ
  exact ⟨strict, strict', read, compiled, differ⟩

end StyleTree
