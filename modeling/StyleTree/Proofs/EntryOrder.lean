import StyleTree.Proofs.Faults

/-! # The order of entries

The entries of a style map that declare properties and those that nest style maps go to different
places: the former into the rule of the selector, the latter behind it. So it does not matter how
the two kinds are interleaved, only how the entries of each kind follow each other.

* **`StyleMap.declaring`** and **`StyleMap.nesting`** are the entries of either kind, in order.
* **`Rearranged`** relates style maps that differ in the interleaving alone, at any depth.
* **`compile_rearranged`** says that such style maps have the same text, or both have none. Their
  errors may differ, for the first fault of one need not be the first of the other. -/

namespace StyleTree

namespace StyleMap

/-- The entries of a style map that declare properties, in order. -/
def declaring (o : Options) (styles : StyleMap) : StyleMap :=
  styles.filter fun entry => o.Declares entry.1

/-- The entries of a style map that nest style maps, in order. -/
def nesting (o : Options) (styles : StyleMap) : StyleMap :=
  styles.filter fun entry => ¬ o.Declares entry.1

variable {o : Options} {entry : String × StyleValue}

@[simp] theorem declaring_nil (o : Options) : declaring o [] = [] := rfl

@[simp] theorem nesting_nil (o : Options) : nesting o [] = [] := rfl

/-- An entry that declares is among the declaring ones. -/
theorem declaring_cons_of_declares (h : o.Declares entry.1) (rest : StyleMap) :
    declaring o (entry :: rest) = entry :: declaring o rest :=
  List.filter_cons_of_pos (by simpa using h)

/-- An entry that declares is not among the nesting ones. -/
theorem nesting_cons_of_declares (h : o.Declares entry.1) (rest : StyleMap) :
    nesting o (entry :: rest) = nesting o rest :=
  List.filter_cons_of_neg (by simpa using h)

/-- An entry that nests is not among the declaring ones. -/
theorem declaring_cons_of_nests (h : ¬ o.Declares entry.1) (rest : StyleMap) :
    declaring o (entry :: rest) = declaring o rest :=
  List.filter_cons_of_neg (by simpa using h)

/-- An entry that nests is among the nesting ones. -/
theorem nesting_cons_of_nests (h : ¬ o.Declares entry.1) (rest : StyleMap) :
    nesting o (entry :: rest) = entry :: nesting o rest :=
  List.filter_cons_of_pos (by simpa using h)

end StyleMap

mutual

/-- One style map is the other one **rearranged**: the entries that declare properties are the same
and in the same order, and so are those that nest style maps, except that nested style maps may be
rearranged in turn. -/
inductive Rearranged (o : Options) : StyleMap → StyleMap → Prop
  /-- What stands between entries of the one kind, of the other kind, is of no account. -/
  | entries {styles styles' : StyleMap}
      (declaring : StyleMap.declaring o styles = StyleMap.declaring o styles')
      (nesting : RearrangedInside o (StyleMap.nesting o styles) (StyleMap.nesting o styles')) :
      Rearranged o styles styles'

/-- Entries are **rearranged inside**: they are the same but for nested style maps, some of which
are rearranged. -/
inductive RearrangedInside (o : Options) : StyleMap → StyleMap → Prop
  /-- There are no entries. -/
  | nil : RearrangedInside o [] []
  /-- The first entry is left as it is. -/
  | same (entry : String × StyleValue) {rest rest' : StyleMap}
      (later : RearrangedInside o rest rest') :
      RearrangedInside o (entry :: rest) (entry :: rest')
  /-- The style map that the first entry nests is rearranged. -/
  | inner {key : String} {styles styles' rest rest' : StyleMap} (nests : ¬ o.Declares key)
      (rearranged : Rearranged o styles styles') (later : RearrangedInside o rest rest') :
      RearrangedInside o ((key, .map styles) :: rest) ((key, .map styles') :: rest')

end

/-- Entries are rearranged inside also if nothing is. -/
theorem RearrangedInside.refl (o : Options) (styles : StyleMap) :
    RearrangedInside o styles styles := by
  induction styles with
  | nil => exact .nil
  | cons entry rest ih => exact .same entry ih

variable {o : Options} {selector key : String} {value : StyleValue} {f : Fragment}

/-- An entry that declares contributes declarations alone. -/
theorem nested_eq_nil_of_declares (declares : o.Declares key)
    (h : entryFragment o selector (key, value) = .ok f) : f.nested = [] := by
  obtain ⟨prefixes, role⟩ := role_of_declares declares
  rw [entryFragment, role] at h
  split at h
  · cases h
  · obtain ⟨declarations, -, rfl⟩ := Result.map_eq_ok.1 h
    rfl

/-- An entry that nests contributes nested nodes alone. -/
theorem declarations_eq_nil_of_nests (nests : ¬ o.Declares key)
    (h : entryFragment o selector (key, value) = .ok f) : f.declarations = [] := by
  rw [entryFragment] at h
  split at h
  · cases h
  · rcases role_of_nests nests with ⟨separator, role, -⟩ | ⟨role, -⟩
    · rw [role] at h
      obtain ⟨nodes, -, rfl⟩ := Result.map_eq_ok.1 h
      rfl
    · rw [role] at h
      obtain ⟨nodes, -, rfl⟩ := Result.map_eq_ok.1 h
      rfl

/-- What an entry that declares adds to the entries behind it. -/
theorem entriesFragment_cons_of_declares (declares : o.Declares key) {rest : StyleMap}
    {declarations : List Declaration} {nested : List Node} :
    entriesFragment o selector ((key, value) :: rest) = .ok ⟨declarations, nested⟩ ↔
      ∃ own later, entryFragment o selector (key, value) = .ok (.ofDeclarations own) ∧
        entriesFragment o selector rest = .ok ⟨later, nested⟩ ∧ own ++ later = declarations := by
  rw [entriesFragment_cons_ok]
  constructor
  · rintro ⟨g, h, first, behind, together⟩
    obtain ⟨rfl, nested_eq⟩ := Fragment.mk.inj together
    have none_nested := nested_eq_nil_of_declares declares first
    rw [none_nested, List.nil_append] at nested_eq
    refine ⟨g.declarations, h.declarations, ?_, nested_eq ▸ behind, rfl⟩
    rw [first, Fragment.ofDeclarations, ← none_nested]
  · rintro ⟨own, later, first, behind, rfl⟩
    exact ⟨_, _, first, behind, rfl⟩

/-- What an entry that nests adds to the entries behind it. -/
theorem entriesFragment_cons_of_nests (nests : ¬ o.Declares key) {rest : StyleMap}
    {declarations : List Declaration} {nested : List Node} :
    entriesFragment o selector ((key, value) :: rest) = .ok ⟨declarations, nested⟩ ↔
      ∃ own later, entryFragment o selector (key, value) = .ok (.ofNodes own) ∧
        entriesFragment o selector rest = .ok ⟨declarations, later⟩ ∧ own ++ later = nested := by
  rw [entriesFragment_cons_ok]
  constructor
  · rintro ⟨g, h, first, behind, together⟩
    obtain ⟨declarations_eq, rfl⟩ := Fragment.mk.inj together
    have none_declared := declarations_eq_nil_of_nests nests first
    rw [none_declared, List.nil_append] at declarations_eq
    refine ⟨g.nested, h.nested, ?_, declarations_eq ▸ behind, rfl⟩
    rw [first, Fragment.ofNodes, ← none_declared]
  · rintro ⟨own, later, first, behind, rfl⟩
    exact ⟨_, _, first, behind, rfl⟩

/-- Entries contribute if those of both kinds do on their own, the ones all declarations and the
others all nested nodes. -/
theorem entriesFragment_ok_iff_apart {entries : StyleMap} {declarations : List Declaration}
    {nested : List Node} :
    entriesFragment o selector entries = .ok ⟨declarations, nested⟩ ↔
      entriesFragment o selector (StyleMap.declaring o entries) = .ok ⟨declarations, []⟩ ∧
        entriesFragment o selector (StyleMap.nesting o entries) = .ok ⟨[], nested⟩ := by
  induction entries generalizing declarations nested with
  | nil => simp [Fragment.empty]
  | cons entry rest ih =>
    obtain ⟨key, value⟩ := entry
    by_cases declares : o.Declares key
    · -- the entry stands before those that declare, and not among the others
      rw [StyleMap.declaring_cons_of_declares declares, StyleMap.nesting_cons_of_declares declares,
        entriesFragment_cons_of_declares declares, entriesFragment_cons_of_declares declares]
      simp only [ih]
      constructor
      · rintro ⟨own, later, first, ⟨declared, nests⟩, together⟩
        exact ⟨⟨own, later, first, declared, together⟩, nests⟩
      · rintro ⟨⟨own, later, first, declared, together⟩, nests⟩
        exact ⟨own, later, first, ⟨declared, nests⟩, together⟩
    · rw [StyleMap.declaring_cons_of_nests declares, StyleMap.nesting_cons_of_nests declares,
        entriesFragment_cons_of_nests declares, entriesFragment_cons_of_nests declares]
      simp only [ih]
      constructor
      · rintro ⟨own, later, first, ⟨declared, nests⟩, together⟩
        exact ⟨declared, own, later, first, nests, together⟩
      · rintro ⟨declared, own, later, first, nests, together⟩
        exact ⟨own, later, first, ⟨declared, nests⟩, together⟩

/-- An entry that nests contributes whatever the style map in it contributes to. -/
theorem entryFragment_ok_congr (nests : ¬ o.Declares key) {styles styles' : StyleMap}
    (same : ∀ inner f, entriesFragment o inner styles = .ok f ↔
      entriesFragment o inner styles' = .ok f) :
    entryFragment o selector (key, .map styles) = .ok f ↔
      entryFragment o selector (key, .map styles') = .ok f := by
  -- all that an entry makes of its map is put into one block
  have nodes_iff (kind : NestedKind) (inner : String) (nodes : List Node) :
      nestedNodes o kind key inner (.map styles) = .ok nodes ↔
        nestedNodes o kind key inner (.map styles') = .ok nodes := by
    rw [nestedNodes, nestedNodes, enclose_ok, enclose_ok]
    simp only [same]
  rw [entryFragment, entryFragment]
  rcases role_of_nests nests with ⟨separator, role, -⟩ | ⟨role, -⟩
  · simp only [role]
    split
    · rfl
    · simp only [Result.map_eq_ok, nodes_iff]
  · simp only [role]
    split
    · rfl
    · simp only [Result.map_eq_ok, nodes_iff]

mutual

/-- Rearranged entries contribute the same, under every selector. -/
theorem Rearranged.entriesFragment_ok_iff {styles styles' : StyleMap}
    (h : Rearranged o styles styles') (selector : String) (f : Fragment) :
    entriesFragment o selector styles = .ok f ↔ entriesFragment o selector styles' = .ok f := by
  match h with
  | .entries declaring nesting =>
    rw [entriesFragment_ok_iff_apart, declaring, nesting.entriesFragment_ok_iff selector]
    exact entriesFragment_ok_iff_apart.symm

/-- Entries whose inner maps are rearranged contribute the same fragment, or neither list does. -/
theorem RearrangedInside.entriesFragment_ok_iff {entries entries' : StyleMap}
    (h : RearrangedInside o entries entries') (selector : String) (f : Fragment) :
    entriesFragment o selector entries = .ok f ↔ entriesFragment o selector entries' = .ok f := by
  match h with
  | .nil => rfl
  | .same entry later =>
    simp only [entriesFragment_cons_ok, later.entriesFragment_ok_iff selector]
  | .inner nests rearranged later =>
    simp only [entriesFragment_cons_ok, later.entriesFragment_ok_iff selector,
      entryFragment_ok_congr nests rearranged.entriesFragment_ok_iff]

end

/-- Style maps whose entries that declare follow each other alike, and whose entries that nest do
so too, have the same text, or both have none. The style maps nested in them, at any depth, may be
rearranged in the same way. -/
theorem compile_rearranged (o : Options) (level : Nat) (selector : String)
    (styles styles' : StyleMap) :
    (StyleMap.declaring o styles = StyleMap.declaring o styles' →
      StyleMap.nesting o styles = StyleMap.nesting o styles' →
      ∀ css, compile o level selector styles = .ok css ↔
        compile o level selector styles' = .ok css) ∧
    (Rearranged o styles styles' →
      ∀ css, compile o level selector styles = .ok css ↔
        compile o level selector styles' = .ok css) := by
  have of_rearranged (h : Rearranged o styles styles') (css : String) :
      compile o level selector styles = .ok css ↔ compile o level selector styles' = .ok css := by
    rw [compile, compile, ruleTree, ruleTree]
    simp only [Result.map_eq_ok, enclose_ok, h.entriesFragment_ok_iff]
  refine ⟨fun declaring nesting => ?_, of_rearranged⟩
  exact of_rearranged (.entries declaring (nesting ▸ .refl o _))

/-- A pseudo-class that has prefixes, and so declares, moves behind a nested selector and a media
query; then the style map of the nested selector is rearranged as well. -/
theorem compile_rearranged_focus :
    let o : Options := { vendorPrefixes := [("focus", ["old"])] }
    let query : String × StyleValue := ("@media print", .map [("color", .text "black")])
    let hover : StyleMap := [("top", .text "0"), ("before", .map [])]
    let hover' : StyleMap := [("before", .map []), ("top", .text "0")]
    let styles : StyleMap :=
      [("color", .text "red"), ("focus", .text "none"), ("hover", .map hover), query]
    let moved : StyleMap :=
      [("hover", .map hover), ("color", .text "red"), query, ("focus", .text "none")]
    let movedInside : StyleMap :=
      [("hover", .map hover'), ("color", .text "red"), query, ("focus", .text "none")]
    let css : String :=
      "\na \x7b\n  color: red;\n  -old-focus: none;\n  focus: none;\n\x7d\n" ++
        "\na:hover \x7b\n  top: 0;\n\x7d\n" ++
        "\n@media print \x7b\n\n  a \x7b\n    color: black;\n  \x7d\n\n\x7d\n"
    StyleMap.declaring o styles = StyleMap.declaring o moved ∧
      StyleMap.nesting o styles = StyleMap.nesting o moved ∧ Rearranged o styles movedInside ∧
      compile o 0 "a" moved = .ok css ∧ compile o 0 "a" movedInside = .ok css := by
  intro o query hover hover' styles moved movedInside css
  have color : o.Declares "color" := by decide
  have focus : o.Declares "focus" := by decide
  have top : o.Declares "top" := by decide
  have nests : ¬ o.Declares "hover" ∧ ¬ o.Declares "before" ∧ ¬ o.Declares "@media print" := by
    decide
  have declaring (inside : StyleMap) : StyleMap.declaring o styles = StyleMap.declaring o
      [("hover", .map inside), ("color", .text "red"), query, ("focus", .text "none")] := by
    simp [StyleMap.declaring, styles, query, color, focus, nests]
  have nesting_styles : StyleMap.nesting o styles = [("hover", .map hover), query] := by
    simp [StyleMap.nesting, styles, query, color, focus, nests]
  have nesting (inside : StyleMap) : StyleMap.nesting o
      [("hover", .map inside), ("color", .text "red"), query, ("focus", .text "none")] =
        [("hover", .map inside), query] := by
    simp [StyleMap.nesting, query, color, focus, nests]
  -- inside the block that is hovered over, an entry that declares changes place with one that nests
  have inner : Rearranged o hover hover' := by
    refine .entries ?_ ?_
    · simp [StyleMap.declaring, hover, hover', top, nests]
    · simp [StyleMap.nesting, hover, hover', top, nests, RearrangedInside.refl]
  have rearranged : Rearranged o styles movedInside := by
    refine .entries (declaring hover') ?_
    rw [nesting_styles, nesting hover']
    exact .inner nests.1 inner (.refl o [query])
  have same_nesting := nesting_styles.trans (nesting hover).symm
  have text : compile o 0 "a" styles = .ok css := by rfl
  refine ⟨declaring hover, same_nesting, rearranged, ?_, ?_⟩
  · exact ((compile_rearranged o 0 "a" styles moved).1 (declaring hover) same_nesting css).1 text
  · exact ((compile_rearranged o 0 "a" styles movedInside).2 rearranged css).1 text

end StyleTree
