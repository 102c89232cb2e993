import StyleTree.Proofs.Contribution
import StyleTree.Proofs.Outcomes
import StyleTree.Proofs.WritableValues

/-! # Well-formed style maps and first faults

Which style maps have a text, and which error the others end in, both said without the making of
rules. A key **declares** a property or **nests** a style map; a well-formed map has only keys in
camelCase, values that can be declared where they are declared, and well-formed maps where these are
nested. Otherwise some entry is the first, in depth-first order, that has a fault of its own.

* **`StyleMap.WellFormed`** is the one side, **`FaultAt`** the other: the position of the first
  fault, as the indices of the entries that lead to it, and its error.
* **`StyleMap.upTo`** cuts a map off behind a position; only what is left decides about the error.
* **`compile_ok_iff_wellFormed`** is the main result. -/

namespace StyleTree

/-! ## Keys -/

/-- A key **declares** a property if it is in the table of vendor prefixes, or neither a nested
selector nor a media query. Every other key nests a style map. -/
def Options.Declares (o : Options) (key : String) : Prop :=
  key ∈ Table.keys o.vendorPrefixes ∨ key ∉ nestedSelectors ∧ isMediaQuery key = false

/-- What a key that nests a style map is called in errors. -/
def nestedKind (key : String) : NestedKind :=
  if key ∈ nestedSelectors then .selector else .mediaQuery

/-- A key is in **camelCase**, as far as it needs to be: only media queries may have a hyphen. -/
def CamelCase (key : String) : Prop := isMediaQuery key = false → '-' ∉ key.toList

instance (o : Options) : DecidablePred o.Declares := fun key =>
  inferInstanceAs (Decidable (key ∈ Table.keys o.vendorPrefixes ∨ _))

instance : DecidablePred CamelCase := fun key =>
  inferInstanceAs (Decidable (isMediaQuery key = false → _))

/-- A key is accepted as it is if it is a media query or has no hyphen. -/
theorem isHyphenated_eq_false_iff {key : String} : isHyphenated key = false ↔ CamelCase key := by
  cases h : isMediaQuery key <;> simp [isHyphenated, CamelCase, hasHyphen, h]

/-- A key has prefixes if and only if it is in the table. -/
theorem prefixesFor?_eq_none_iff {o : Options} {key : String} :
    o.prefixesFor? key = none ↔ key ∉ Table.keys o.vendorPrefixes := by
  rw [Options.prefixesFor?, Table.find?, List.lookup_eq_none_iff, Table.keys, List.mem_map]
  simp only [bne_iff_ne, ne_eq, not_exists, not_and]
  exact forall₂_congr fun entry _ => not_congr eq_comm

/-- The role of a key that declares is that of a property. -/
theorem role_of_declares {o : Options} {key : String} (h : o.Declares key) :
    ∃ prefixes, o.role key = .property prefixes := by
  unfold Options.role
  cases hprefixes : o.prefixesFor? key with
  | some prefixes => exact ⟨prefixes, rfl⟩
  | none =>
    obtain ⟨plain, query⟩ := h.resolve_left (prefixesFor?_eq_none_iff.1 hprefixes)
    exact ⟨[], by simp [selectorSeparator?, plain, query]⟩

/-- The role of a key that nests is that of a selector or of a media query. -/
theorem role_of_nests {o : Options} {key : String} (h : ¬ o.Declares key) :
    (∃ separator, o.role key = .selector separator ∧ nestedKind key = .selector) ∨
      o.role key = .mediaQuery ∧ nestedKind key = .mediaQuery := by
  rw [Options.Declares, not_or] at h
  obtain ⟨unlisted, nested⟩ := h
  rw [Options.role, prefixesFor?_eq_none_iff.2 unlisted]
  by_cases hkey : key ∈ nestedSelectors
  · refine .inl ⟨if key ∈ pseudoElements then "::" else ":", ?_, ?_⟩
    · simp [selectorSeparator?, hkey]
    · simp [nestedKind, hkey]
  · have query : isMediaQuery key = true := by simpa [hkey] using nested
    refine .inr ⟨?_, ?_⟩
    · simp [selectorSeparator?, hkey, query]
    · simp [nestedKind, hkey]

/-- A key declares if and only if it has the role of a property. -/
theorem declares_iff_role {o : Options} {key : String} :
    o.Declares key ↔ ∃ prefixes, o.role key = .property prefixes := by
  constructor
  · exact role_of_declares
  · rintro ⟨prefixes, role⟩
    by_cases declares : o.Declares key
    · exact declares
    · rcases role_of_nests declares with ⟨separator, other, -⟩ | ⟨other, -⟩
      · simp [role] at other
      · simp [role] at other

/-- A key with the role of a selector nests and is called one. -/
theorem nests_of_role_selector {o : Options} {key separator : String}
    (h : o.role key = .selector separator) : ¬ o.Declares key ∧ nestedKind key = .selector := by
  have nests : ¬ o.Declares key := by simp [declares_iff_role, h]
  rcases role_of_nests nests with ⟨-, -, kind⟩ | ⟨other, -⟩
  · exact ⟨nests, kind⟩
  · simp [h] at other

/-- A key with the role of a media query nests and is called one. -/
theorem nests_of_role_mediaQuery {o : Options} {key : String} (h : o.role key = .mediaQuery) :
    ¬ o.Declares key ∧ nestedKind key = .mediaQuery := by
  have nests : ¬ o.Declares key := by simp [declares_iff_role, h]
  rcases role_of_nests nests with ⟨separator, other, -⟩ | ⟨-, kind⟩
  · simp [h] at other
  · exact ⟨nests, kind⟩

/-! ## Well-formed maps and faults -/

/-- An entry is **well-formed** under options. -/
inductive WellFormedEntry (o : Options) : String × StyleValue → Prop
  /-- A property has a value that can be declared. -/
  | property {key : String} {value : StyleValue} (camel : CamelCase key)
      (declares : o.Declares key) (declarable : value.Declarable) : WellFormedEntry o (key, value)
  /-- A nested selector or a media query has a map of well-formed entries. -/
  | nested {key : String} {entries : List (String × StyleValue)} (camel : CamelCase key)
      (nests : ¬ o.Declares key) (inner : ∀ entry ∈ entries, WellFormedEntry o entry) :
      WellFormedEntry o (key, .map entries)

/-- A style map is **well-formed** if all its entries are. -/
def StyleMap.WellFormed (o : Options) (styles : StyleMap) : Prop :=
  ∀ entry ∈ styles, WellFormedEntry o entry

/-- The **fault** that an entry has by itself, whatever is nested in it. -/
inductive OwnFault (o : Options) : String × StyleValue → Error → Prop
  /-- The key has a hyphen. -/
  | hyphen {key : String} {value : StyleValue} (noQuery : isMediaQuery key = false)
      (hyphen : '-' ∈ key.toList) : OwnFault o (key, value) (.hyphenatedProperty key)
  /-- The value cannot be declared. -/
  | value {key : String} {value : StyleValue} {e : Error} (camel : CamelCase key)
      (declares : o.Declares key) (fault : ValueFault key value e) : OwnFault o (key, value) e
  /-- The value should be a map. -/
  | noMap {key : String} {value : StyleValue} (camel : CamelCase key) (nests : ¬ o.Declares key)
      (noMap : ∀ entries, value ≠ .map entries) :
      OwnFault o (key, value) (.expectedMap (nestedKind key) key)

/-- The **first fault** of a style map: its error, and its position as the indices of the entries
that lead to it from the outside in. All entries before it are well-formed. -/
inductive FaultAt (o : Options) (e : Error) : List Nat → StyleMap → Prop
  /-- An entry of the map itself is at fault. -/
  | here {before after : StyleMap} {entry : String × StyleValue}
      (sound : StyleMap.WellFormed o before) (fault : OwnFault o entry e) :
      FaultAt o e [before.length] (before ++ entry :: after)
  /-- The fault is in a nested map. -/
  | inside {before after entries : StyleMap} {key : String} {position : List Nat}
      (sound : StyleMap.WellFormed o before) (camel : CamelCase key) (nests : ¬ o.Declares key)
      (inner : FaultAt o e position entries) :
      FaultAt o e (before.length :: position) (before ++ (key, .map entries) :: after)

/-- The entries up to a position: what stands behind it, at any depth, is cut off. -/
def StyleMap.upTo : List Nat → StyleMap → StyleMap
  | [], _ => []
  | [index], styles => styles.take (index + 1)
  | index :: position, styles =>
    styles.take index ++
      match styles[index]? with
      | some (key, .map entries) => [(key, .map (upTo position entries))]
      | _ => []

variable {o : Options} {e : Error} {selector : String}

/-- A fault is at some entry. -/
theorem FaultAt.position_ne_nil {position : List Nat} {styles : StyleMap}
    (h : FaultAt o e position styles) : position ≠ [] := by
  cases h <;> simp

/-- A sound entry put before them leaves entries with their first fault. -/
theorem FaultAt.cons {position : List Nat} {styles : StyleMap} {entry : String × StyleValue}
    (h : FaultAt o e position styles) (sound : WellFormedEntry o entry) :
    ∃ position, FaultAt o e position (entry :: styles) := by
  cases h with
  | @here before after faulty earlier fault =>
    exact ⟨[(entry :: before).length], .here (List.forall_mem_cons.2 ⟨sound, earlier⟩) fault⟩
  | @inside before after entries key position earlier camel nests inner =>
    exact ⟨(entry :: before).length :: position,
      .inside (List.forall_mem_cons.2 ⟨sound, earlier⟩) camel nests inner⟩

mutual

/-- A map is well-formed, or there is a first fault. -/
theorem wellFormed_or_faultAt (o : Options) (styles : StyleMap) :
    StyleMap.WellFormed o styles ∨ ∃ e position, FaultAt o e position styles := by
  match styles with
  | [] => exact .inl (by simp [StyleMap.WellFormed])
  | entry :: rest =>
    rcases wellFormedEntry_or_faultAt o entry with sound | faulty
    · rcases wellFormed_or_faultAt o rest with others | ⟨e, position, fault⟩
      · exact .inl (List.forall_mem_cons.2 ⟨sound, others⟩)
      · exact .inr ⟨e, fault.cons sound⟩
    · exact .inr (faulty rest)

/-- An entry is well-formed, or the first fault of every map that starts with it is in it. -/
theorem wellFormedEntry_or_faultAt (o : Options) (entry : String × StyleValue) :
    WellFormedEntry o entry ∨ ∀ rest, ∃ e position, FaultAt o e position (entry :: rest) := by
  have none_before : StyleMap.WellFormed o [] := by simp [StyleMap.WellFormed]
  match entry with
  | (key, value) =>
    by_cases camel : CamelCase key
    · by_cases declares : o.Declares key
      · rcases declarable_or_fault key value with declarable | ⟨e, fault⟩
        · exact .inl (.property camel declares declarable)
        · exact .inr fun rest => ⟨e, _, .here none_before (.value camel declares fault)⟩
      · rcases nestedMap_or_noMap o value with
          ⟨entries, rfl, sound | ⟨e, position, fault⟩⟩ | noMap
        · exact .inl (.nested camel declares sound)
        · exact .inr fun rest => ⟨e, _, .inside none_before camel declares fault⟩
        · exact .inr fun rest => ⟨_, _, .here none_before (.noMap camel declares noMap)⟩
    · obtain ⟨noQuery, hyphen⟩ := Classical.not_imp.1 camel
      exact .inr fun rest =>
        ⟨_, _, .here none_before (.hyphen noQuery (Classical.not_not.1 hyphen))⟩

/-- The value of something nested is a map that is well-formed, a map with a fault, or no map. -/
theorem nestedMap_or_noMap (o : Options) (value : StyleValue) :
    (∃ entries, value = .map entries ∧
      (StyleMap.WellFormed o entries ∨ ∃ e position, FaultAt o e position entries)) ∨
      ∀ entries, value ≠ .map entries := by
  match value with
  | .map entries => exact .inl ⟨entries, rfl, wellFormed_or_faultAt o entries⟩
  | .number x => exact .inr (by simp)
  | .text s => exact .inr (by simp)
  | .list items => exact .inr (by simp)

end

/-- Only what is left when a map is cut off behind its first fault decides that it has this fault
there. -/
theorem FaultAt.of_upTo {position : List Nat} {styles later : StyleMap}
    (h : FaultAt o e position styles)
    (same : StyleMap.upTo position later = StyleMap.upTo position styles) :
    FaultAt o e position later := by
  -- induction on the position of the fault, the other map being arbitrary at each depth
  induction h generalizing later with
  | @here before after entry sound fault =>
    have taken : later.take (before.length + 1) = before ++ [entry] := by
      rw [StyleMap.upTo, StyleMap.upTo] at same
      rw [same, List.append_cons, List.take_left' (by simp)]
    have later_eq : later = before ++ entry :: later.drop (before.length + 1) := by
      rw [List.append_cons, ← taken, List.take_append_drop]
    rw [later_eq]
    exact .here sound fault
  | @inside before after entries key position sound camel nests inner ih =>
    have upTo_cons (styles : StyleMap) : StyleMap.upTo (before.length :: position) styles =
        styles.take before.length ++
          match styles[before.length]? with
          | some (key, .map entries) => [(key, .map (StyleMap.upTo position entries))]
          | _ => [] := by
      obtain ⟨index, position, rfl⟩ := List.exists_cons_of_ne_nil inner.position_ne_nil
      rfl
    have entry_eq : (before ++ (key, .map entries) :: after)[before.length]? =
        some (key, .map entries) := by
      simp
    rw [upTo_cons, upTo_cons, List.take_left, entry_eq] at same
    -- one entry has to come behind the first ones, and it has to be a nested map
    have too_short : later.take before.length ≠
        before ++ [(key, .map (StyleMap.upTo position entries))] := by
      intro e
      have length_eq := congrArg List.length e
      simp at length_eq
      omega
    split at same
    · next key' entries' at_eq =>
      obtain ⟨short, get_eq⟩ := List.getElem?_eq_some_iff.1 at_eq
      have length_eq : (later.take before.length).length = before.length :=
        List.length_take_of_le (Nat.le_of_lt short)
      obtain ⟨before_eq, last_eq⟩ := List.append_inj same length_eq
      simp only [List.cons.injEq, Prod.mk.injEq, StyleValue.map.injEq, and_true] at last_eq
      obtain ⟨rfl, inner_eq⟩ := last_eq
      have later_eq : later =
          before ++ (key', .map entries') :: later.drop (before.length + 1) := by
        calc later
          _ = later.take before.length ++ later.drop before.length :=
            (List.take_append_drop before.length later).symm
          _ = _ := by rw [before_eq, List.drop_eq_getElem_cons short, get_eq]
      rw [later_eq]
      exact .inside sound camel nests (ih inner_eq)
    · exact absurd (by simpa using same) too_short

/-! ## Compiling -/

/-- A nested selector is a media query only if the selector around it is one. -/
theorem isMediaQuery_nestedSelector {key separator : String}
    (proper : isMediaQuery selector = false) (listed : selectorSeparator? key = some separator) :
    isMediaQuery (selector ++ separator ++ spinalCase key) = false := by
  obtain ⟨colons, separator_eq⟩ := exists_colons listed
  rw [isMediaQuery, ← Bool.not_eq_true, List.isPrefixOf_iff_prefix] at proper ⊢
  intro query
  have colon : selector.toList ++ [':'] <+:
      (selector ++ separator ++ spinalCase key).toList := by
    simp [separator_eq]
  -- the mark of media queries has no colon, so it would have to lie in the selector
  rcases List.prefix_or_prefix_of_prefix query colon with inside | beyond
  · rcases List.prefix_concat_iff.1 inside with mark_eq | inside
    · have colon_mem : ':' ∈ mediaMark := by simp [mark_eq]
      exact absurd colon_mem (by decide)
    · exact proper inside
  · have colon_mem : ':' ∈ mediaMark := beyond.subset (by simp)
    exact absurd colon_mem (by decide)

/-- A key that nests leads to the styles nested in it, under a selector that is as proper as the one
around it. -/
theorem entryFragment_of_nests {key : String} (camel : CamelCase key) (nests : ¬ o.Declares key)
    (proper : isMediaQuery selector = false) :
    ∃ (inner : String) (enter : List Node → Fragment), isMediaQuery inner = false ∧
      ∀ value, entryFragment o selector (key, value) =
        (nestedNodes o (nestedKind key) key inner value).map enter := by
  have hyphen := isHyphenated_eq_false_iff.2 camel
  rcases role_of_nests nests with ⟨separator, role, kind⟩ | ⟨role, kind⟩
  · have listed := selectorSeparator?_of_role role
    refine ⟨selector ++ separator ++ spinalCase key, .ofNodes,
      isMediaQuery_nestedSelector proper listed, fun value => ?_⟩
    rw [entryFragment, hyphen, role, kind]
    rfl
  · refine ⟨selector, fun nodes => .ofNodes [.media key nodes], proper, fun value => ?_⟩
    rw [entryFragment, hyphen, role, kind]
    rfl

/-- A key that declares leads to its declarations. -/
theorem entryFragment_of_declares {key : String} (camel : CamelCase key)
    (declares : o.Declares key) :
    ∃ prefixes, ∀ value, entryFragment o selector (key, value) =
      (declareEntry prefixes key value).map .ofDeclarations := by
  obtain ⟨prefixes, role⟩ := role_of_declares declares
  refine ⟨prefixes, fun value => ?_⟩
  rw [entryFragment, isHyphenated_eq_false_iff.2 camel, role]
  rfl

/-- Entries contribute if each of them does. -/
theorem exists_entriesFragment {entries : StyleMap}
    (h : ∀ entry ∈ entries, ∃ f, entryFragment o selector entry = .ok f) :
    ∃ f, entriesFragment o selector entries = .ok f := by
  induction entries with
  | nil => exact ⟨_, entriesFragment_nil o selector⟩
  | cons entry rest ih =>
    obtain ⟨⟨f, hf⟩, others⟩ := List.forall_mem_cons.1 h
    obtain ⟨g, hg⟩ := ih others
    exact ⟨f.append g, entriesFragment_cons_ok.2 ⟨f, g, hf, hg, rfl⟩⟩

/-- A well-formed entry contributes, under every selector proper. -/
theorem WellFormedEntry.exists_entryFragment {entry : String × StyleValue}
    (h : WellFormedEntry o entry) (proper : isMediaQuery selector = false) :
    ∃ f, entryFragment o selector entry = .ok f := by
  induction h generalizing selector with
  | @property key value camel declares declarable =>
    obtain ⟨prefixes, entry_eq⟩ := entryFragment_of_declares camel declares
    obtain ⟨declarations, declared⟩ := declareEntry_of_declarable declarable prefixes key
    exact ⟨_, by rw [entry_eq, declared]; rfl⟩
  | @nested key entries camel nests inner ih =>
    obtain ⟨longer, enter, proper', entry_eq⟩ := entryFragment_of_nests camel nests proper
    obtain ⟨f, hf⟩ := exists_entriesFragment fun entry hentry => ih entry hentry proper'
    have closed : ruleTree o longer entries = .ok (f.close o longer) := by
      rw [ruleTree_of_not_isMediaQuery o proper', hf]
      rfl
    exact ⟨_, by rw [entry_eq, nestedNodes_map, closed]; rfl⟩

/-- A well-formed style map contributes something. -/
theorem StyleMap.WellFormed.exists_entriesFragment {styles : StyleMap}
    (h : StyleMap.WellFormed o styles) (proper : isMediaQuery selector = false) :
    ∃ f, entriesFragment o selector styles = .ok f :=
  StyleTree.exists_entriesFragment fun entry hentry => (h entry hentry).exists_entryFragment proper

/-- An entry with a fault of its own fails with it. -/
theorem OwnFault.entryFragment_eq {entry : String × StyleValue} (h : OwnFault o entry e)
    (proper : isMediaQuery selector = false) : entryFragment o selector entry = .error e := by
  cases h with
  | @hyphen key value noQuery hyphen =>
    have hyphenated : isHyphenated key = true := by
      simp [isHyphenated, noQuery, hasHyphen, hyphen]
    rw [entryFragment, if_pos hyphenated]
  | @value key value _ camel declares fault =>
    obtain ⟨prefixes, entry_eq⟩ := @entryFragment_of_declares o selector key camel declares
    rw [entry_eq, declareEntry_of_fault fault]
    rfl
  | @noMap key value camel nests noMap =>
    obtain ⟨inner, enter, -, entry_eq⟩ := entryFragment_of_nests camel nests proper
    rw [entry_eq]
    match value with
    | .map entries => exact absurd rfl (noMap entries)
    | .number x => simp [nestedNodes, Except.map]
    | .text s => simp [nestedNodes, Except.map]
    | .list items => simp [nestedNodes, Except.map]

/-- The first entry that fails decides, whatever follows it. -/
theorem entriesFragment_of_first_error {before after : StyleMap} {entry : String × StyleValue}
    (sound : StyleMap.WellFormed o before) (proper : isMediaQuery selector = false)
    (failed : entryFragment o selector entry = .error e) :
    entriesFragment o selector (before ++ entry :: after) = .error e := by
  obtain ⟨f, hf⟩ := sound.exists_entriesFragment proper
  rw [entriesFragment_append, hf, entriesFragment_cons, failed]
  rfl

/-- A map fails with its first fault, under every selector proper. -/
theorem FaultAt.entriesFragment_eq {position : List Nat} {styles : StyleMap}
    (h : FaultAt o e position styles) (proper : isMediaQuery selector = false) :
    entriesFragment o selector styles = .error e := by
  induction h generalizing selector with
  | here sound fault =>
    exact entriesFragment_of_first_error sound proper (fault.entryFragment_eq proper)
  | @inside before after entries key position sound camel nests inner ih =>
    refine entriesFragment_of_first_error sound proper ?_
    obtain ⟨longer, enter, proper', entry_eq⟩ := entryFragment_of_nests camel nests proper
    rw [entry_eq, nestedNodes_map, ruleTree_of_not_isMediaQuery o proper', ih proper']
    rfl

/-- Entries contribute if and only if their map is well-formed. -/
theorem exists_entriesFragment_iff {styles : StyleMap} (proper : isMediaQuery selector = false) :
    (∃ f, entriesFragment o selector styles = .ok f) ↔ StyleMap.WellFormed o styles := by
  constructor
  · rintro ⟨f, hf⟩
    rcases wellFormed_or_faultAt o styles with sound | ⟨e, position, fault⟩
    · exact sound
    · simp [fault.entriesFragment_eq proper] at hf
  · intro sound
    exact sound.exists_entriesFragment proper

/-- Entries fail with an error if and only if it is that of the first fault of their map. -/
theorem entriesFragment_error_iff {styles : StyleMap} (proper : isMediaQuery selector = false) :
    entriesFragment o selector styles = .error e ↔ ∃ position, FaultAt o e position styles := by
  constructor
  · intro failed
    rcases wellFormed_or_faultAt o styles with sound | ⟨e', position, fault⟩
    · obtain ⟨f, hf⟩ := sound.exists_entriesFragment proper
      simp [hf] at failed
    · rw [fault.entriesFragment_eq proper] at failed
      obtain rfl : e' = e := Except.error.inj failed
      exact ⟨position, fault⟩
  · rintro ⟨position, fault⟩
    exact fault.entriesFragment_eq proper

/-- No fault of a map is about a misplaced media query. -/
theorem FaultAt.ne_misplacedMediaQuery {position : List Nat} {styles : StyleMap}
    (h : FaultAt o e position styles) (query : String) : e ≠ .misplacedMediaQuery query := by
  induction h with
  | here sound fault =>
    cases fault with
    | hyphen noQuery hyphen => simp
    | value camel declares fault => cases fault <;> simp
    | noMap camel nests noMap => simp
  | inside sound camel nests inner ih => exact ih

/-- No entry of a style map is at fault for the selector it stands under. -/
theorem entriesFragment_ne_misplacedMediaQuery (proper : isMediaQuery selector = false)
    (styles : StyleMap) (query : String) :
    entriesFragment o selector styles ≠ .error (.misplacedMediaQuery query) := by
  intro failed
  obtain ⟨position, fault⟩ := (entriesFragment_error_iff proper).1 failed
  exact fault.ne_misplacedMediaQuery query rfl

/-- Under a selector a style map is laid out as what its entries contribute, once closed. -/
theorem compile_eq_map (level : Nat) (proper : isMediaQuery selector = false)
    (styles : StyleMap) :
    compile o level selector styles =
      (entriesFragment o selector styles).map
        (fun f => layoutNodes level (f.close o selector)) := by
  rw [compile, ruleTree_of_not_isMediaQuery o proper]
  cases entriesFragment o selector styles <;> rfl

/-! ## Classes -/

/-- Whether a call is about the styles of classes alone. -/
def Call.forClasses : Call → Bool
  | .generate (.classes _) => true
  | .create (.classes _) => true
  | .generateJson .classes _ => true
  | .createJson .classes _ => true
  | _ => false

/-- The selector of a class is no media query. -/
theorem isMediaQuery_classSelector (name : String) : isMediaQuery (classSelector name) = false := by
  simp [isMediaQuery, classSelector, mediaMark, List.isPrefixOf]

/-- Making classes never fails because of a misplaced media query. -/
theorem generate_classes_ne_misplacedMediaQuery (s : Session) (rules : RuleSet) (query : String) :
    (s.generate (.classes rules)).result ≠ .error (.misplacedMediaQuery query) := by
  intro failed
  obtain ⟨_, taken | taken⟩ | ⟨name, entry, -, unwritten⟩ :=
    Session.error_of_generateNamed failed
  · cases taken
  · cases taken
  · have unwritten : compile s.options 0 (classSelector name) entry.2 =
        .error (.misplacedMediaQuery query) := unwritten
    rw [compile_eq_map 0 (isMediaQuery_classSelector name), Result.map_eq_error] at unwritten
    exact entriesFragment_ne_misplacedMediaQuery (isMediaQuery_classSelector name) _ _ unwritten

/-- No call about classes is told of a misplaced media query. -/
theorem perform_ne_misplacedMediaQuery (s : Session) {call : Call} (h : call.forClasses)
    (query : String) : (s.perform call).result ≠ .error (.misplacedMediaQuery query) := by
  -- a class is compiled under its own selector, which is no media query
  have generated (rules : RuleSet) :
      (s.perform (.generate (.classes rules))).result ≠ .error (.misplacedMediaQuery query) :=
    fun failed => generate_classes_ne_misplacedMediaQuery s rules query
      (Outcome.error_of_map_error failed)
  have created (rules : RuleSet) :
      (s.perform (.create (.classes rules))).result ≠ .error (.misplacedMediaQuery query) :=
    fun failed => generate_classes_ne_misplacedMediaQuery s rules query
      (Session.generate_error_of_create (Outcome.error_of_map_error failed))
  unfold Call.forClasses at h
  split at h
  · exact generated _
  · exact created _
  · next value =>
    rw [Session.perform_generateJson, StyleSection.ofJson?]
    cases RuleSet.ofJson? value with
    | none => simp [Outcome.fail]
    | some rules => exact generated rules
  · next value =>
    rw [Session.perform_createJson, StyleSection.ofJson?]
    cases RuleSet.ofJson? value with
    | none => simp [Outcome.fail]
    | some rules => exact created rules
  · cases h

/-- A style map has a text under a selector if and only if the selector is not a media query and the
map is well-formed. Otherwise the error is about the selector, if that is a media query, or else it
is the error of the first fault of the map; whatever stands behind the first fault, at any depth,
could be replaced. That a media query is misplaced is only said of the selector itself, not of what
is nested in the map, and never when classes are made. -/
theorem compile_ok_iff_wellFormed (o : Options) (level : Nat) (selector : String)
    (styles : StyleMap) :
    ((∃ css, compile o level selector styles = .ok css) ↔
      isMediaQuery selector = false ∧ StyleMap.WellFormed o styles) ∧
    (∀ e, compile o level selector styles = .error e ↔
      isMediaQuery selector = true ∧ e = .misplacedMediaQuery selector ∨
        isMediaQuery selector = false ∧ ∃ position, FaultAt o e position styles) ∧
    (∀ e position later, isMediaQuery selector = false → FaultAt o e position styles →
      StyleMap.upTo position later = StyleMap.upTo position styles →
      compile o level selector later = .error e) ∧
    (∀ query, compile o level selector styles = .error (.misplacedMediaQuery query) ↔
      isMediaQuery selector = true ∧ query = selector) ∧
    (isMediaQuery selector = false → ∀ query,
      entriesFragment o selector styles ≠ .error (.misplacedMediaQuery query)) ∧
    ∀ (s : Session) (call : Call), call.forClasses → ∀ query,
      (s.perform call).result ≠ .error (.misplacedMediaQuery query) := by
  -- a media query fails before its entries are looked at, anything else by its entries only
  have misplaced (h : isMediaQuery selector = true) :
      compile o level selector styles = .error (.misplacedMediaQuery selector) := by
    rw [compile, ruleTree_of_isMediaQuery o h]
    rfl
  have fails (h : isMediaQuery selector = false) (styles : StyleMap) (e : Error) :
      compile o level selector styles = .error e ↔ ∃ position, FaultAt o e position styles := by
    rw [compile_eq_map level h, Result.map_eq_error, entriesFragment_error_iff h]
  refine ⟨?_, ?_, ?_, ?_, ?_, ?_⟩
  · cases h : isMediaQuery selector with
    | true => simp [misplaced h]
    | false =>
      rw [compile_eq_map level h, ← exists_entriesFragment_iff h]
      simp only [Result.map_eq_ok, true_and]
      exact ⟨fun ⟨_, f, hf, _⟩ => ⟨f, hf⟩, fun ⟨f, hf⟩ => ⟨_, f, hf, rfl⟩⟩
  · intro e
    cases h : isMediaQuery selector with
    | true => simp [misplaced h, eq_comm]
    | false => simp [fails h]
  · intro e position later h fault same
    -- the first fault does not look past its own place
    exact (fails h later e).2 ⟨position, fault.of_upTo same⟩
  · intro query
    cases h : isMediaQuery selector with
    | true => simp [misplaced h, eq_comm]
    | false =>
      rw [compile_eq_map level h, Result.map_eq_error]
      simp [entriesFragment_ne_misplacedMediaQuery h]
  · intro h query
    exact entriesFragment_ne_misplacedMediaQuery h styles query
  · intro s call h query
    exact perform_ne_misplacedMediaQuery s h query

/-- A side of a nested property is at fault, which has vendor prefixes. What stands behind it, in
the nested map and behind that, is exchanged. -/
theorem compile_ok_iff_wellFormed_nested :
    let o : Options := { vendorPrefixes := [("transform", ["webkit"])] }
    let faulty : String × StyleValue :=
      ("transform", .map [("all", .text "none"), ("vertical", .list [.text "0", .map []])])
    let styles : StyleMap := [("color", .text "red"), ("hover", .map [faulty, ("a-b", .map [])])]
    let later : StyleMap := [("color", .text "red"), ("hover", .map [faulty]), ("focus", .text "")]
    FaultAt o (.unsupportedValue "transform-top" .map) [1, 0] styles ∧
      StyleMap.upTo [1, 0] later = StyleMap.upTo [1, 0] styles ∧
      compile o 0 "p" later = .error (.unsupportedValue "transform-top" .map) := by
  intro o faulty styles later
  have top : sideKey "transform" "vertical" = "transform-top" := by decide
  have sound : ∀ earlier ∈ [("all", StyleValue.text "none")], earlier.2.Writable := by
    simp [StyleValue.Writable, StyleValue.leaves]
  have side : ValueFault "transform"
      (.map ([("all", .text "none")] ++ ("vertical", .list [.text "0", .map []]) :: []))
      (.unsupportedValue (sideKey "transform" "vertical") .map) := .side sound rfl
  rw [top] at side
  have own : OwnFault o faulty (.unsupportedValue "transform-top" .map) :=
    .value (by decide) (by decide) side
  have none_before : StyleMap.WellFormed o [] := by simp [StyleMap.WellFormed]
  have first : FaultAt o (.unsupportedValue "transform-top" .map) [0]
      ([] ++ faulty :: [("a-b", .map [])]) := .here none_before own
  have before : StyleMap.WellFormed o [("color", .text "red")] := by
    have red : StyleValue.Declarable (.text "red") :=
      .inl (by simp [StyleValue.Writable, StyleValue.leaves])
    simpa [StyleMap.WellFormed] using .property (by decide) (by decide) red
  have fault : FaultAt o (.unsupportedValue "transform-top" .map) [1, 0]
      ([("color", .text "red")] ++ ("hover", .map ([] ++ faulty :: [("a-b", .map [])])) :: []) :=
    .inside before (by decide) (by decide) first
  refine ⟨fault, rfl, ?_⟩
  exact (compile_ok_iff_wellFormed o 0 "p" styles).2.2.1 _ _ later (by decide) fault rfl

end StyleTree
