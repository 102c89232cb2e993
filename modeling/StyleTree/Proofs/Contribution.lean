import StyleTree.Proofs.Results
import StyleTree.Rule.OfStyles

/-! # Contributions of a style map

How a rule tree comes about, as a derivation: an entry declares a property, nests the rules of a
selector, or puts rules under a media query. What holds of every rule tree is proved by induction on
the derivation.

* **`Contributes`** relates the entries of a style map to the fragment that they contribute.
* **`contributes_of_ruleTree`** says that every rule tree is a closed contribution. -/

namespace StyleTree

/-- A key with the role of a selector has that separator in the table of nested selectors. -/
theorem selectorSeparator?_of_role {o : Options} {key separator : String}
    (h : o.role key = .selector separator) : selectorSeparator? key = some separator := by
  unfold Options.role at h
  split at h
  · cases h
  · split at h
    · next hsep => rw [hsep, KeyRole.selector.inj h]
    · split at h <;> cases h

/-- A separator is one colon or two. -/
theorem selectorSeparator?_cases {key separator : String}
    (h : selectorSeparator? key = some separator) : separator = ":" ∨ separator = "::" := by
  unfold selectorSeparator? at h
  split at h
  · split at h
    · cases h
      exact .inr rfl
    · cases h
      exact .inl rfl
  · cases h

/-- A separator starts with a colon. -/
theorem exists_colons {key separator : String} (h : selectorSeparator? key = some separator) :
    ∃ colons, separator.toList = ':' :: colons := by
  rcases selectorSeparator?_cases h with rfl | rfl
  · exact ⟨[], rfl⟩
  · exact ⟨[':'], rfl⟩

/-- A key that is in no table and nests nothing is a property without prefixes. -/
theorem role_of_unprefixed {o : Options} {key : String} (unprefixed : o.prefixesFor? key = none)
    (plain : key ∉ nestedSelectors) (query : isMediaQuery key = false) :
    o.role key = .property [] := by
  simp [Options.role, unprefixed, selectorSeparator?, plain, query]

/-- What the entries of a style map **contribute** under a selector. -/
inductive Contributes (o : Options) : String → List (String × StyleValue) → Fragment → Prop
  /-- No entries contribute nothing. -/
  | nil (selector : String) : Contributes o selector [] .empty
  /-- The first entry declares a property. -/
  | property {selector key : String} {value : StyleValue} {rest : List (String × StyleValue)}
      {prefixes : List String} {declarations : List Declaration} {f : Fragment}
      (hyphen : isHyphenated key = false) (role : o.role key = .property prefixes)
      (declared : declareEntry prefixes key value = .ok declarations)
      (later : Contributes o selector rest f) :
      Contributes o selector ((key, value) :: rest)
        ((Fragment.ofDeclarations declarations).append f)
  /-- The first entry styles a nested selector. -/
  | selector {selector key separator : String} {entries rest : List (String × StyleValue)}
      {f g : Fragment} (hyphen : isHyphenated key = false)
      (role : o.role key = .selector separator)
      (proper : isMediaQuery (selector ++ separator ++ spinalCase key) = false)
      (inner : Contributes o (selector ++ separator ++ spinalCase key) entries f)
      (later : Contributes o selector rest g) :
      Contributes o selector ((key, .map entries) :: rest)
        ((Fragment.ofNodes (f.close o (selector ++ separator ++ spinalCase key))).append g)
  /-- The first entry styles the selector under a media query. -/
  | mediaQuery {selector key : String} {entries rest : List (String × StyleValue)}
      {f g : Fragment} (hyphen : isHyphenated key = false) (role : o.role key = .mediaQuery)
      (proper : isMediaQuery selector = false) (inner : Contributes o selector entries f)
      (later : Contributes o selector rest g) :
      Contributes o selector ((key, .map entries) :: rest)
        ((Fragment.ofNodes [.media key (f.close o selector)]).append g)

/-- The first entry and the others have contributed if all have. -/
theorem entriesFragment_cons_ok {o : Options} {selector : String} {entry : String × StyleValue}
    {rest : List (String × StyleValue)} {f : Fragment} :
    entriesFragment o selector (entry :: rest) = .ok f ↔
      ∃ g h, entryFragment o selector entry = .ok g ∧ entriesFragment o selector rest = .ok h ∧
        g.append h = f := by
  rw [entriesFragment_cons, Result.bind_eq_ok]
  simp only [Result.map_eq_ok, exists_and_left]

/-- The entries around one have contributed, and it has between them, if all have. -/
theorem entriesFragment_around_ok {o : Options} {selector : String}
    {before after : List (String × StyleValue)} {entry : String × StyleValue} {f : Fragment} :
    entriesFragment o selector (before ++ entry :: after) = .ok f ↔
      ∃ g h k, entriesFragment o selector before = .ok g ∧ entryFragment o selector entry = .ok h ∧
        entriesFragment o selector after = .ok k ∧ g.append (h.append k) = f := by
  rw [entriesFragment_append, Result.bind_eq_ok]
  simp only [Result.map_eq_ok, entriesFragment_cons_ok]
  constructor
  · rintro ⟨g, hg, -, ⟨h, k, hh, hk, rfl⟩, rfl⟩
    exact ⟨g, h, k, hg, hh, hk, rfl⟩
  · rintro ⟨g, h, k, hg, hh, hk, rfl⟩
    exact ⟨g, hg, _, ⟨h, k, hh, hk, rfl⟩, rfl⟩

/-- A fragment is enclosed in a rule only if the selector is no media query. -/
theorem enclose_ok {o : Options} {selector : String} {r : Except Error Fragment}
    {nodes : List Node} :
    enclose o selector r = .ok nodes ↔
      isMediaQuery selector = false ∧ ∃ f, r = .ok f ∧ f.close o selector = nodes := by
  unfold enclose
  cases isMediaQuery selector with
  | true => simp
  | false => simp [Result.map_eq_ok]

mutual

/-- Entries without an error contribute. -/
theorem contributes_of_entriesFragment (o : Options) (selector : String)
    (entries : List (String × StyleValue)) {f : Fragment}
    (h : entriesFragment o selector entries = .ok f) : Contributes o selector entries f := by
  match entries with
  | [] =>
    rw [entriesFragment_nil] at h
    cases h
    exact .nil selector
  | entry :: rest =>
    obtain ⟨g, later, hentry, hrest, rfl⟩ := entriesFragment_cons_ok.1 h
    exact contributes_of_entryFragment o selector entry hentry
      (contributes_of_entriesFragment o selector rest hrest)

/-- An entry without an error contributes before those that follow it. -/
theorem contributes_of_entryFragment (o : Options) (selector : String)
    (entry : String × StyleValue) {f g : Fragment} {rest : List (String × StyleValue)}
    (h : entryFragment o selector entry = .ok f) (later : Contributes o selector rest g) :
    Contributes o selector (entry :: rest) (f.append g) := by
  match entry with
  | (key, value) =>
    rw [entryFragment] at h
    cases hyphen : isHyphenated key with
    | true => simp [hyphen] at h
    | false =>
      simp only [hyphen, Bool.false_eq_true, ↓reduceIte] at h
      -- the role of the key decides which constructor it is
      split at h
      · next prefixes role =>
        obtain ⟨declarations, declared, rfl⟩ := Result.map_eq_ok.1 h
        exact .property hyphen role declared later
      · next separator role =>
        obtain ⟨nodes, hnodes, rfl⟩ := Result.map_eq_ok.1 h
        obtain ⟨entries, f, rfl, proper, inner, rfl⟩ :=
          contributes_of_nestedNodes o _ _ _ _ hnodes
        exact .selector hyphen role proper inner later
      · next role =>
        obtain ⟨nodes, hnodes, rfl⟩ := Result.map_eq_ok.1 h
        obtain ⟨entries, f, rfl, proper, inner, rfl⟩ :=
          contributes_of_nestedNodes o _ _ _ _ hnodes
        exact .mediaQuery hyphen role proper inner later

/-- Only a map can be nested, and its entries contribute. -/
theorem contributes_of_nestedNodes (o : Options) (kind : NestedKind) (key selector : String)
    (value : StyleValue) {nodes : List Node}
    (h : nestedNodes o kind key selector value = .ok nodes) :
    ∃ entries f, value = .map entries ∧ isMediaQuery selector = false ∧
      Contributes o selector entries f ∧ f.close o selector = nodes := by
  match value with
  | .map entries =>
    rw [nestedNodes, enclose_ok] at h
    obtain ⟨proper, f, hf, rfl⟩ := h
    exact ⟨entries, f, rfl, proper, contributes_of_entriesFragment o selector entries hf, rfl⟩
  | .number x => simp [nestedNodes] at h
  | .text s => simp [nestedNodes] at h
  | .list items => simp [nestedNodes] at h

end

/-- A rule tree is a closed contribution. -/
theorem contributes_of_ruleTree {o : Options} {selector : String} {styles : StyleMap}
    {nodes : List Node} (h : ruleTree o selector styles = .ok nodes) :
    isMediaQuery selector = false ∧
      ∃ f, Contributes o selector styles f ∧ f.close o selector = nodes := by
  rw [ruleTree, enclose_ok] at h
  obtain ⟨proper, f, hf, rfl⟩ := h
  exact ⟨proper, f, contributes_of_entriesFragment o selector styles hf, rfl⟩

/-- A style map with one property that has no prefixes is one rule, if anything is declared. -/
theorem ruleTree_singleton {o : Options} {selector key : String} {value : StyleValue}
    {declarations : List Declaration} (proper : isMediaQuery selector = false)
    (hyphen : isHyphenated key = false) (role : o.role key = .property [])
    (declared : declareProperty key key value = .ok declarations) (some : declarations ≠ []) :
    ruleTree o selector [(key, value)] = .ok [.rule selector declarations] := by
  have entry : entryFragment o selector (key, value) = .ok (.ofDeclarations declarations) := by
    rw [entryFragment, hyphen, role]
    dsimp only
    rw [declareEntry_nil, declared]
    rfl
  have closed : (Fragment.ofDeclarations declarations).close o selector =
      [.rule selector declarations] := Fragment.close_of_declarations o selector some
  rw [ruleTree_of_not_isMediaQuery o proper, entriesFragment_cons, entriesFragment_nil, entry,
    ← closed]
  simp [Except.bind, Except.map]

/-! ## Declarations of an entry -/

/-- A **part** of a value that is declared on its own: the value itself, or what it holds for a
side. -/
inductive DeclaredPart : StyleValue → Option String → StyleValue → Prop
  /-- A value is declared as a whole. -/
  | whole (value : StyleValue) : DeclaredPart value none value
  /-- A map is declared side by side, some keys standing for two sides or for none. -/
  | side {sides : List (String × StyleValue)} {key : String} {part : StyleValue}
      {side : Option String} (mem : (key, part) ∈ sides) (expanded : side ∈ expandSide key) :
      DeclaredPart (.map sides) side part

/-- A side is declared under its name in spinal case, with the text of its value. -/
theorem declareSide_ok {name property : String} {value : StyleValue} {side : Option String}
    {d : Declaration} :
    declareSide name property value side = .ok d ↔
      d.property = spinalCase (sideName name side) ∧
        value.format (sideName property side) = .ok d.value := by
  unfold declareSide
  cases value.format (sideName property side) with
  | error e => simp [bind, Except.bind]
  | ok text =>
    obtain ⟨p, v⟩ := d
    simp [bind, Except.bind, pure, Except.pure, eq_comm]

/-- Each declaration of sides belongs to one of them. -/
theorem exists_of_mem_declareSides {name property : String}
    {sides : List (String × StyleValue)} {declarations : List Declaration}
    (h : declareSides name property sides = .ok declarations) :
    ∀ d ∈ declarations, ∃ key part, (key, part) ∈ sides ∧ ∃ side ∈ expandSide key,
      declareSide name property part side = .ok d := by
  induction sides generalizing declarations with
  | nil =>
    cases h
    simp
  | cons head rest ih =>
    obtain ⟨key, value⟩ := head
    rw [declareSides] at h
    obtain ⟨run, hrun, h⟩ := Result.bind_eq_ok.1 h
    obtain ⟨later, hlater, h⟩ := Result.bind_eq_ok.1 h
    cases h
    intro d hd
    rcases List.mem_append.1 hd with hd | hd
    · exact ⟨key, value, List.mem_cons_self, Result.exists_of_mem_mapM hrun d hd⟩
    · obtain ⟨key', part, mem, hpart⟩ := ih hlater d hd
      exact ⟨key', part, List.mem_cons_of_mem _ mem, hpart⟩

/-- Each declaration of a property is that of a part of its value. -/
theorem exists_of_mem_declareProperty {name property : String} {value : StyleValue}
    {declarations : List Declaration}
    (h : declareProperty name property value = .ok declarations) :
    ∀ d ∈ declarations, ∃ side part, DeclaredPart value side part ∧
      declareSide name property part side = .ok d := by
  intro d hd
  unfold declareProperty at h
  split at h
  · obtain ⟨key, part, mem, side, expanded, hside⟩ := exists_of_mem_declareSides h d hd
    exact ⟨side, part, .side mem expanded, hside⟩
  · obtain ⟨d', hd', h⟩ := Result.bind_eq_ok.1 h
    cases h
    rw [List.mem_singleton.1 hd]
    exact ⟨none, value, .whole value, hd'⟩

/-- Each declaration of an entry stands under one of the names of the entry and gives a part of its
value as the property itself writes it. -/
theorem exists_of_mem_declareEntry {prefixes : List String} {property : String}
    {value : StyleValue} {declarations : List Declaration}
    (h : declareEntry prefixes property value = .ok declarations) :
    ∀ d ∈ declarations, ∃ name ∈ declaredNames prefixes property, ∃ side part,
      DeclaredPart value side part ∧ d.property = spinalCase (sideName name side) ∧
        part.format (sideName property side) = .ok d.value := by
  intro d hd
  obtain ⟨runs, hruns, h⟩ := Result.bind_eq_ok.1 h
  cases h
  obtain ⟨run, hrun, hd⟩ := List.mem_flatten.1 hd
  obtain ⟨name, hname, hproperty⟩ := Result.exists_of_mem_mapM hruns run hrun
  obtain ⟨side, part, hpart, hside⟩ := exists_of_mem_declareProperty hproperty d hd
  obtain ⟨property_eq, value_eq⟩ := declareSide_ok.1 hside
  exact ⟨name, hname, side, part, hpart, property_eq, value_eq⟩

/-! ## Properties of all nodes -/

mutual

/-- What holds of the selectors, media queries and declarations in a node. -/
def Node.All (selector query : String → Prop) (declaration : Declaration → Prop) : Node → Prop
  | .rule s declarations => selector s ∧ ∀ d ∈ declarations, declaration d
  | .media q body => query q ∧ AllNodes selector query declaration body

/-- What holds of all selectors, media queries and declarations in nodes. -/
def AllNodes (selector query : String → Prop) (declaration : Declaration → Prop) :
    List Node → Prop
  | [] => True
  | node :: rest =>
    node.All selector query declaration ∧ AllNodes selector query declaration rest

end

section AllNodes

variable {selector query : String → Prop} {declaration : Declaration → Prop}

@[simp] theorem allNodes_nil : AllNodes selector query declaration [] := by
  rw [AllNodes]
  trivial

/-- A property of all nodes holds of the first one and of all others. -/
@[simp] theorem allNodes_cons {node : Node} {rest : List Node} :
    AllNodes selector query declaration (node :: rest) ↔
      node.All selector query declaration ∧ AllNodes selector query declaration rest := by
  rw [AllNodes]

/-- A property of all nodes holds of both parts of appended nodes. -/
@[simp] theorem allNodes_append {nodes later : List Node} :
    AllNodes selector query declaration (nodes ++ later) ↔
      AllNodes selector query declaration nodes ∧ AllNodes selector query declaration later := by
  induction nodes with
  | nil => simp
  | cons node rest ih => simp [ih, and_assoc]

/-- What holds of a rule holds of its selector and of each of its declarations. -/
@[simp] theorem all_rule {s : String} {declarations : List Declaration} :
    (Node.rule s declarations).All selector query declaration ↔
      selector s ∧ ∀ d ∈ declarations, declaration d := by
  rw [Node.All]

/-- What holds of a media node holds of its query and of all nodes in its body. -/
@[simp] theorem all_media {q : String} {body : List Node} :
    (Node.media q body).All selector query declaration ↔
      query q ∧ AllNodes selector query declaration body := by
  rw [Node.All]

/-- Closing a fragment adds at most a rule with its selector and its declarations. -/
theorem allNodes_close {o : Options} {s : String} {f : Fragment} (hselector : selector s)
    (hdeclarations : ∀ d ∈ f.declarations, declaration d)
    (hnested : AllNodes selector query declaration f.nested) :
    AllNodes selector query declaration (f.close o s) := by
  unfold Fragment.close
  split
  · simpa using ⟨⟨hselector, hdeclarations⟩, hnested⟩
  · exact hnested

end AllNodes

/-- Only a media query has the role of one. -/
theorem isMediaQuery_of_role {o : Options} {key : String} (h : o.role key = .mediaQuery) :
    isMediaQuery key := by
  unfold Options.role at h
  split at h
  · cases h
  · split at h
    · cases h
    · split at h
      · assumption
      · cases h

/-- In what a style map contributes, selectors are no media queries and media nodes have one. -/
theorem proper_of_contributes {o : Options} {selector : String}
    {entries : List (String × StyleValue)} {f : Fragment} (h : Contributes o selector entries f) :
    AllNodes (isMediaQuery · = false) (isMediaQuery · = true) (fun _ => True) f.nested := by
  induction h with
  | nil selector => simp [Fragment.empty]
  | property hyphen role declared later ih => exact ih
  | selector hyphen role proper inner later ihInner ihLater =>
    exact allNodes_append.2 ⟨allNodes_close proper (fun _ _ => trivial) ihInner, ihLater⟩
  | mediaQuery hyphen role proper inner later ihInner ihLater =>
    refine allNodes_append.2 ⟨?_, ihLater⟩
    simp only [Fragment.ofNodes, allNodes_cons, allNodes_nil, all_media, and_true]
    exact ⟨isMediaQuery_of_role role, allNodes_close proper (fun _ _ => trivial) ihInner⟩

/-- The selectors in a rule tree are not media queries, and the media queries are. -/
theorem proper_of_ruleTree {o : Options} {selector : String} {styles : StyleMap}
    {nodes : List Node} (h : ruleTree o selector styles = .ok nodes) :
    AllNodes (isMediaQuery · = false) (isMediaQuery · = true) (fun _ => True) nodes := by
  obtain ⟨proper, f, contributes, rfl⟩ := contributes_of_ruleTree h
  exact allNodes_close proper (fun _ _ => trivial) (proper_of_contributes contributes)

end StyleTree
