import StyleTree.Proofs.Faults

/-! # Parts of a style map

The rule tree of a style map in two steps. First every entry is made into a **part**, whatever the
selector is, whatever prefixes a property has and whatever becomes of empty blocks: a run of
declarations, or the parts that are nested under the key. Then the parts are put together under a
selector. So what a selector, a table of vendor prefixes or a policy for empty blocks changes in a
rule tree can be read off its parts.

* **`partsOf`** makes the parts, or the first error, and **`nodesOfParts`** puts them together.
* **`prefixedParts`** adds the copies of each run that its vendor prefixes ask for.
* **`ruleTree_eq_map_parts`** says that the two steps make the rule tree. -/

namespace StyleTree

/-! ## Copies of declarations -/

/-- A declaration with a vendor prefix before its property. -/
def Declaration.withPrefix (vendor : String) (d : Declaration) : Declaration :=
  ⟨prefixedName (spinalCase vendor) d.property, d.value⟩

/-- Declarations with a copy of them all for each prefix before them. -/
def withCopies (prefixes : List String) (declarations : List Declaration) : List Declaration :=
  prefixes.flatMap (fun vendor => declarations.map (Declaration.withPrefix vendor)) ++ declarations

@[simp] theorem withCopies_nil (declarations : List Declaration) :
    withCopies [] declarations = declarations := rfl

/-- Copies are made of something: where nothing is declared, nothing is copied. -/
theorem withCopies_eq_nil_iff {prefixes : List String} {declarations : List Declaration} :
    withCopies prefixes declarations = [] ↔ declarations = [] := by
  constructor
  · intro h
    exact (List.append_eq_nil_iff.1 h).2
  · rintro rfl
    simp [withCopies]

/-- A prefix and the name behind it become spinal case on their own. -/
theorem spinalCase_prefixedName (vendor name : String) :
    spinalCase (prefixedName vendor name) = prefixedName (spinalCase vendor) (spinalCase name) := by
  -- both hyphens are joints, the first one behind an empty name
  have joined (v n : String) : prefixedName v n = "" ++ "-" ++ v ++ "-" ++ n := by
    simp [prefixedName]
  rw [joined, spinalCase_append_hyphen, spinalCase_append_hyphen, joined]
  rfl

/-- A side of a prefixed property is the prefixed side. -/
theorem sideName_prefixedName (vendor name : String) (side : Option String) :
    sideName (prefixedName vendor name) side = prefixedName vendor (sideName name side) := by
  cases side with
  | none => rfl
  | some side => simp only [sideName, prefixedName, String.append_assoc]

/-- Under a prefixed name a side has the same value, or fails with the same error. -/
theorem declareSide_prefixedName (vendor name property : String) (value : StyleValue)
    (side : Option String) :
    declareSide (prefixedName vendor name) property value side =
      (declareSide name property value side).map (Declaration.withPrefix vendor) := by
  rw [declareSide, declareSide, sideName_prefixedName, spinalCase_prefixedName]
  cases value.format (sideName property side) <;> rfl

/-- The sides of a prefixed property are the copies of its sides. -/
theorem declareSides_prefixedName (vendor name property : String)
    (sides : List (String × StyleValue)) :
    declareSides (prefixedName vendor name) property sides =
      (declareSides name property sides).map (List.map (Declaration.withPrefix vendor)) := by
  induction sides with
  | nil => rfl
  | cons first rest ih =>
    obtain ⟨key, value⟩ := first
    have run := Result.mapM_eq_map (expandSide key)
      (declareSide_prefixedName vendor name property value)
    rw [declareSides, declareSides, run, ih]
    cases (expandSide key).mapM (declareSide name property value) with
    | error e => rfl
    | ok declarations =>
      cases declareSides name property rest with
      | error e => rfl
      | ok later => simp [Except.map, bind, Except.bind, pure, Except.pure]

/-- What is declared under a prefixed name are the prefixed declarations. -/
theorem declareProperty_prefixedName (vendor name property : String) (value : StyleValue) :
    declareProperty (prefixedName vendor name) property value =
      (declareProperty name property value).map (List.map (Declaration.withPrefix vendor)) := by
  unfold declareProperty
  split
  · exact declareSides_prefixedName vendor name property _
  · rw [declareSide_prefixedName]
    cases declareSide name property value none <;> rfl

/-- An entry declares what its property does, with a copy for each prefix. -/
theorem declareEntry_eq_map_copies (prefixes : List String) (property : String)
    (value : StyleValue) :
    declareEntry prefixes property value =
      (declareProperty property property value).map (withCopies prefixes) := by
  cases declared : declareProperty property property value with
  | error e =>
    -- the first name to be declared fails, and all fail alike
    rcases declarable_or_fault property value with declarable | ⟨e', fault⟩
    · obtain ⟨declarations, ok⟩ := exists_declareProperty declarable property property
      rw [ok] at declared
      cases declared
    · have e_eq : e' = e := by
        rw [declareProperty_of_fault fault] at declared
        exact Except.error.inj declared
      rw [declareEntry_of_fault fault, e_eq]
      rfl
  | ok declarations =>
    have copies : prefixes.mapM
          (fun vendor => declareProperty (prefixedName vendor property) property value) =
        .ok (prefixes.map fun vendor => declarations.map (Declaration.withPrefix vendor)) := by
      refine Result.mapM_of_forall_ok fun vendor _ => ?_
      rw [declareProperty_prefixedName, declared]
      rfl
    rw [declareEntry, declaredNames, List.mapM_append, List.mapM_map]
    simp only [Function.comp_def, copies, List.mapM_cons, List.mapM_nil, declared]
    simp [bind, Except.bind, pure, Except.pure, Except.map, withCopies, List.flatMap_def]

/-! ## Parts -/

/-- What an entry of a style map is made into. -/
inductive StylePart
  /-- A **run** of declarations, under the key of its entry. -/
  | run (key : String) (declarations : List Declaration)
  /-- What is nested in a pseudo-selector, which is written behind the selector around it. -/
  | nested (suffix : String) (parts : List StylePart)
  /-- What is nested in a media query. -/
  | media (query : String) (parts : List StylePart)
deriving Repr, Inhabited

mutual

/-- The parts of a style map, in the order of its entries. -/
def partsOf (o : Options) : List (String × StyleValue) → Except Error (List StylePart)
  | [] => .ok []
  | entry :: rest => do
    let part ← partOf o entry
    let later ← partsOf o rest
    pure (part :: later)

/-- The part of one entry. -/
def partOf (o : Options) : String × StyleValue → Except Error StylePart
  | (key, value) =>
    if isHyphenated key then .error (.hyphenatedProperty key)
    else
      match o.role key with
      | .property _ => (declareProperty key key value).map (.run key)
      | .selector separator =>
        (nestedParts o .selector key value).map (.nested (separator ++ spinalCase key))
      | .mediaQuery => (nestedParts o .mediaQuery key value).map (.media key)

/-- The parts of the style map that a key holds. -/
def nestedParts (o : Options) (kind : NestedKind) (key : String) :
    StyleValue → Except Error (List StylePart)
  | .map entries => partsOf o entries
  | _ => .error (.expectedMap kind key)

end

mutual

/-- What a part contributes under a selector. -/
def StylePart.fragment (o : Options) (selector : String) : StylePart → Fragment
  | .run _ declarations => .ofDeclarations declarations
  | .nested suffix parts =>
    .ofNodes ((fragmentOfParts o (selector ++ suffix) parts).close o (selector ++ suffix))
  | .media query parts =>
    .ofNodes [.media query ((fragmentOfParts o selector parts).close o selector)]

/-- What parts contribute under a selector, one after another. -/
def fragmentOfParts (o : Options) (selector : String) : List StylePart → Fragment
  | [] => .empty
  | part :: rest => (part.fragment o selector).append (fragmentOfParts o selector rest)

end

/-- The nodes that parts make under a selector. -/
def nodesOfParts (o : Options) (selector : String) (parts : List StylePart) : List Node :=
  (fragmentOfParts o selector parts).close o selector

mutual

/-- A part with the copies that the vendor prefixes of each key in it ask for, made of each run in
its place. -/
def StylePart.prefixed (o : Options) : StylePart → StylePart
  | .run key declarations =>
    .run key (withCopies ((o.prefixesFor? key).getD []) declarations)
  | .nested suffix parts => .nested suffix (prefixedParts o parts)
  | .media query parts => .media query (prefixedParts o parts)

/-- Parts with the copies that vendor prefixes ask for. -/
def prefixedParts (o : Options) : List StylePart → List StylePart
  | [] => []
  | part :: rest => part.prefixed o :: prefixedParts o rest

end

@[simp] theorem partsOf_nil (o : Options) : partsOf o [] = .ok [] := by
  rw [partsOf]

/-- The first entry makes the first part, and its error comes first. -/
theorem partsOf_cons (o : Options) (entry : String × StyleValue)
    (rest : List (String × StyleValue)) :
    partsOf o (entry :: rest) =
      (partOf o entry).bind fun part => (partsOf o rest).map (part :: ·) := by
  rw [partsOf]
  cases partOf o entry with
  | error e => rfl
  | ok part => cases partsOf o rest <;> rfl

@[simp] theorem fragmentOfParts_nil (o : Options) (selector : String) :
    fragmentOfParts o selector [] = .empty := by
  rw [fragmentOfParts]

/-- The fragment of the first part comes first. -/
theorem fragmentOfParts_cons (o : Options) (selector : String) (part : StylePart)
    (rest : List StylePart) :
    fragmentOfParts o selector (part :: rest) =
      (part.fragment o selector).append (fragmentOfParts o selector rest) := by
  rw [fragmentOfParts]

@[simp] theorem prefixedParts_nil (o : Options) : prefixedParts o [] = [] := by
  rw [prefixedParts]

/-- Parts get their prefixes one by one. -/
theorem prefixedParts_cons (o : Options) (part : StylePart) (rest : List StylePart) :
    prefixedParts o (part :: rest) = part.prefixed o :: prefixedParts o rest := by
  rw [prefixedParts]

/-! ## What parts depend on -/

/-- The role of a key that nests is that of the key alone. -/
theorem role_eq_of_nests {o : Options} {key : String} (h : ¬ o.Declares key) :
    o.role key =
      match selectorSeparator? key with
      | some separator => .selector separator
      | none => .mediaQuery := by
  rcases role_of_nests h with ⟨separator, role, -⟩ | ⟨role, kind⟩
  · rw [role, selectorSeparator?_of_role role]
  · have unlisted : key ∉ nestedSelectors := by
      intro listed
      simp [nestedKind, listed] at kind
    rw [role, selectorSeparator?, if_neg unlisted]

mutual

/-- The parts of a style map depend on nothing but which keys declare. -/
theorem partsOf_congr {o o' : Options} (h : ∀ key, o'.Declares key ↔ o.Declares key)
    (entries : List (String × StyleValue)) : partsOf o' entries = partsOf o entries := by
  match entries with
  | [] => rw [partsOf_nil, partsOf_nil]
  | entry :: rest => rw [partsOf_cons, partsOf_cons, partOf_congr h entry, partsOf_congr h rest]

/-- What part an entry makes is decided by the keys that declare. -/
theorem partOf_congr {o o' : Options} (h : ∀ key, o'.Declares key ↔ o.Declares key)
    (entry : String × StyleValue) : partOf o' entry = partOf o entry := by
  match entry with
  | (key, value) =>
    rw [partOf, partOf]
    by_cases declares : o.Declares key
    · -- the prefixes may differ, but they have no part in it
      obtain ⟨prefixes, role⟩ := role_of_declares declares
      obtain ⟨prefixes', role'⟩ := role_of_declares ((h key).2 declares)
      rw [role, role']
    · have role := role_eq_of_nests declares
      have role' := role_eq_of_nests fun d => declares ((h key).1 d)
      rw [role, role']
      cases selectorSeparator? key with
      | some separator => simp only [nestedParts_congr h _ _ value]
      | none => simp only [nestedParts_congr h _ _ value]

/-- What parts are nested in an entry is decided by the keys that declare. -/
theorem nestedParts_congr {o o' : Options} (h : ∀ key, o'.Declares key ↔ o.Declares key)
    (kind : NestedKind) (key : String) (value : StyleValue) :
    nestedParts o' kind key value = nestedParts o kind key value := by
  match value with
  | .map entries => rw [nestedParts, nestedParts, partsOf_congr h entries]
  | .number x => simp [nestedParts]
  | .text s => simp [nestedParts]
  | .list items => simp [nestedParts]

end

mutual

/-- The copies of a part are decided by the vendor prefixes. -/
theorem prefixed_congr {o o' : Options} (h : o'.vendorPrefixes = o.vendorPrefixes)
    (part : StylePart) : part.prefixed o' = part.prefixed o := by
  match part with
  | .run key declarations =>
    simp only [StylePart.prefixed, Options.prefixesFor?, h]
  | .nested suffix parts => rw [StylePart.prefixed, StylePart.prefixed, prefixedParts_congr h parts]
  | .media query parts => rw [StylePart.prefixed, StylePart.prefixed, prefixedParts_congr h parts]

/-- The copies depend on nothing but the vendor prefixes. -/
theorem prefixedParts_congr {o o' : Options} (h : o'.vendorPrefixes = o.vendorPrefixes)
    (parts : List StylePart) : prefixedParts o' parts = prefixedParts o parts := by
  match parts with
  | [] => rw [prefixedParts_nil, prefixedParts_nil]
  | part :: rest =>
    rw [prefixedParts_cons, prefixedParts_cons, prefixed_congr h part, prefixedParts_congr h rest]

end

mutual

/-- Without vendor prefixes no part has copies. -/
theorem prefixed_of_no_prefixes {o : Options} (h : o.vendorPrefixes = []) (part : StylePart) :
    part.prefixed o = part := by
  match part with
  | .run key declarations =>
    simp [StylePart.prefixed, Options.prefixesFor?, Table.find?, h]
  | .nested suffix parts => rw [StylePart.prefixed, prefixedParts_of_no_prefixes h parts]
  | .media query parts => rw [StylePart.prefixed, prefixedParts_of_no_prefixes h parts]

/-- Without vendor prefixes there are no copies. -/
theorem prefixedParts_of_no_prefixes {o : Options} (h : o.vendorPrefixes = [])
    (parts : List StylePart) : prefixedParts o parts = parts := by
  match parts with
  | [] => rw [prefixedParts_nil]
  | part :: rest =>
    rw [prefixedParts_cons, prefixed_of_no_prefixes h part, prefixedParts_of_no_prefixes h rest]

end

/-- Options that agree about empty blocks close a fragment alike. -/
theorem close_congr {o o' : Options} (h : o'.emptyBlocks = o.emptyBlocks) (selector : String)
    (f : Fragment) : f.close o' selector = f.close o selector := by
  rw [Fragment.close, Fragment.close, Fragment.hasRule, Fragment.hasRule, h]

mutual

/-- The fragment of a part is decided by what becomes of empty blocks. -/
theorem fragment_congr {o o' : Options} (h : o'.emptyBlocks = o.emptyBlocks) (selector : String)
    (part : StylePart) : part.fragment o' selector = part.fragment o selector := by
  match part with
  | .run key declarations => simp only [StylePart.fragment]
  | .nested suffix parts =>
    rw [StylePart.fragment, StylePart.fragment, fragmentOfParts_congr h _ parts, close_congr h]
  | .media query parts =>
    rw [StylePart.fragment, StylePart.fragment, fragmentOfParts_congr h _ parts, close_congr h]

/-- What parts contribute depends on nothing but what becomes of empty blocks. -/
theorem fragmentOfParts_congr {o o' : Options} (h : o'.emptyBlocks = o.emptyBlocks)
    (selector : String) (parts : List StylePart) :
    fragmentOfParts o' selector parts = fragmentOfParts o selector parts := by
  match parts with
  | [] => rw [fragmentOfParts_nil, fragmentOfParts_nil]
  | part :: rest =>
    rw [fragmentOfParts_cons, fragmentOfParts_cons, fragment_congr h selector part,
      fragmentOfParts_congr h selector rest]

end

/-- The nodes of parts are decided by what becomes of empty blocks. -/
theorem nodesOfParts_congr {o o' : Options} (h : o'.emptyBlocks = o.emptyBlocks)
    (selector : String) (parts : List StylePart) :
    nodesOfParts o' selector parts = nodesOfParts o selector parts := by
  rw [nodesOfParts, nodesOfParts, fragmentOfParts_congr h, close_congr h]

/-! ## Rule trees from parts -/

/-- A key is declared with the prefixes that the table has for it. -/
theorem prefixesFor?_of_role {o : Options} {key : String} {prefixes : List String}
    (h : o.role key = .property prefixes) : (o.prefixesFor? key).getD [] = prefixes := by
  unfold Options.role at h
  split at h
  · next listed found =>
    rw [found]
    exact KeyRole.property.inj h
  · next unlisted =>
    -- a key that is not in the table is a property only if it has no prefixes
    rw [unlisted]
    split at h
    · cases h
    · split at h
      · cases h
      · exact KeyRole.property.inj h

mutual

/-- What entries contribute, they contribute part by part. -/
theorem entriesFragment_eq_map_parts {o : Options} {selector : String}
    (proper : isMediaQuery selector = false) (entries : List (String × StyleValue)) :
    entriesFragment o selector entries =
      (partsOf o entries).map fun parts =>
        fragmentOfParts o selector (prefixedParts o parts) := by
  match entries with
  | [] =>
    rw [entriesFragment_nil, partsOf_nil, Except.map, prefixedParts_nil, fragmentOfParts_nil]
  | entry :: rest =>
    rw [entriesFragment_cons, partsOf_cons, entryFragment_eq_map_part proper entry,
      entriesFragment_eq_map_parts proper rest]
    cases partOf o entry with
    | error e => rfl
    | ok part =>
      cases partsOf o rest with
      | error e => rfl
      | ok later =>
        simp only [Except.map, Except.bind, prefixedParts_cons, fragmentOfParts_cons]

/-- An entry contributes what its part makes, copies and all. -/
theorem entryFragment_eq_map_part {o : Options} {selector : String}
    (proper : isMediaQuery selector = false) (entry : String × StyleValue) :
    entryFragment o selector entry =
      (partOf o entry).map fun part => (part.prefixed o).fragment o selector := by
  match entry with
  | (key, value) =>
    rw [entryFragment, partOf]
    cases isHyphenated key with
    | true => rfl
    | false =>
      -- the induction goes into the nested map, so the cases are those of the role
      simp only [Bool.false_eq_true, ↓reduceIte]
      cases role : o.role key with
      | property prefixes =>
        have found := prefixesFor?_of_role role
        simp only [declareEntry_eq_map_copies]
        cases declareProperty key key value with
        | error e => rfl
        | ok declarations =>
          simp only [Except.map, StylePart.prefixed, StylePart.fragment, found]
      | selector separator =>
        have listed := selectorSeparator?_of_role role
        have inner : isMediaQuery (selector ++ separator ++ spinalCase key) = false :=
          isMediaQuery_nestedSelector proper listed
        simp only [nestedNodes_eq_map_parts inner]
        cases nestedParts o .selector key value with
        | error e => rfl
        | ok parts =>
          simp only [Except.map, StylePart.prefixed, StylePart.fragment, nodesOfParts,
            String.append_assoc]
      | mediaQuery =>
        simp only [nestedNodes_eq_map_parts proper]
        cases nestedParts o .mediaQuery key value with
        | error e => rfl
        | ok parts =>
          simp only [Except.map, StylePart.prefixed, StylePart.fragment, nodesOfParts]

/-- Something nested makes what its parts make, copies and all. -/
theorem nestedNodes_eq_map_parts {o : Options} {kind : NestedKind} {key selector : String}
    (proper : isMediaQuery selector = false) (value : StyleValue) :
    nestedNodes o kind key selector value =
      (nestedParts o kind key value).map fun parts =>
        nodesOfParts o selector (prefixedParts o parts) := by
  match value with
  | .map entries =>
    rw [nestedNodes_map, ruleTree_of_not_isMediaQuery o proper, nestedParts,
      entriesFragment_eq_map_parts proper entries]
    cases partsOf o entries <;> rfl
  | .number x => simp [nestedNodes, nestedParts, Except.map]
  | .text s => simp [nestedNodes, nestedParts, Except.map]
  | .list items => simp [nestedNodes, nestedParts, Except.map]

end

/-- The rule tree of a style map under a selector proper is made of the parts of the map, which do
not depend on the selector; there is none for the same reason for which there are no parts. -/
theorem ruleTree_eq_map_parts {o : Options} {selector : String}
    (proper : isMediaQuery selector = false) (styles : StyleMap) :
    ruleTree o selector styles =
      (partsOf o styles).map fun parts => nodesOfParts o selector (prefixedParts o parts) := by
  rw [ruleTree_of_not_isMediaQuery o proper, entriesFragment_eq_map_parts proper]
  cases partsOf o styles <;> rfl

/-- So is its text. -/
theorem compile_eq_map_parts {o : Options} {selector : String}
    (proper : isMediaQuery selector = false) (level : Nat) (styles : StyleMap) :
    compile o level selector styles =
      (partsOf o styles).map fun parts =>
        layoutNodes level (nodesOfParts o selector (prefixedParts o parts)) := by
  rw [compile, ruleTree_eq_map_parts proper]
  cases partsOf o styles <;> rfl

end StyleTree
