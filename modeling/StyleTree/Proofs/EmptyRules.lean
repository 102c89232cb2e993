import StyleTree.Proofs.ClassRules
import StyleTree.Proofs.NamingAlone
import StyleTree.Proofs.StyleParts

/-! # Empty rules

What the policy for empty blocks does, when nothing else is changed. Suppressing deletes the rules
that declare nothing and keeps all that is nested in them, and every media query. It changes no
error and no name. A keyframe animation loses its wrapper only if nothing at all is left inside.

* **`withoutEmptyRules`** deletes the empty rules from nodes; **`rulesOfNodes`** lists the rules.
* **`WritesEntry`** says of an entry that a declaration or a media query comes of it.
* **`suppress_deletes_empty_rules`** is the main result. -/

namespace StyleTree

/-! ## Deleting rules -/

mutual

/-- The rules in a node, also those inside media queries, each with its declarations. -/
def Node.rules : Node → List (String × List Declaration)
  | .rule selector declarations => [(selector, declarations)]
  | .media _ body => rulesOfNodes body

/-- The rules in nodes. -/
def rulesOfNodes : List Node → List (String × List Declaration)
  | [] => []
  | node :: rest => node.rules ++ rulesOfNodes rest

end

mutual

/-- What is left of a node when the rules without declarations are deleted. A media query stays,
even if nothing is left inside. -/
def Node.withoutEmptyRules : Node → List Node
  | .rule selector declarations =>
    if declarations.isEmpty then [] else [.rule selector declarations]
  | .media query body => [.media query (withoutEmptyRules body)]

/-- What is left of nodes when the rules without declarations are deleted. -/
def withoutEmptyRules : List Node → List Node
  | [] => []
  | node :: rest => node.withoutEmptyRules ++ withoutEmptyRules rest

end

@[simp] theorem rulesOfNodes_nil : rulesOfNodes [] = [] := by
  rw [rulesOfNodes]

/-- The rules in the first node come first. -/
theorem rulesOfNodes_cons (node : Node) (rest : List Node) :
    rulesOfNodes (node :: rest) = node.rules ++ rulesOfNodes rest := by
  rw [rulesOfNodes]

/-- The rules in appended nodes are appended. -/
theorem rulesOfNodes_append (nodes later : List Node) :
    rulesOfNodes (nodes ++ later) = rulesOfNodes nodes ++ rulesOfNodes later := by
  induction nodes with
  | nil => simp
  | cons node rest ih =>
    rw [List.cons_append, rulesOfNodes_cons, rulesOfNodes_cons, ih, List.append_assoc]

@[simp] theorem withoutEmptyRules_nil : withoutEmptyRules [] = [] := by
  rw [withoutEmptyRules]

/-- Empty rules are deleted node by node. -/
theorem withoutEmptyRules_cons (node : Node) (rest : List Node) :
    withoutEmptyRules (node :: rest) = node.withoutEmptyRules ++ withoutEmptyRules rest := by
  rw [withoutEmptyRules]

/-- Empty rules are deleted in both parts of appended nodes. -/
theorem withoutEmptyRules_append (nodes later : List Node) :
    withoutEmptyRules (nodes ++ later) = withoutEmptyRules nodes ++ withoutEmptyRules later := by
  induction nodes with
  | nil => simp
  | cons node rest ih =>
    rw [List.cons_append, withoutEmptyRules_cons, withoutEmptyRules_cons, ih, List.append_assoc]

mutual

/-- What is left of a node without its empty rules are its rules that declare something. -/
theorem rules_withoutEmptyRules (node : Node) :
    rulesOfNodes node.withoutEmptyRules = node.rules.filter fun rule => !rule.2.isEmpty := by
  match node with
  | .rule selector declarations =>
    cases declarations with
    | nil => simp [Node.withoutEmptyRules, Node.rules]
    | cons d rest => simp [Node.withoutEmptyRules, Node.rules, rulesOfNodes_cons]
  | .media query body =>
    rw [Node.withoutEmptyRules, rulesOfNodes_cons, rulesOfNodes_nil, List.append_nil, Node.rules,
      Node.rules, rulesOfNodes_withoutEmptyRules body]

/-- The rules that are left are those with a declaration, all of them and in their order. -/
theorem rulesOfNodes_withoutEmptyRules (nodes : List Node) :
    rulesOfNodes (withoutEmptyRules nodes) =
      (rulesOfNodes nodes).filter fun rule => !rule.2.isEmpty := by
  match nodes with
  | [] => simp
  | node :: rest =>
    rw [withoutEmptyRules_cons, rulesOfNodes_append, rules_withoutEmptyRules node,
      rulesOfNodes_withoutEmptyRules rest, rulesOfNodes_cons, List.filter_append]

end

/-! ## The two policies -/

/-- Options with a policy for empty blocks. -/
def Options.withPolicy (o : Options) (policy : EmptyBlocks) : Options :=
  { o with emptyBlocks := policy }

/-- A fragment without the empty rules nested in it. -/
def Fragment.withoutEmptyRules (f : Fragment) : Fragment :=
  ⟨f.declarations, StyleTree.withoutEmptyRules f.nested⟩

/-- Closing a fragment under one policy and under the other. -/
theorem close_withoutEmptyRules (o : Options) (selector : String) (f : Fragment) :
    f.withoutEmptyRules.close (o.withPolicy .suppress) selector =
      withoutEmptyRules (f.close (o.withPolicy .emit) selector) := by
  have emitted : f.hasRule (o.withPolicy .emit) = true := by
    simp [Fragment.hasRule, Options.withPolicy]
  rw [Fragment.close, Fragment.close, emitted, if_pos rfl, withoutEmptyRules_cons]
  cases hd : f.declarations with
  | nil =>
    simp [Fragment.hasRule, Fragment.withoutEmptyRules, Options.withPolicy,
      Node.withoutEmptyRules, hd]
  | cons d rest =>
    simp [Fragment.hasRule, Fragment.withoutEmptyRules, Node.withoutEmptyRules, hd]

mutual

/-- Where empty blocks are suppressed, a part makes the fragment that it makes elsewhere, without
the empty rules. -/
theorem fragment_suppress (o : Options) (selector : String) (part : StylePart) :
    part.fragment (o.withPolicy .suppress) selector =
      (part.fragment (o.withPolicy .emit) selector).withoutEmptyRules := by
  match part with
  | .run key declarations =>
    simp [StylePart.fragment, Fragment.ofDeclarations, Fragment.withoutEmptyRules]
  | .nested suffix parts =>
    rw [StylePart.fragment, StylePart.fragment, fragmentOfParts_suppress o _ parts,
      close_withoutEmptyRules]
    rfl
  | .media query parts =>
    rw [StylePart.fragment, StylePart.fragment, fragmentOfParts_suppress o _ parts,
      close_withoutEmptyRules]
    simp [Fragment.ofNodes, Fragment.withoutEmptyRules, withoutEmptyRules_cons,
      Node.withoutEmptyRules]

/-- What parts contribute when empty rules are suppressed. -/
theorem fragmentOfParts_suppress (o : Options) (selector : String) (parts : List StylePart) :
    fragmentOfParts (o.withPolicy .suppress) selector parts =
      (fragmentOfParts (o.withPolicy .emit) selector parts).withoutEmptyRules := by
  match parts with
  | [] => simp [Fragment.withoutEmptyRules, Fragment.empty]
  | part :: rest =>
    simp only [fragmentOfParts_cons, fragment_suppress o selector part,
      fragmentOfParts_suppress o selector rest, Fragment.append, Fragment.withoutEmptyRules,
      withoutEmptyRules_append]

end

/-- Where empty blocks are suppressed, parts make the nodes that they make elsewhere, without the
empty rules. -/
theorem nodesOfParts_suppress (o : Options) (selector : String) (parts : List StylePart) :
    nodesOfParts (o.withPolicy .suppress) selector parts =
      withoutEmptyRules (nodesOfParts (o.withPolicy .emit) selector parts) := by
  rw [nodesOfParts, nodesOfParts, fragmentOfParts_suppress, close_withoutEmptyRules]

/-- A policy changes no part of a style map. -/
theorem partsOf_withPolicy (o : Options) (policy : EmptyBlocks) (styles : StyleMap) :
    partsOf (o.withPolicy policy) styles = partsOf o styles := by
  have same : ∀ key, (o.withPolicy policy).Declares key ↔ o.Declares key := fun _ => Iff.rfl
  exact partsOf_congr same styles

/-- The rule tree under suppression is what is left of the other one. -/
theorem ruleTree_suppress (o : Options) (selector : String) (styles : StyleMap) :
    ruleTree (o.withPolicy .suppress) selector styles =
      (ruleTree (o.withPolicy .emit) selector styles).map withoutEmptyRules := by
  cases query : isMediaQuery selector with
  | true =>
    rw [ruleTree_of_isMediaQuery _ query, ruleTree_of_isMediaQuery _ query]
    rfl
  | false =>
    rw [ruleTree_eq_map_parts query, ruleTree_eq_map_parts query, partsOf_withPolicy,
      partsOf_withPolicy]
    cases partsOf o styles with
    | error e => rfl
    | ok parts =>
      have table : (o.withPolicy .suppress).vendorPrefixes = (o.withPolicy .emit).vendorPrefixes :=
        rfl
      simp only [Except.map, prefixedParts_congr table parts, nodesOfParts_suppress]

/-! ## Entries that write something -/

/-- Whether an entry **writes** something under options that suppress empty rules: a declaration of
its own or of an entry nested in it, or a media query. -/
inductive WritesEntry (o : Options) : String × StyleValue → Prop
  /-- A property declares something unless its value is a map without sides. -/
  | property {key : String} {value : StyleValue} (declares : o.Declares key)
      (sides : value ≠ .map []) : WritesEntry o (key, value)
  /-- A nested selector writes what an entry inside writes. -/
  | selector {key : String} {entries : List (String × StyleValue)}
      {entry : String × StyleValue} (nests : ¬ o.Declares key)
      (kind : nestedKind key = .selector) (mem : entry ∈ entries) (inner : WritesEntry o entry) :
      WritesEntry o (key, .map entries)
  /-- A media query is written whatever is inside. -/
  | mediaQuery {key : String} {entries : List (String × StyleValue)} (nests : ¬ o.Declares key)
      (kind : nestedKind key = .mediaQuery) : WritesEntry o (key, .map entries)

variable {o : Options}

/-- A declaring entry writes something unless its value is a map of no sides. -/
theorem writesEntry_iff_of_declares {key : String} (declares : o.Declares key)
    (value : StyleValue) : WritesEntry o (key, value) ↔ value ≠ .map [] := by
  constructor
  · intro h
    cases h with
    | property _ sides => exact sides
    | selector nests => exact absurd declares nests
    | mediaQuery nests => exact absurd declares nests
  · exact .property declares

/-- A nested selector writes something if one of its entries does. -/
theorem writesEntry_iff_of_selector {key : String} (nests : ¬ o.Declares key)
    (kind : nestedKind key = .selector) (entries : List (String × StyleValue)) :
    WritesEntry o (key, .map entries) ↔ ∃ entry ∈ entries, WritesEntry o entry := by
  constructor
  · intro h
    cases h with
    | property declares => exact absurd declares nests
    | selector _ _ mem inner => exact ⟨_, mem, inner⟩
    | mediaQuery _ query =>
      rw [kind] at query
      cases query
  · rintro ⟨entry, mem, inner⟩
    exact .selector nests kind mem inner

/-- A property is declared at least once for each side, and a value that is not a map once. -/
theorem declareProperty_eq_nil_iff {name property : String} {value : StyleValue}
    {declarations : List Declaration}
    (h : declareProperty name property value = .ok declarations) :
    declarations = [] ↔ value = .map [] := by
  unfold declareProperty at h
  split at h
  · next sides =>
    cases sides with
    | nil =>
      cases h
      simp
    | cons first rest =>
      -- every key of a side stands for one side at least, whose declaration comes first
      obtain ⟨key, value⟩ := first
      rw [declareSides] at h
      obtain ⟨run, hrun, h⟩ := Result.bind_eq_ok.1 h
      obtain ⟨later, hlater, h⟩ := Result.bind_eq_ok.1 h
      cases h
      obtain ⟨side, sides, expanded, -⟩ := exists_expandSide_eq property key
      rw [expanded, List.mapM_cons] at hrun
      obtain ⟨d, hd, hrun⟩ := Result.bind_eq_ok.1 hrun
      obtain ⟨others, hothers, hrun⟩ := Result.bind_eq_ok.1 hrun
      cases hrun
      simp
  · next noMap =>
    obtain ⟨d, hd, h⟩ := Result.bind_eq_ok.1 h
    cases h
    simpa using noMap []

/-- Fragments put together are empty only if both are. -/
theorem Fragment.append_eq_empty_iff {f g : Fragment} :
    f.append g = .empty ↔ f = .empty ∧ g = .empty := by
  obtain ⟨fd, fn⟩ := f
  obtain ⟨gd, gn⟩ := g
  simp only [Fragment.append, Fragment.empty, Fragment.mk.injEq, List.append_eq_nil_iff]
  tauto

/-- Under suppression nothing is written of a fragment if and only if there is nothing in it. -/
theorem Fragment.close_eq_nil_iff (suppress : o.emptyBlocks = .suppress) (selector : String)
    (f : Fragment) : f.close o selector = [] ↔ f = .empty := by
  obtain ⟨declarations, nested⟩ := f
  cases declarations <;> simp [Fragment.close, Fragment.hasRule, Fragment.empty, suppress]

/-- Entries contribute nothing if and only if none of them writes anything. -/
theorem eq_empty_iff_of_contributes (suppress : o.emptyBlocks = .suppress) {selector : String}
    {entries : List (String × StyleValue)} {f : Fragment} (h : Contributes o selector entries f) :
    f = .empty ↔ ∀ entry ∈ entries, ¬ WritesEntry o entry := by
  -- induction on the derivation; the role of the first key says what its entry has to write
  induction h with
  | nil selector => simp
  | @property selector key value rest prefixes declarations f hyphen role declared later ih =>
    have declares : o.Declares key := declares_iff_role.2 ⟨prefixes, role⟩
    rw [declareEntry_eq_map_copies] at declared
    obtain ⟨run, hrun, rfl⟩ := Result.map_eq_ok.1 declared
    have none : Fragment.ofDeclarations (withCopies prefixes run) = .empty ↔ run = [] := by
      simp [Fragment.ofDeclarations, Fragment.empty, withCopies_eq_nil_iff]
    rw [Fragment.append_eq_empty_iff, ih, List.forall_mem_cons, none,
      declareProperty_eq_nil_iff hrun, writesEntry_iff_of_declares declares, not_not]
  | @selector selector key separator entries rest f g hyphen role proper inner later ihInner
      ihLater =>
    obtain ⟨nests, kind⟩ := nests_of_role_selector role
    have none : Fragment.ofNodes (f.close o (selector ++ separator ++ spinalCase key)) = .empty ↔
        f = .empty := by
      rw [← Fragment.close_eq_nil_iff suppress (selector ++ separator ++ spinalCase key) f]
      simp [Fragment.ofNodes, Fragment.empty]
    rw [Fragment.append_eq_empty_iff, ihLater, List.forall_mem_cons, none, ihInner,
      writesEntry_iff_of_selector nests kind]
    simp only [not_exists, not_and]
  | @mediaQuery selector key entries rest f g hyphen role proper inner later ihInner ihLater =>
    obtain ⟨nests, kind⟩ := nests_of_role_mediaQuery role
    have written : WritesEntry o (key, .map entries) := .mediaQuery nests kind
    have some : Fragment.ofNodes [.media key (f.close o selector)] ≠ .empty := by
      simp [Fragment.ofNodes, Fragment.empty]
    rw [Fragment.append_eq_empty_iff, List.forall_mem_cons]
    exact ⟨fun h => absurd h.1 some, fun h => absurd written h.1⟩

/-- A node is written with an empty line before it at least. -/
theorem layoutNodes_eq_empty_iff (level : Nat) (nodes : List Node) :
    layoutNodes level nodes = "" ↔ nodes = [] := by
  cases nodes with
  | nil => simp
  | cons node rest =>
    rw [layoutNodes_cons]
    cases node <;> simp [Node.layout]

/-- A style map has no text if and only if none of its entries writes anything. -/
theorem compile_eq_empty_iff (suppress : o.emptyBlocks = .suppress) {level : Nat}
    {selector css : String} {styles : StyleMap} (h : compile o level selector styles = .ok css) :
    css = "" ↔ ∀ entry ∈ styles, ¬ WritesEntry o entry := by
  obtain ⟨nodes, tree, rfl⟩ := Result.map_eq_ok.1 h
  obtain ⟨-, f, contributes, rfl⟩ := contributes_of_ruleTree tree
  rw [layoutNodes_eq_empty_iff, Fragment.close_eq_nil_iff suppress,
    eq_empty_iff_of_contributes suppress contributes]

/-- Rules have no text if and only if none of their entries writes anything. -/
theorem rulesText_eq_empty_iff (suppress : o.emptyBlocks = .suppress) {level : Nat}
    {rules : RuleSet} {css : String} (h : rulesText o level rules = .ok css) :
    css = "" ↔ ∀ rule ∈ rules, ∀ entry ∈ rule.2, ¬ WritesEntry o entry := by
  induction rules generalizing css with
  | nil =>
    cases h
    simp
  | cons rule rest ih =>
    obtain ⟨selector, styles⟩ := rule
    obtain ⟨text, later, htext, hlater, rfl⟩ := rulesText_cons_ok.1 h
    rw [String.append_eq_empty_iff, compile_eq_empty_iff suppress htext, ih hlater,
      List.forall_mem_cons]

/-- A wrapper is left out exactly if there is nothing to put into it. -/
theorem wrapKeyframes_eq_empty_iff {name body : String} :
    wrapKeyframes name body = "" ↔ body = "" := by
  unfold wrapKeyframes
  split
  · next empty => simp [empty]
  · next text => simp [text]

/-- An animation is **hollow** if no entry of its frames writes anything. -/
def Issued.Hollow (a : Issued RuleSet) : Prop :=
  ∀ frame ∈ a.entry, ∀ entry ∈ frame.2, ¬ WritesEntry a.options entry

/-- Under suppression an animation has no text if and only if it is hollow. -/
theorem Issued.AnimationText.eq_empty_iff {a : Issued RuleSet}
    (suppress : a.options.emptyBlocks = .suppress) {text : String} (h : a.AnimationText text) :
    text = "" ↔ a.Hollow := by
  obtain ⟨body, hbody, rfl⟩ := h
  rw [wrapKeyframes_eq_empty_iff, rulesText_eq_empty_iff suppress hbody, Issued.Hollow]

/-! ## Names under the two policies -/

/-- A style map cannot be written under one policy for the reason for which it cannot under the
other. -/
theorem failure?_compile_suppress (o : Options) (level : Nat) (selector : String)
    (styles : StyleMap) :
    Result.failure? (compile (o.withPolicy .suppress) level selector styles) =
      Result.failure? (compile (o.withPolicy .emit) level selector styles) := by
  rw [compile, compile, ruleTree_suppress, Result.failure?_map, Result.failure?_map,
    Result.failure?_map]

/-- Rules fail alike whatever becomes of empty blocks. -/
theorem failure?_rulesText_suppress (o : Options) (level : Nat) (rules : RuleSet) :
    Result.failure? (rulesText (o.withPolicy .suppress) level rules) =
      Result.failure? (rulesText (o.withPolicy .emit) level rules) := by
  induction rules with
  | nil => rfl
  | cons rule rest ih =>
    obtain ⟨selector, styles⟩ := rule
    rw [rulesText_cons, rulesText_cons, Result.failure?_bind_map, Result.failure?_bind_map,
      failure?_compile_suppress, ih]

/-- Keyframes fail alike whatever becomes of empty blocks. -/
theorem failure?_keyframesText_suppress (o : Options) (name : String) (frames : RuleSet) :
    Result.failure? (keyframesText (o.withPolicy .suppress) name frames) =
      Result.failure? (keyframesText (o.withPolicy .emit) name frames) := by
  rw [keyframesText, keyframesText, Result.failure?_map, Result.failure?_map,
    failure?_rulesText_suppress]

namespace Session

variable {s : Session} {α : Type}

/-- A session with a policy for empty blocks. -/
def withPolicy (s : Session) (policy : EmptyBlocks) : Session :=
  { s with options := s.options.withPolicy policy }

/-- What becomes of empty blocks is no matter of the registries. -/
@[simp] theorem names_withPolicy (s : Session) (policy : EmptyBlocks) (kind : NameKind) :
    (s.withPolicy policy).names kind = s.names kind := by
  cases kind <;> rfl

/-- A policy has no part in a batch but that its entries are written under it. -/
theorem batch_withPolicy {w w' : EntryWriter α} (kind : NameKind) (policy : EmptyBlocks)
    (entries : Table α)
    (alike : ∀ name entry,
      Result.failure? (w'.text name entry) = Result.failure? (w.text name entry)) :
    (((s.withPolicy policy).batch kind w' entries).result.map fun made => (made.1.names, made.2)) =
        ((s.batch kind w entries).result.map fun made => (made.1.names, made.2)) ∧
      ((s.withPolicy policy).batch kind w' entries).generator =
        (s.batch kind w entries).generator := by
  rw [batch, batch, names_withPolicy]
  exact Batch.named_of_failure?_eq s.options.obfuscate ((s.names kind).reserve kind) s.generator
    entries alike

/-- Entries that fail alike under two policies are given the same names, and the sessions differ
afterwards in the policy alone. -/
theorem generateNamed_withPolicy {kind : NameKind} {w w' : EntryWriter α} {policy : EmptyBlocks}
    (alike : ∀ name entry,
      Result.failure? (w'.text name entry) = Result.failure? (w.text name entry))
    (entries : Table α) :
    ((s.withPolicy policy).generateNamed kind w' entries).result.map Generated.names =
        (s.generateNamed kind w entries).result.map Generated.names ∧
      ((s.withPolicy policy).generateNamed kind w' entries).session =
        (s.generateNamed kind w entries).session.withPolicy policy := by
  obtain ⟨named_eq, generator_eq⟩ := batch_withPolicy kind policy entries alike
  -- both batches fail with one error, or name the entries alike
  cases hbatch : (s.batch kind w entries).result with
  | error e =>
    rw [hbatch] at named_eq
    obtain ⟨result_eq, session_eq⟩ := generateNamed_of_batch_error hbatch
    obtain ⟨result_eq', session_eq'⟩ :=
      generateNamed_of_batch_error (Result.map_eq_error.1 named_eq)
    rw [result_eq, result_eq', session_eq, session_eq', generator_eq]
    exact ⟨rfl, rfl⟩
  | ok made =>
    obtain ⟨made, r⟩ := made
    rw [hbatch] at named_eq
    obtain ⟨⟨made', r'⟩, hbatch', same⟩ := Result.map_eq_ok.1 named_eq
    obtain ⟨names_eq, rfl⟩ := Prod.mk.inj same
    obtain ⟨result_eq, session_eq⟩ := generateNamed_of_batch_ok hbatch
    obtain ⟨result_eq', session_eq'⟩ := generateNamed_of_batch_ok hbatch'
    rw [result_eq, result_eq', session_eq, session_eq', generator_eq]
    constructor
    · exact congrArg Except.ok names_eq
    · cases kind <;> rfl

/-- Animations are given the same names under both policies. -/
theorem generate_animations_suppress (s : Session) (frames : KeyframeSet) :
    ((s.withPolicy .suppress).generate (.animations frames)).result.map Generated.names =
        ((s.withPolicy .emit).generate (.animations frames)).result.map Generated.names ∧
      ((s.withPolicy .suppress).generate (.animations frames)).session =
        ((s.withPolicy .emit).generate (.animations frames)).session.withPolicy .suppress := by
  have alike : ∀ name entry,
      Result.failure? ((animationWriter (s.options.withPolicy .suppress)).text name entry) =
        Result.failure? ((animationWriter (s.options.withPolicy .emit)).text name entry) :=
    failure?_keyframesText_suppress s.options
  exact generateNamed_withPolicy (s := s.withPolicy .emit) alike frames

/-- Under suppression an animation has its block unless it is hollow. -/
theorem animationTexts_suppress {s : Session} (suppress : s.options.emptyBlocks = .suppress)
    {frames : KeyframeSet} {made : Generated}
    (h : (s.generate (.animations frames)).result = .ok made) :
    ∃ texts, made.css = finish s.options (String.join texts) ∧
      List.Forall₂ (fun a text => a.AnimationText text ∧ (text = "" ↔ a.Hollow))
        (issuedEntries s.options made.names frames) texts := by
  obtain ⟨-, -, texts, written, css_eq⟩ := generateNamed_written h
  refine ⟨texts, css_eq, written.imp ?_⟩
  rintro a text ⟨options_eq, written⟩
  obtain ⟨body, hbody, rfl⟩ := Result.map_eq_ok.1 written
  have text : a.AnimationText (wrapKeyframes a.name body) :=
    ⟨body, by rw [options_eq, hbody], rfl⟩
  have suppressed : a.options.emptyBlocks = .suppress := by rw [options_eq, suppress]
  exact ⟨text, text.eq_empty_iff suppressed⟩

end Session

/-- Suppressing empty rules, instead of emitting them, deletes exactly the rules that declare
nothing: each rule that is left declares something, and all other rules and all media queries keep
their place. Style maps fail for the same reason, and animations are given the same names; one has
its block under suppression unless it is hollow. -/
theorem suppress_deletes_empty_rules :
    (∀ (o : Options) (level : Nat) (selector : String) (styles : StyleMap),
      (∃ e, compile (o.withPolicy .emit) level selector styles = .error e ∧
        compile (o.withPolicy .suppress) level selector styles = .error e) ∨
      ∃ nodes, ruleTree (o.withPolicy .emit) selector styles = .ok nodes ∧
        ruleTree (o.withPolicy .suppress) selector styles = .ok (withoutEmptyRules nodes) ∧
        compile (o.withPolicy .emit) level selector styles = .ok (layoutNodes level nodes) ∧
        compile (o.withPolicy .suppress) level selector styles =
          .ok (layoutNodes level (withoutEmptyRules nodes)) ∧
        rulesOfNodes (withoutEmptyRules nodes) =
          (rulesOfNodes nodes).filter (fun rule => !rule.2.isEmpty) ∧
        ∀ rule ∈ rulesOfNodes (withoutEmptyRules nodes), rule.2 ≠ []) ∧
    ∀ (s : Session) (frames : KeyframeSet),
      let emit := s.withPolicy .emit
      let suppress := s.withPolicy .suppress
      (suppress.generate (.animations frames)).result.map Generated.names =
          (emit.generate (.animations frames)).result.map Generated.names ∧
        (suppress.generate (.animations frames)).session =
          (emit.generate (.animations frames)).session.withPolicy .suppress ∧
        (suppress.create (.animations frames)).result =
          (emit.create (.animations frames)).result ∧
        (∀ kind, (suppress.create (.animations frames)).session.names kind =
          (emit.create (.animations frames)).session.names kind) ∧
        ∀ made, (suppress.generate (.animations frames)).result = .ok made →
          ∃ texts, made.css = finish s.options (String.join texts) ∧
            List.Forall₂ (fun a text => a.AnimationText text ∧ (text = "" ↔ a.Hollow))
              (issuedEntries suppress.options made.names frames) texts := by
  refine ⟨fun o level selector styles => ?_, fun s frames => ?_⟩
  · rw [compile, compile, ruleTree_suppress]
    cases tree : ruleTree (o.withPolicy .emit) selector styles with
    | error e => exact .inl ⟨e, rfl, rfl⟩
    | ok nodes =>
      refine .inr ⟨nodes, rfl, rfl, rfl, rfl, rulesOfNodes_withoutEmptyRules nodes, ?_⟩
      -- the rules that are left are those that declare something
      intro rule hrule
      rw [rulesOfNodes_withoutEmptyRules] at hrule
      simpa using List.of_mem_filter hrule
  · obtain ⟨result_eq, session_eq⟩ := Session.generate_animations_suppress s frames
    refine ⟨result_eq, session_eq, ?_, fun kind => ?_, fun made hmade => ?_⟩
    · rw [Session.result_create, Session.result_create, result_eq]
    · rw [Session.names_create, Session.names_create, session_eq, Session.names_withPolicy]
    · exact Session.animationTexts_suppress rfl hmade

/-- A rule inside an empty one, and a media query with nothing but empty rules; and two animations
without declarations, of which one has a media query. -/
theorem suppress_deletes_empty_rules_hover :
    let styles : StyleMap :=
      [("padding", .map []), ("hover", .map [("color", .text "red")]),
        ("@media print", .map [("focus", .map [])])]
    let nodes : List Node :=
      [.rule "a" [], .rule "a:hover" [⟨"color", "red"⟩],
        .media "@media print" [.rule "a" [], .rule "a:focus" []]]
    let s : Session := { Session.new (.sheet "") (.ofSeed 7) with options := { obfuscate := false } }
    let frames : KeyframeSet :=
      [("still", [("from", [("hover", .map [])])]),
        ("moved", [("to", [("@media print", .map [])])])]
    ruleTree (({} : Options).withPolicy .emit) "a" styles = .ok nodes ∧
      ruleTree (({} : Options).withPolicy .suppress) "a" styles =
        .ok [.rule "a:hover" [⟨"color", "red"⟩], .media "@media print" []] ∧
      ∃ css block, ((s.withPolicy .suppress).generate (.animations frames)).result =
          .ok ⟨[("still", "still"), ("moved", "moved")], css⟩ ∧
        css = String.join ["", block] ∧ block ≠ "" := by
  intro styles nodes s frames
  have emitted : ruleTree (({} : Options).withPolicy .emit) "a" styles = .ok nodes := rfl
  have generated : ∃ css, ((s.withPolicy .suppress).generate (.animations frames)).result =
      .ok ⟨[("still", "still"), ("moved", "moved")], css⟩ := ⟨_, rfl⟩
  obtain ⟨css, generated⟩ := generated
  obtain ⟨trees, calls⟩ := suppress_deletes_empty_rules
  refine ⟨emitted, ?_, css, ?_⟩
  · rcases trees {} 0 "a" styles with ⟨e, failed, -⟩ | ⟨nodes', emitted', suppressed, -⟩
    · rw [compile, emitted] at failed
      cases failed
    · obtain rfl : nodes' = nodes := Except.ok.inj (emitted'.symm.trans emitted)
      exact suppressed
  · obtain ⟨texts, css_eq, written⟩ := (calls s frames).2.2.2.2 _ generated
    rcases written with _ | ⟨⟨-, still⟩, _ | ⟨⟨-, moved⟩, _ | _⟩⟩
    have selector : ¬ (s.withPolicy .suppress).options.Declares "hover" := by decide
    have query : ¬ (s.withPolicy .suppress).options.Declares "@media print" := by decide
    have nothing : ¬ WritesEntry (s.withPolicy .suppress).options ("hover", .map []) := by
      rw [writesEntry_iff_of_selector selector rfl]
      simp
    obtain rfl := still.2 (by simpa [Issued.Hollow] using nothing)
    refine ⟨_, generated, css_eq, fun hollow => ?_⟩
    exact moved.1 hollow _ (.head _) _ (.head _) (.mediaQuery query rfl)

end StyleTree
