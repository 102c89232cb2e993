import StyleTree.Proofs.Contribution
import StyleTree.Proofs.Registries

/-! # Rules of issued classes

Which rules a class has, and why no two classes share one. Every rule of a class **extends** the
selector of the class by pseudo-selectors, each of which starts with a colon; the selector of a
class without a colon in its name is what stands before the first colon, and no two names that a run
has issued are equal.

* **`Issued`** is an entry of a section with the name issued for it; `Session.issuedClasses` and
  `Session.issuedAnimations` are those of a run.
* **`Extends`** is the shape of the selectors, and `extends_of_ruleTree` says that all have it.
* **`classes_share_no_rule`** is the main result. -/

namespace StyleTree

/-! ## Selectors of a rule tree -/

mutual

/-- The selectors of the rules in a node, also of those inside media queries. -/
def Node.selectors : Node → List String
  | .rule selector _ => [selector]
  | .media _ body => selectorsOfNodes body

/-- The selectors of the rules in nodes. -/
def selectorsOfNodes : List Node → List String
  | [] => []
  | node :: rest => node.selectors ++ selectorsOfNodes rest

end

@[simp] theorem selectorsOfNodes_nil : selectorsOfNodes [] = [] := by
  rw [selectorsOfNodes]

/-- The selectors of the first node come first. -/
theorem selectorsOfNodes_cons (node : Node) (rest : List Node) :
    selectorsOfNodes (node :: rest) = node.selectors ++ selectorsOfNodes rest := by
  rw [selectorsOfNodes]

/-- The selectors of appended nodes are appended. -/
theorem selectorsOfNodes_append (nodes later : List Node) :
    selectorsOfNodes (nodes ++ later) = selectorsOfNodes nodes ++ selectorsOfNodes later := by
  induction nodes with
  | nil => simp
  | cons node rest ih =>
    rw [List.cons_append, selectorsOfNodes_cons, selectorsOfNodes_cons, ih, List.append_assoc]

/-- Closing a fragment adds at most the selector itself. -/
theorem mem_selectorsOfNodes_close {o : Options} {selector x : String} {f : Fragment}
    (h : x ∈ selectorsOfNodes (f.close o selector)) :
    x = selector ∨ x ∈ selectorsOfNodes f.nested := by
  unfold Fragment.close at h
  split at h
  · simpa [selectorsOfNodes_cons, Node.selectors] using h
  · exact .inr h

/-- A selector **extends** another if it is that selector followed by any chain of
pseudo-selectors. -/
inductive Extends (selector : String) : String → Prop
  /-- The selector itself. -/
  | self : Extends selector selector
  /-- One more pseudo-selector. -/
  | pseudo {longer key separator : String} (h : Extends selector longer)
      (listed : selectorSeparator? key = some separator) :
      Extends selector (longer ++ separator ++ spinalCase key)

/-- The nested rules of a style map all extend the selector that the map stands under. -/
theorem extends_of_contributes {o : Options} {selector : String}
    {entries : List (String × StyleValue)} {f : Fragment} (h : Contributes o selector entries f) :
    ∀ base, Extends base selector → ∀ x ∈ selectorsOfNodes f.nested, Extends base x := by
  -- induction on the derivation: the selector grows inside nested selectors, `base` stays
  induction h with
  | nil selector => simp [Fragment.empty]
  | property hyphen role declared later ih =>
    intro base hbase x hx
    exact ih base hbase x hx
  | selector hyphen role proper inner later ihInner ihLater =>
    intro base hbase x hx
    have nested := hbase.pseudo (selectorSeparator?_of_role role)
    rw [Fragment.append, Fragment.ofNodes, selectorsOfNodes_append, List.mem_append] at hx
    rcases hx with hx | hx
    · rcases mem_selectorsOfNodes_close hx with rfl | hx
      · exact nested
      · exact ihInner base nested x hx
    · exact ihLater base hbase x hx
  | mediaQuery hyphen role proper inner later ihInner ihLater =>
    intro base hbase x hx
    rw [Fragment.append, Fragment.ofNodes, selectorsOfNodes_append, List.mem_append] at hx
    rcases hx with hx | hx
    · rw [selectorsOfNodes_cons, selectorsOfNodes_nil, List.append_nil, Node.selectors] at hx
      rcases mem_selectorsOfNodes_close hx with rfl | hx
      · exact hbase
      · exact ihInner base hbase x hx
    · exact ihLater base hbase x hx

/-- The rules of a rule tree all extend its selector. -/
theorem extends_of_ruleTree {o : Options} {selector : String} {styles : StyleMap}
    {nodes : List Node} (h : ruleTree o selector styles = .ok nodes) :
    ∀ x ∈ selectorsOfNodes nodes, Extends selector x := by
  obtain ⟨-, f, contributes, rfl⟩ := contributes_of_ruleTree h
  intro x hx
  rcases mem_selectorsOfNodes_close hx with rfl | hx
  · exact .self
  · exact extends_of_contributes contributes selector .self x hx

/-- An extension adds nothing, or something that starts with a colon. -/
theorem Extends.exists_suffix {selector longer : String} (h : Extends selector longer) :
    ∃ suffix, longer.toList = selector.toList ++ suffix ∧
      (suffix = [] ∨ ∃ rest, suffix = ':' :: rest) := by
  induction h with
  | self => exact ⟨[], by simp, .inl rfl⟩
  | @pseudo longer key separator h listed ih =>
    obtain ⟨suffix, longer_eq, hsuffix⟩ := ih
    obtain ⟨colons, separator_eq⟩ := exists_colons listed
    refine ⟨suffix ++ ':' :: colons ++ (spinalCase key).toList, ?_, .inr ?_⟩
    · simp [longer_eq, separator_eq]
    -- the first separator is the colon that the suffix starts with
    · rcases hsuffix with rfl | ⟨rest, rfl⟩
      · exact ⟨_, rfl⟩
      · exact ⟨_, rfl⟩

/-- A selector without a colon is what stands before the first colon of its extensions. -/
theorem Extends.takeWhile_eq {selector longer : String} (h : Extends selector longer)
    (colon : ':' ∉ selector.toList) :
    longer.toList.takeWhile (· ≠ ':') = selector.toList := by
  obtain ⟨suffix, longer_eq, hsuffix⟩ := h.exists_suffix
  have kept : ∀ c ∈ selector.toList, decide (c ≠ ':') = true := by
    intro c hc
    exact decide_eq_true fun e => colon (e ▸ hc)
  rw [longer_eq, List.takeWhile_append_of_pos kept]
  rcases hsuffix with rfl | ⟨rest, rfl⟩ <;> simp

/-- Selectors without a colon that have a common extension are equal. -/
theorem Extends.eq {a b longer : String} (ha : Extends a longer) (hb : Extends b longer)
    (colon_a : ':' ∉ a.toList) (colon_b : ':' ∉ b.toList) : a = b := by
  rw [← String.toList_inj, ← ha.takeWhile_eq colon_a, hb.takeWhile_eq colon_b]

/-! ## Entries with their names -/

/-- An entry of a section, with the name that has been issued for it. -/
structure Issued (α : Type) where
  /-- The options in effect. -/
  options : Options
  /-- The key of the entry. -/
  key : String
  /-- The name issued for the key. -/
  name : String
  /-- The entry. -/
  entry : α

/-- The entries of a section with the names issued for them. -/
def issuedEntries {α : Type} (o : Options) (names : Table String) (entries : Table α) :
    List (Issued α) :=
  List.zipWith (fun issued entry => ⟨o, issued.1, issued.2, entry.2⟩) names entries

/-- A completed batch has written every entry under its name, one after another. -/
theorem Batch.Completes.written {α : Type} {w : EntryWriter α} {o : Options}
    {r r' : Reservation} {entries : Table α} {made : Generated}
    (h : Batch.Completes w o.obfuscate r entries made r') :
    (issuedEntries o made.names entries).map Issued.name = made.names.map Prod.snd ∧
      (∀ i ∈ issuedEntries o made.names entries,
        NamedAfter i.options.obfuscate i.key i.name) ∧
      ∃ texts, List.Forall₂
        (fun i text => i.options = o ∧ w.text (Issued.name i) i.entry = .ok text)
        (issuedEntries o made.names entries) texts ∧ made.css = String.join texts := by
  -- on the run of the batch, entry by entry
  induction h with
  | done r => exact ⟨rfl, by simp [issuedEntries], [], .nil, rfl⟩
  | @entry r r' base name css entry rest made free named written later ih =>
    obtain ⟨names_eq, namedAfter, texts, htexts, css_eq⟩ := ih
    refine ⟨?_, ?_, css :: texts, .cons ⟨rfl, written⟩ htexts, ?_⟩
    · rw [List.map_cons, ← names_eq]
      rfl
    · intro i hi
      rcases List.mem_cons.1 hi with rfl | hi
      · exact named
      · exact namedAfter i hi
    · rw [String.join_cons, css_eq]

/-- Whether a class has a rule with a selector. -/
def Issued.HasRule (c : Issued StyleMap) (selector : String) : Prop :=
  ∃ nodes, ruleTree c.options (classSelector c.name) c.entry = .ok nodes ∧
    selector ∈ selectorsOfNodes nodes

/-- The text of a class: its rules, laid out. -/
def Issued.ClassText (c : Issued StyleMap) (text : String) : Prop :=
  ∃ nodes, ruleTree c.options (classSelector c.name) c.entry = .ok nodes ∧
    text = layoutNodes 0 nodes

/-- The text of an animation: a block under its name, or nothing. -/
def Issued.AnimationText (a : Issued RuleSet) (text : String) : Prop :=
  ∃ body, rulesText a.options 1 a.entry = .ok body ∧ text = wrapKeyframes a.name body

namespace Making

/-- The classes of a section that has been made. -/
def classes (m : Making) : List (Issued StyleMap) :=
  match m.styles with
  | .classes rules => issuedEntries m.options m.made.names rules
  | _ => []

/-- The animations of a section that has been made. -/
def animations (m : Making) : List (Issued RuleSet) :=
  match m.styles with
  | .animations frames => issuedEntries m.options m.made.names frames
  | _ => []

/-- The text of a making, apart from its final form, is that of its classes or animations in
order. -/
def Written (m : Making) : Prop :=
  ∃ texts, m.made.css = finish m.options (String.join texts) ∧
    match m.styles with
    | .tags _ => True
    | .classes _ => List.Forall₂ Issued.ClassText m.classes texts
    | .animations _ => List.Forall₂ Issued.AnimationText m.animations texts

end Making

namespace Session

/-- All classes that calls have issued names for. -/
def issuedClasses (s : Session) (calls : List Call) : List (Issued StyleMap) :=
  (s.history calls).flatMap Making.classes

/-- All animations that calls have issued names for. -/
def issuedAnimations (s : Session) (calls : List Call) : List (Issued RuleSet) :=
  (s.history calls).flatMap Making.animations

variable {s : Session} {calls : List Call} {m : Making}

/-- A section that has been made has its names and its text entry by entry. -/
theorem generateNamed_written {α : Type} {kind : NameKind} {w : EntryWriter α} {entries : Table α}
    {made : Generated} (h : (s.generateNamed kind w entries).result = .ok made) :
    (issuedEntries s.options made.names entries).map Issued.name = made.names.map Prod.snd ∧
      (∀ i ∈ issuedEntries s.options made.names entries,
        NamedAfter i.options.obfuscate i.key i.name) ∧
      ∃ texts, List.Forall₂
        (fun i text => i.options = s.options ∧ w.text (Issued.name i) i.entry = .ok text)
        (issuedEntries s.options made.names entries) texts ∧
        made.css = finish s.options (String.join texts) := by
  obtain ⟨css, r, g, completes, css_eq, -⟩ := generateNamed_ok h
  obtain ⟨names_eq, namedAfter, texts, htexts, rfl⟩ := completes.written
  exact ⟨names_eq, namedAfter, texts, htexts, css_eq⟩

/-- In a run, the classes and animations of a making have its names, each named after its key, and
make up its text. -/
theorem issued_of_mem_history (h : m ∈ s.history calls) :
    m.classes.map Issued.name = m.namesOf .styleClass ∧
      m.animations.map Issued.name = m.namesOf .animation ∧
      (∀ c ∈ m.classes, NamedAfter c.options.obfuscate c.key c.name) ∧ m.Written := by
  obtain ⟨t, styles, h⟩ := exists_of_mem_history h
  obtain ⟨made, hmade, rfl⟩ := mem_making.1 h
  cases styles with
  | tags rules =>
    -- tags have no names, and their text is one piece
    obtain ⟨css, -, rfl⟩ := Result.map_eq_ok.1 hmade
    refine ⟨rfl, rfl, by simp [Making.classes], [css], ?_, trivial⟩
    simp
  | classes rules =>
    obtain ⟨names_eq, namedAfter, texts, htexts, css_eq⟩ := generateNamed_written hmade
    refine ⟨names_eq, rfl, namedAfter, texts, css_eq, htexts.imp ?_⟩
    rintro c text ⟨options_eq, htext⟩
    obtain ⟨nodes, hnodes, rfl⟩ := Result.map_eq_ok.1 htext
    exact ⟨nodes, options_eq ▸ hnodes, rfl⟩
  | animations frames =>
    obtain ⟨names_eq, -, texts, htexts, css_eq⟩ := generateNamed_written hmade
    refine ⟨rfl, names_eq, by simp [Making.classes], texts, css_eq, htexts.imp ?_⟩
    rintro a text ⟨options_eq, htext⟩
    obtain ⟨body, hbody, rfl⟩ := Result.map_eq_ok.1 htext
    exact ⟨body, options_eq ▸ hbody, rfl⟩

/-- The classes of a run have the names that it has issued to classes. -/
theorem map_name_issuedClasses (s : Session) (calls : List Call) :
    (s.issuedClasses calls).map Issued.name = s.issuedNames .styleClass calls := by
  rw [issuedClasses, issuedNames, List.map_flatMap]
  exact List.flatMap_congr fun m hm => (issued_of_mem_history hm).1

/-- The animations of a run have the names that it has issued to animations. -/
theorem map_name_issuedAnimations (s : Session) (calls : List Call) :
    (s.issuedAnimations calls).map Issued.name = s.issuedNames .animation calls := by
  rw [issuedAnimations, issuedNames, List.map_flatMap]
  exact List.flatMap_congr fun m hm => (issued_of_mem_history hm).2.1

/-- A class that a run has issued is named after its key, with letters if they were on at the call.
-/
theorem namedAfter_of_mem_issuedClasses {c : Issued StyleMap} (h : c ∈ s.issuedClasses calls) :
    NamedAfter c.options.obfuscate c.key c.name := by
  obtain ⟨m, hm, hc⟩ := List.mem_flatMap.1 h
  exact (issued_of_mem_history hm).2.2.1 c hc

end Session

namespace Issued

/-- A rule of a class has a selector that extends the one of the class. -/
theorem HasRule.extends {c : Issued StyleMap} {selector : String} (h : c.HasRule selector) :
    Extends (classSelector c.name) selector := by
  obtain ⟨nodes, hnodes, hmem⟩ := h
  exact extends_of_ruleTree hnodes selector hmem

/-- The selector of a class has no colon if its key has none. -/
theorem colon_not_mem_classSelector {obfuscate : Bool} {key name : String}
    (h : NamedAfter obfuscate key name) (colon : ':' ∉ key.toList) :
    ':' ∉ (classSelector name).toList := by
  simpa [classSelector] using not_mem_of_namedAfter h colon (by decide) (by decide)

/-- Classes with different names have no rule in common, if their keys have no colon. -/
theorem HasRule.ne {a b : Issued StyleMap} {x y : String} (ha : a.HasRule x) (hb : b.HasRule y)
    (named_a : NamedAfter a.options.obfuscate a.key a.name)
    (named_b : NamedAfter b.options.obfuscate b.key b.name)
    (colon_a : ':' ∉ a.key.toList) (colon_b : ':' ∉ b.key.toList) (hne : a.name ≠ b.name) :
    x ≠ y := by
  rintro rfl
  have selectors_eq : classSelector a.name = classSelector b.name :=
    ha.extends.eq hb.extends (colon_not_mem_classSelector named_a colon_a)
      (colon_not_mem_classSelector named_b colon_b)
  apply hne
  rw [← String.toList_inj] at selectors_eq ⊢
  simpa [classSelector] using selectors_eq

end Issued

/-- In every run of a session, whether its calls succeed or fail, no two classes that names were
issued for share the selector of a rule, at any depth and inside media queries too, unless a key has
a colon in it. Every rule of a class extends the selector of the class. No two keyframe animations
have the same name. The text of each section that was made is that of these classes or animations,
one after another, in its final form. -/
theorem classes_share_no_rule {sink : Option Sink} {g : Generator} {u : Option Options.Update}
    {s : Session} (h : Session.start sink g u = .ok s) (calls : List Call) :
    (s.issuedClasses calls).Pairwise (fun a b => ':' ∉ a.key.toList → ':' ∉ b.key.toList →
      ∀ x y, a.HasRule x → b.HasRule y → x ≠ y) ∧
    (∀ c ∈ s.issuedClasses calls, ∀ x, c.HasRule x → Extends (classSelector c.name) x) ∧
    (s.issuedAnimations calls).Pairwise (fun a b => a.name ≠ b.name) ∧
    ∀ m ∈ s.history calls, m.Written := by
  refine ⟨?_, ?_, ?_, ?_⟩
  -- a common selector would give back one name for two classes that were issued different ones
  · have different : (s.issuedClasses calls).Pairwise fun a b => a.name ≠ b.name := by
      have nodup := Session.nodup_issuedNames h .styleClass calls
      rw [← Session.map_name_issuedClasses] at nodup
      exact List.pairwise_map.1 nodup
    refine different.imp_of_mem ?_
    intro a b ha hb hne colon_a colon_b x y hx hy
    exact hx.ne hy (Session.namedAfter_of_mem_issuedClasses ha)
      (Session.namedAfter_of_mem_issuedClasses hb) colon_a colon_b hne
  · intro c _ x hx
    exact hx.extends
  · have nodup := Session.nodup_issuedNames h .animation calls
    rw [← Session.map_name_issuedAnimations] at nodup
    exact List.pairwise_map.1 nodup
  · intro m hm
    exact (Session.issued_of_mem_history hm).2.2.2

/-- Two classes with a nested rule each, and a batch that fails between them. -/
theorem classes_share_no_rule_plain :
    ∃ s, Session.start (some (.sheet "")) (.ofSeed 7) (some { obfuscate := some false }) = .ok s ∧
      let calls : List Call :=
        [.create (.classes [("a", [("hover", .map [("color", .text "red")])])]),
          .create (.classes [("ab", []), ("a", [])]),
          .generate (.classes [("ab", [("hover", .map [("color", .text "red")])])])]
      ∃ a b, s.issuedClasses calls = [a, b] ∧ a.HasRule ".a:hover" ∧ b.HasRule ".ab:hover" ∧
        ∀ x y, a.HasRule x → b.HasRule y → x ≠ y := by
  have started : Session.start (some (.sheet "")) (.ofSeed 7)
      (some { obfuscate := some false }) = .ok _ := rfl
  refine ⟨_, started, ?_⟩
  intro calls
  refine ⟨_, _, rfl, ⟨_, rfl, by decide⟩, ⟨_, rfl, by decide⟩, ?_⟩
  exact List.pairwise_pair.1 (classes_share_no_rule started calls).1 (by decide) (by decide)

end StyleTree
