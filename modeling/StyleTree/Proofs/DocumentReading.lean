import StyleTree.Proofs.ResolvedValues

/-! # Reading documents

A document is read from a text in one go. It could also be read part by part: the text as a JSON
value, in which repeated keys are resolved, and then each section as a call reads one that is given
in JSON. Both ways give the same document, though fewer texts can be read in one go: a key that is
repeated at the top, or a value that cannot be read and is replaced later, is an error then.

* **`Document.Decodes`** says what a document is that is read part by part.
* **`Document.ofJson?_object_iff`** says when an object is a document as it stands.
* **`ofText_decodes`** compares the two ways. -/

namespace StyleTree

/-- The key of a section in a document. -/
def SectionKind.key : SectionKind → String
  | .tags => "tags"
  | .classes => "classes"
  | .animations => "animations"

/-- There are three kinds of sections. -/
theorem SectionKind.forall_iff {P : SectionKind → Prop} :
    (∀ kind, P kind) ↔ P .tags ∧ P .classes ∧ P .animations := by
  refine ⟨fun h => ⟨h .tags, h .classes, h .animations⟩, ?_⟩
  rintro ⟨tags, classes, animations⟩ kind
  cases kind <;> assumption

namespace StyleSection

/-- The section without styles. -/
def empty : SectionKind → StyleSection
  | .tags => .tags []
  | .classes => .classes []
  | .animations => .animations []

/-- The section that a member of an object denotes; without the member it is empty. -/
def ofMember? (kind : SectionKind) : Option Json → Option StyleSection
  | none => some (empty kind)
  | some value => StyleSection.ofJson? value kind

/-- The member of the tags is read as rules. -/
theorem ofMember?_tags (member : Option Json) :
    ofMember? .tags member = (Document.readSection? RuleSet.ofJson? member).map .tags := by
  cases member <;> rfl

/-- The member of the classes is read as rules. -/
theorem ofMember?_classes (member : Option Json) :
    ofMember? .classes member =
      (Document.readSection? RuleSet.ofJson? member).map .classes := by
  cases member <;> rfl

/-- The member of the animations is read as keyframes. -/
theorem ofMember?_animations (member : Option Json) :
    ofMember? .animations member =
      (Document.readSection? KeyframeSet.ofJson? member).map .animations := by
  cases member <;> rfl

/-- A section that is read from a member is read from it when repeated keys are resolved, too. -/
theorem ofMember?_resolve {kind : SectionKind} {member : Option Json} {styles : StyleSection}
    (h : ofMember? kind member = some styles) :
    ofMember? kind (member.map Json.resolve) = some styles := by
  cases member with
  | none => exact h
  | some value => exact readResolved kind value styles h

end StyleSection

namespace Document

/-- The styles of a document that a section holds. -/
def styles (d : Document) : SectionKind → StyleSection
  | .tags => .tags d.tags
  | .classes => .classes d.classes
  | .animations => .animations d.animations

/-- The options that a member of an object gives: without the member, or if it is `null`, none. -/
def optionsOfMember : Option Json → Option Json
  | some .null => none
  | member => member

/-- A document is what the members of an object **decode** to, part by part. -/
structure Decodes (d : Document) (members : List (String × Json)) : Prop where
  /-- The options are kept as they are. -/
  options : d.options = optionsOfMember (Table.find? members "options")
  /-- Each section is read as a call reads one that is given in JSON. -/
  styles : ∀ kind : SectionKind,
    StyleSection.ofMember? kind (Table.find? members kind.key) = some (d.styles kind)

/-- Options are kept as a JSON value in which repeated keys are resolved. -/
theorem readOptions_eq (member : Option Json) :
    readOptions member = optionsOfMember (member.map Json.resolve) := by
  cases member with
  | none => rfl
  | some value => cases value <;> rfl

/-- Sections that can be read make a document. -/
theorem exists_of_sections {member : SectionKind → Option Json}
    (readable : ∀ kind, ∃ styles, StyleSection.ofMember? kind (member kind) = some styles)
    (options : Option Json) :
    ∃ d : Document, d.options = options ∧
      ∀ kind, StyleSection.ofMember? kind (member kind) = some (d.styles kind) := by
  obtain ⟨⟨tags, htags⟩, ⟨classes, hclasses⟩, ⟨animations, hanimations⟩⟩ :=
    SectionKind.forall_iff.1 readable
  obtain ⟨t, -, rfl⟩ := Option.map_eq_some_iff.1 (StyleSection.ofMember?_tags _ ▸ htags)
  obtain ⟨c, -, rfl⟩ := Option.map_eq_some_iff.1 (StyleSection.ofMember?_classes _ ▸ hclasses)
  obtain ⟨a, -, rfl⟩ := Option.map_eq_some_iff.1 (StyleSection.ofMember?_animations _ ▸ hanimations)
  exact ⟨⟨options, t, c, a⟩, rfl, SectionKind.forall_iff.2 ⟨htags, hclasses, hanimations⟩⟩

/-- A document is put together from its parts, each of them read on its own. -/
theorem ofSections?_eq_some_iff {options tags classes animations : Option Json} {d : Document} :
    ofSections? options tags classes animations = some d ↔
      d.options = readOptions options ∧
        StyleSection.ofMember? .tags tags = some (d.styles .tags) ∧
        StyleSection.ofMember? .classes classes = some (d.styles .classes) ∧
        StyleSection.ofMember? .animations animations = some (d.styles .animations) := by
  obtain ⟨o, t, c, a⟩ := d
  rw [StyleSection.ofMember?_tags, StyleSection.ofMember?_classes,
    StyleSection.ofMember?_animations]
  simp only [ofSections?, styles]
  constructor
  · intro h
    obtain ⟨t, ht, h⟩ := Option.bind_eq_some_iff.1 h
    obtain ⟨c, hc, h⟩ := Option.bind_eq_some_iff.1 h
    obtain ⟨a, ha, h⟩ := Option.bind_eq_some_iff.1 h
    cases h
    exact ⟨rfl, by rw [ht]; rfl, by rw [hc]; rfl, by rw [ha]; rfl⟩
  · simp only [Option.map_eq_some_iff, StyleSection.tags.injEq, StyleSection.classes.injEq,
      StyleSection.animations.injEq, exists_eq_right]
    rintro ⟨rfl, ht, hc, ha⟩
    rw [ht, hc, ha]
    rfl

/-- An object is a document if no key is unknown or repeated and every section can be read. -/
theorem ofJson?_object_iff {members : List (String × Json)} {d : Document} :
    ofJson? (.object members) = some d ↔
      Table.Distinct members ∧ (∀ key ∈ Table.keys members, key ∈ sections) ∧
        d.options = readOptions (Table.find? members "options") ∧
        ∀ kind : SectionKind,
          StyleSection.ofMember? kind (Table.find? members kind.key) = some (d.styles kind) := by
  rw [ofJson?, SectionKind.forall_iff, ← and_assoc]
  split
  · next h =>
    rw [ofSections?_eq_some_iff]
    exact (and_iff_right h).symm
  · next h => simp [Table.Distinct, h]

end Document

end StyleTree
