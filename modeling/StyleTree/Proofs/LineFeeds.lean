import StyleTree.Proofs.Contribution

/-! # Line feeds

A rule tree holds no line feed that is not in its sources: the selector, the strings of the style
map, and the vendor prefixes. Numbers, units, separators and spinal case bring none in.

* **`StyleValue.strings`** are all strings in a style value: its texts, and the keys of its maps.
* **`noLineFeed_of_ruleTree`** is the result for the whole tree. -/

namespace StyleTree

/-- A string has no line feed. -/
def NoLineFeed (s : String) : Prop := '\n' ∉ s.toList

instance : DecidablePred NoLineFeed := fun s => inferInstanceAs (Decidable ('\n' ∉ s.toList))

/-- A joined text has a line feed only if one of its parts has. -/
@[simp] theorem noLineFeed_append {s t : String} :
    NoLineFeed (s ++ t) ↔ NoLineFeed s ∧ NoLineFeed t := by
  simp [NoLineFeed]

/-- Texts without line feeds have none when they are joined by a separator without any. -/
theorem noLineFeed_intercalate {separator : String} (hseparator : NoLineFeed separator)
    {items : List String} (hitems : ∀ item ∈ items, NoLineFeed item) :
    NoLineFeed (separator.intercalate items) := by
  induction items with
  | nil => simp [NoLineFeed]
  | cons item rest ih =>
    have hrest := ih fun s hs => hitems s (List.mem_cons_of_mem item hs)
    cases rest with
    | nil => simpa using hitems item List.mem_cons_self
    | cons next rest =>
      rw [String.intercalate_cons_cons, noLineFeed_append, noLineFeed_append]
      exact ⟨⟨hitems item List.mem_cons_self, hseparator⟩, hrest⟩

/-! ## Spinal case -/

/-- Making a character small makes no line feed. -/
theorem ne_lineFeed_toLower {c : Char} (h : c ≠ '\n') : c.toLower ≠ '\n' := by
  cases hc : c.isUpper with
  | false => rwa [toLower_of_not_isUpper hc]
  | true =>
    intro e
    have shifted := toNat_toLower_of_isUpper hc
    rw [e] at shifted
    simp at shifted

/-- Spinal case brings in no line feed. -/
theorem noLineFeed_spinalCase {name : String} (h : NoLineFeed name) :
    NoLineFeed (spinalCase name) := by
  rw [NoLineFeed, toList_spinalCase]
  intro feed
  obtain hyphen | ⟨c, hc, small⟩ := eq_hyphen_or_exists_of_mem_spinalChars feed
  · exact absurd hyphen (by decide)
  · have other : c ≠ '\n' := by
      rintro rfl
      exact h hc
    exact ne_lineFeed_toLower other small.symm

/-! ## Numbers -/

namespace Binary64

/-- A number is written with digits and a point. -/
theorem noLineFeed_positional (coefficient : Nat) (exponent : Int) :
    NoLineFeed (positional coefficient exponent) := by
  have digits : '\n' ∉ Nat.toDigits 10 coefficient := by
    intro h
    exact absurd (Nat.isDigit_of_mem_toDigits (by decide) (by decide) h) (by decide)
  unfold positional
  dsimp only
  split
  · simp [NoLineFeed, digits]
  -- the point stands inside the digits once these have enough zeros in front
  · rw [NoLineFeed, String.toList_ofList]
    have padded (zeros : Nat) :
        '\n' ∉ List.replicate zeros '0' ++ Nat.toDigits 10 coefficient := by
      simp [digits]
    intro h
    rcases List.mem_append.1 h with h | h
    · exact padded _ (List.mem_of_mem_take h)
    · rcases List.mem_cons.1 h with h | h
      · exact absurd h (by decide)
      · exact padded _ (List.mem_of_mem_drop h)

/-- The text of a finite number has no line feed. -/
theorem noLineFeed_text {x : Binary64} (h : x.isFinite) : NoLineFeed x.text := by
  cases x with
  | infinite => simp at h
  | nan => simp at h
  | finite negative rank =>
    have magnitude : NoLineFeed (magnitudeText rank) := by
      unfold magnitudeText
      split
      · decide
      · exact noLineFeed_positional (shortest rank).1 (shortest rank).2
    refine noLineFeed_append.2 ⟨?_, magnitude⟩
    cases negative <;> decide

end Binary64

/-! ## Strings of a style value -/

namespace StyleValue

mutual

/-- All strings in a style value: its texts, and the keys of its maps. -/
def strings : StyleValue → List String
  | .number _ => []
  | .text s => [s]
  | .list items => stringsOfItems items
  | .map entries => stringsOfEntries entries

/-- All strings in the items of a list. -/
def stringsOfItems : List StyleValue → List String
  | [] => []
  | item :: rest => strings item ++ stringsOfItems rest

/-- All strings in the entries of a map. -/
def stringsOfEntries : List (String × StyleValue) → List String
  | [] => []
  | entry :: rest => stringsOfEntry entry ++ stringsOfEntries rest

/-- All strings in an entry. -/
def stringsOfEntry : String × StyleValue → List String
  | (key, value) => key :: strings value

end

/-- The strings in a style map are those in its entries. -/
theorem stringsOfEntries_eq_flatMap (entries : List (String × StyleValue)) :
    stringsOfEntries entries = entries.flatMap stringsOfEntry := by
  induction entries with
  | nil => rw [stringsOfEntries, List.flatMap_nil]
  | cons entry rest ih => rw [stringsOfEntries, ih, List.flatMap_cons]

/-- The strings of a member of a map are strings of the map. -/
theorem stringsOfEntry_subset {entries : List (String × StyleValue)} {entry : String × StyleValue}
    (h : entry ∈ entries) : stringsOfEntry entry ⊆ (StyleValue.map entries).strings := by
  intro s hs
  rw [strings, stringsOfEntries_eq_flatMap]
  exact List.mem_flatMap.2 ⟨entry, h, hs⟩

/-- What is declared of a value has no strings of its own, apart from the names of sides. -/
theorem strings_subset_of_declaredPart {value part : StyleValue} {side : Option String}
    (h : DeclaredPart value side part) : part.strings ⊆ value.strings := by
  cases h with
  | whole => exact List.Subset.refl _
  | @side sides key part side mem expanded =>
    intro s hs
    exact stringsOfEntry_subset mem (by simp [stringsOfEntry, hs])

end StyleValue

/-- A number that is written has no line feed. -/
theorem noLineFeed_formatNumber {property text : String} {x : Binary64}
    (h : formatNumber property x = .ok text) : NoLineFeed text := by
  unfold formatNumber at h
  split at h
  · cases h
  · next finite =>
    split at h
    · cases h
      decide
    · cases h
      refine noLineFeed_append.2 ⟨Binary64.noLineFeed_text (by simpa using finite), ?_⟩
      cases NumberUnit.ofProperty property <;> decide

/-- No separator of lists has a line feed. -/
theorem noLineFeed_listSeparator (property : String) : NoLineFeed (listSeparator property) := by
  unfold listSeparator
  split <;> decide

mutual

/-- A value that is written has no line feed if no string in it has one. -/
theorem noLineFeed_format (property : String) (value : StyleValue) {text : String}
    (hstrings : ∀ s ∈ value.strings, NoLineFeed s) (h : value.format property = .ok text) :
    NoLineFeed text := by
  match value with
  | .number x => exact noLineFeed_formatNumber h
  | .text s =>
    cases h
    exact hstrings text (by simp [StyleValue.strings])
  | .list items =>
    obtain ⟨texts, htexts, rfl⟩ := Result.map_eq_ok.1 h
    rw [StyleValue.strings] at hstrings
    exact noLineFeed_intercalate (noLineFeed_listSeparator property)
      (noLineFeed_formatItems property items hstrings htexts)
  | .map entries => simp at h

/-- Items that are written have no line feed if no string in them has one. -/
theorem noLineFeed_formatItems (property : String) (items : List StyleValue) {texts : List String}
    (hstrings : ∀ s ∈ StyleValue.stringsOfItems items, NoLineFeed s)
    (h : StyleValue.formatItems property items = .ok texts) : ∀ text ∈ texts, NoLineFeed text := by
  match items with
  | [] =>
    cases h
    simp
  | item :: rest =>
    rw [StyleValue.formatItems] at h
    obtain ⟨text, htext, h⟩ := Result.bind_eq_ok.1 h
    obtain ⟨later, hlater, h⟩ := Result.bind_eq_ok.1 h
    cases h
    simp only [StyleValue.stringsOfItems, List.mem_append] at hstrings
    intro t ht
    rcases List.mem_cons.1 ht with rfl | ht
    · exact noLineFeed_format property item (fun s hs => hstrings s (.inl hs)) htext
    · exact noLineFeed_formatItems property rest (fun s hs => hstrings s (.inr hs)) hlater t ht

end

/-! ## Declarations and trees -/

/-- No vendor prefix has a line feed. -/
def Options.NoLineFeed (o : Options) : Prop :=
  ∀ entry ∈ o.vendorPrefixes, ∀ token ∈ entry.2, StyleTree.NoLineFeed token

instance : DecidablePred Options.NoLineFeed := fun o =>
  inferInstanceAs (Decidable (∀ entry ∈ o.vendorPrefixes, ∀ token ∈ entry.2, _))

/-- Neither the property nor its value has a line feed. -/
def Declaration.NoLineFeed (d : Declaration) : Prop :=
  StyleTree.NoLineFeed d.property ∧ StyleTree.NoLineFeed d.value

/-- The prefixes of a property are those of an entry in the table, or none. -/
theorem prefixes_of_role {o : Options} {key : String} {prefixes : List String}
    (h : o.role key = .property prefixes) :
    prefixes = [] ∨ (key, prefixes) ∈ o.vendorPrefixes := by
  unfold Options.role Options.prefixesFor? Table.find? at h
  split at h
  · next listed hlisted =>
    rw [← KeyRole.property.inj h]
    obtain ⟨before, after, table_eq, -⟩ := List.lookup_eq_some_iff.1 hlisted
    rw [table_eq]
    exact .inr (by simp)
  · split at h
    · cases h
    · split at h <;> cases h
      exact .inl rfl

/-- The names of an entry have no line feed if its prefixes and its key have none. -/
theorem noLineFeed_of_mem_declaredNames {prefixes : List String} {property name : String}
    (hprefixes : ∀ token ∈ prefixes, NoLineFeed token) (hproperty : NoLineFeed property)
    (h : name ∈ declaredNames prefixes property) : NoLineFeed name := by
  rcases List.mem_append.1 h with h | h
  · obtain ⟨token, htoken, rfl⟩ := List.mem_map.1 h
    simp only [prefixedName, noLineFeed_append]
    exact ⟨⟨⟨by decide, hprefixes token htoken⟩, by decide⟩, hproperty⟩
  · rwa [List.mem_singleton.1 h]

/-- The sides that a key stands for are the key itself or one of the four sides of a box. -/
theorem noLineFeed_of_mem_expandSide {key side : String} (hkey : NoLineFeed key)
    (h : some side ∈ expandSide key) : NoLineFeed side := by
  unfold expandSide at h
  split at h
  · simp at h
  · rcases (by simpa using h : side = "top" ∨ side = "bottom") with rfl | rfl <;> decide
  · rcases (by simpa using h : side = "right" ∨ side = "left") with rfl | rfl <;> decide
  · rwa [show side = key by simpa using h]

/-- The name of a side has no line feed if its parts have none. -/
theorem noLineFeed_sideName {name : String} {side : Option String} (hname : NoLineFeed name)
    (hside : ∀ s, side = some s → NoLineFeed s) : NoLineFeed (sideName name side) := by
  cases side with
  | none => exact hname
  | some side =>
    simp only [sideName, noLineFeed_append]
    exact ⟨⟨hname, by decide⟩, hside side rfl⟩

/-- Declarations have no line feed if the strings of their entry and its prefixes have none. -/
theorem noLineFeed_of_mem_declareEntry {prefixes : List String} {key : String} {value : StyleValue}
    {declarations : List Declaration} (hprefixes : ∀ token ∈ prefixes, NoLineFeed token)
    (hentry : ∀ s ∈ StyleValue.stringsOfEntry (key, value), NoLineFeed s)
    (h : declareEntry prefixes key value = .ok declarations) :
    ∀ d ∈ declarations, d.NoLineFeed := by
  simp only [StyleValue.stringsOfEntry, List.mem_cons, forall_eq_or_imp] at hentry
  intro d hd
  obtain ⟨name, hname, side, part, hpart, property_eq, value_eq⟩ :=
    exists_of_mem_declareEntry h d hd
  refine ⟨?_, ?_⟩
  · rw [property_eq]
    refine noLineFeed_spinalCase (noLineFeed_sideName
      (noLineFeed_of_mem_declaredNames hprefixes hentry.1 hname) ?_)
    -- the side comes from a key of the map, so that key is among the strings
    rintro s rfl
    cases hpart with
    | @side sides sideKey part _ mem expanded =>
      refine noLineFeed_of_mem_expandSide (hentry.2 sideKey ?_) expanded
      exact StyleValue.stringsOfEntry_subset mem (by simp [StyleValue.stringsOfEntry])
  · exact noLineFeed_format _ part (fun s hs => hentry.2 s
      (StyleValue.strings_subset_of_declaredPart hpart hs)) value_eq

/-- Vendor prefixes are the only strings in a rule tree that come from the options. -/
theorem Options.NoLineFeed.prefixes {o : Options} {key : String} {prefixes : List String}
    (ho : o.NoLineFeed) (role : o.role key = .property prefixes) :
    ∀ token ∈ prefixes, StyleTree.NoLineFeed token := by
  rcases prefixes_of_role role with rfl | listed
  · simp
  · exact ho _ listed

/-- A nested selector has no line feed if the selector around it and its key have none. -/
theorem noLineFeed_nestedSelector {o : Options} {selector key separator : String}
    (role : o.role key = .selector separator) (hselector : NoLineFeed selector)
    (hkey : NoLineFeed key) : NoLineFeed (selector ++ separator ++ spinalCase key) := by
  have hseparator : NoLineFeed separator := by
    rcases selectorSeparator?_cases (selectorSeparator?_of_role role) with rfl | rfl <;> decide
  simp only [noLineFeed_append]
  exact ⟨⟨hselector, hseparator⟩, noLineFeed_spinalCase hkey⟩

/-- What a style map contributes has no line feeds if its strings have none. -/
theorem noLineFeed_of_contributes {o : Options} {selector : String}
    {entries : List (String × StyleValue)} {f : Fragment} (ho : o.NoLineFeed)
    (h : Contributes o selector entries f) (hselector : NoLineFeed selector)
    (hentries : ∀ s ∈ StyleValue.stringsOfEntries entries, NoLineFeed s) :
    AllNodes NoLineFeed NoLineFeed Declaration.NoLineFeed f.nested ∧
      ∀ d ∈ f.declarations, d.NoLineFeed := by
  -- on the contribution: the selector gets longer on the way in, and stays free of line feeds
  induction h with
  | nil selector => simp [Fragment.empty]
  | @property selector key value rest prefixes declarations f hyphen role declared later ih =>
    simp only [StyleValue.stringsOfEntries, List.mem_append] at hentries
    obtain ⟨nested, direct⟩ := ih hselector fun s hs => hentries s (.inr hs)
    refine ⟨nested, ?_⟩
    intro d hd
    rcases List.mem_append.1 hd with hd | hd
    · have hentry := fun s hs => hentries s (.inl hs)
      exact noLineFeed_of_mem_declareEntry (ho.prefixes role) hentry declared d hd
    · exact direct d hd
  | @selector selector key separator entries rest f g hyphen role proper inner later ihInner
      ihLater =>
    simp only [StyleValue.stringsOfEntries, StyleValue.stringsOfEntry, StyleValue.strings,
      List.mem_append, List.mem_cons] at hentries
    have longer := noLineFeed_nestedSelector role hselector (hentries key (.inl (.inl rfl)))
    obtain ⟨nested, direct⟩ := ihInner longer fun s hs => hentries s (.inl (.inr hs))
    obtain ⟨nestedLater, directLater⟩ := ihLater hselector fun s hs => hentries s (.inr hs)
    exact ⟨allNodes_append.2 ⟨allNodes_close longer direct nested, nestedLater⟩, directLater⟩
  | @mediaQuery selector key entries rest f g hyphen role proper inner later ihInner ihLater =>
    simp only [StyleValue.stringsOfEntries, StyleValue.stringsOfEntry, StyleValue.strings,
      List.mem_append, List.mem_cons] at hentries
    obtain ⟨nested, direct⟩ := ihInner hselector fun s hs => hentries s (.inl (.inr hs))
    obtain ⟨nestedLater, directLater⟩ := ihLater hselector fun s hs => hentries s (.inr hs)
    have query : NoLineFeed key := hentries key (.inl (.inl rfl))
    refine ⟨allNodes_append.2 ⟨?_, nestedLater⟩, directLater⟩
    simp only [Fragment.ofNodes, allNodes_cons, allNodes_nil, all_media, and_true]
    exact ⟨query, allNodes_close hselector direct nested⟩

/-- A rule tree has no line feeds if its sources have none. -/
theorem noLineFeed_of_ruleTree {o : Options} {selector : String} {styles : StyleMap}
    {nodes : List Node} (ho : o.NoLineFeed) (hselector : NoLineFeed selector)
    (hstyles : ∀ s ∈ (StyleValue.map styles).strings, NoLineFeed s)
    (h : ruleTree o selector styles = .ok nodes) :
    AllNodes NoLineFeed NoLineFeed Declaration.NoLineFeed nodes := by
  obtain ⟨-, f, contributes, rfl⟩ := contributes_of_ruleTree h
  rw [StyleValue.strings] at hstyles
  obtain ⟨nested, direct⟩ := noLineFeed_of_contributes ho contributes hselector hstyles
  exact allNodes_close hselector direct nested

end StyleTree
