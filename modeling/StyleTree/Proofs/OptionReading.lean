import StyleTree.Options.Decoding
import StyleTree.Proofs.ResolvedValues

/-! # Reading options

An update of options can be read from a text in one go, or the text can be read as a JSON value
first, in which repeated keys are resolved, and the update from that value. In one go no key of an
update may be repeated, and of a repeated vendor prefix every occurrence has to be a list of texts;
apart from that both ways give the same update. Neither way looks at other keys.

* **`Options.Update.knownMembers`** are the members of an object that matter.
* **`Options.Update.relevantJson?_eq`** says that a text is read as the known members of its object.
* **`Options.Update.ofJson?_resolve`** resolves an object that is an update as it stands.
* **`option_text_reads_as_value`** compares the two ways. -/

namespace StyleTree

universe u

namespace Table

variable {α : Type u}

/-- A key that is kept is found where it was found among all keys. -/
theorem find?_filter (keep : String → Bool) {key : String} (h : keep key = true) (t : Table α) :
    find? (t.filter fun entry => keep entry.1) key = find? t key := by
  induction t with
  | nil => rfl
  | cons entry rest ih =>
    rw [find?_cons, List.filter_cons]
    split
    · rw [find?_cons, ih]
    · next dropped =>
      have other : key ≠ entry.1 := fun same => dropped (same ▸ h)
      rw [ih, if_neg other]

/-- Insertion of a key that is kept is insertion among the entries that are kept, and insertion of
another key does not touch them. -/
theorem filter_insert (keep : String → Bool) (t : Table α) (key : String) (value : α) :
    (insert t key value).filter (fun entry => keep entry.1) =
      if keep key then insert (t.filter fun entry => keep entry.1) key value
      else t.filter fun entry => keep entry.1 := by
  induction t with
  | nil => cases kept : keep key <;> simp [kept]
  | cons entry rest ih =>
    rw [insert_cons]
    by_cases same : entry.1 = key
    · cases kept : keep key <;> simp [same, kept, insert_cons]
    · rw [if_neg same, List.filter_cons, List.filter_cons, ih]
      split
      · rw [insert_cons, if_neg same]
        split <;> rfl
      · rfl

/-- Keeping some keys before or after the insertion makes the same table. -/
theorem filter_insertAll (keep : String → Bool) (t : Table α) (pairs : List (String × α)) :
    (insertAll t pairs).filter (fun entry => keep entry.1) =
      insertAll (t.filter fun entry => keep entry.1) (pairs.filter fun pair => keep pair.1) := by
  induction pairs generalizing t with
  | nil => rfl
  | cons pair pairs ih =>
    rw [insertAll_cons, ih, filter_insert, List.filter_cons]
    split <;> rfl

/-- The entries of some keys are as those keys alone would give them. -/
theorem filter_ofPairs (keep : String → Bool) (pairs : List (String × α)) :
    (ofPairs pairs).filter (fun entry => keep entry.1) =
      ofPairs (pairs.filter fun pair => keep pair.1) :=
  filter_insertAll keep [] pairs

end Table

namespace Options.Update

/-! ## Known members -/

/-- The members of an object whose keys an update has. -/
def knownMembers (members : List (String × Json)) : List (String × Json) :=
  members.filter fun member => member.1 ∈ fields

variable {members members' : List (String × Json)} {u : Update}

/-- The known members have those of the keys that name a field. -/
theorem keys_knownMembers (members : List (String × Json)) :
    Table.keys (knownMembers members) = (Table.keys members).filter (· ∈ fields) := by
  rw [Table.keys, Table.keys, knownMembers, List.filter_map]
  rfl

/-- A field is looked up alike with and without the unknown members. -/
theorem lookup_knownMembers {key : String} (h : key ∈ fields) (members : List (String × Json)) :
    (knownMembers members).lookup key = members.lookup key :=
  Table.find?_filter (fun key => key ∈ fields) (decide_eq_true h) members

/-- No key of an update is repeated if the known members are a table. -/
theorem fieldsDistinct_iff :
    fieldsDistinct members = true ↔ Table.Distinct (knownMembers members) := by
  rw [fieldsDistinct, decide_eq_true_iff, Table.Distinct, keys_knownMembers]

/-- An object is read if no known member is repeated and each is fit for its field. -/
theorem ofJson?_object_iff :
    ofJson? (.object members) = some u ↔
      Table.Distinct (knownMembers members) ∧
        ofFields? (members.lookup "obfuscate") (members.lookup "minify")
          (members.lookup "vendorPrefixes") (members.lookup "emptyBlocks") = some u := by
  rw [ofJson?, ← fieldsDistinct_iff]
  split <;> simp_all

/-- An object is read as an update by its known members. -/
theorem ofJson?_congr (h : knownMembers members' = knownMembers members) :
    ofJson? (.object members') = ofJson? (.object members) := by
  have found {key : String} (known : key ∈ fields) : members'.lookup key = members.lookup key := by
    rw [← lookup_knownMembers known members', h, lookup_knownMembers known]
  ext u
  rw [ofJson?_object_iff, ofJson?_object_iff, h, found (by decide), found (by decide),
    found (by decide), found (by decide)]

/-! ## Texts -/

/-- Only an object is turned into an object. -/
theorem exists_of_toJson?_object {depth : Nat} {written : Json.Written}
    (h : written.toJson? depth = some (.object members)) :
    ∃ below parts, depth = below + 1 ∧ written = .object parts ∧
      Json.Written.membersToJson? below parts = some members := by
  unfold Json.Written.toJson? at h
  split at h
  · cases h
  · cases h
  · cases Option.map_eq_some_iff.1 h with | intro _ same => cases same.2
  · cases Option.map_eq_some_iff.1 h with | intro _ same => cases same.2
  · split at h
    · cases h
    · cases Option.map_eq_some_iff.1 h with | intro _ same => cases same.2
  · next parts =>
    split at h
    · cases h
    · next below =>
      obtain ⟨_, read, same⟩ := Option.map_eq_some_iff.1 h
      cases same
      exact ⟨below, parts, rfl, rfl, read⟩

/-- Members can be dropped before the others are turned into values, or afterwards. -/
theorem membersToJson?_keep {depth : Nat} {written : List (Option String × Json.Written)}
    (h : Json.Written.membersToJson? depth written = some members) :
    (∀ member ∈ written, member.1.isSome) ∧
      Json.Written.membersToJson? depth
          (written.filter fun member => member.1.any (· ∈ fields)) =
        some (knownMembers members) := by
  induction written generalizing members with
  | nil =>
    cases h
    exact ⟨by simp, rfl⟩
  | cons first rest ih =>
    rw [Json.Written.membersToJson?] at h
    obtain ⟨member, hmember, h⟩ := Option.bind_eq_some_iff.1 h
    obtain ⟨later, hlater, h⟩ := Option.bind_eq_some_iff.1 h
    cases h
    obtain ⟨named, kept⟩ := ih hlater
    -- a member without a name would have failed the whole
    obtain ⟨name, value⟩ := first
    cases name with
    | none => cases hmember
    | some key =>
      obtain ⟨json, hjson, rfl⟩ := Option.map_eq_some_iff.1 hmember
      refine ⟨List.forall_mem_cons.2 ⟨rfl, named⟩, ?_⟩
      rw [knownMembers, List.filter_cons, List.filter_cons, Option.any_some]
      split
      · rw [Json.Written.membersToJson?, hmember, kept]
        rfl
      · exact kept

/-- Of a text that is an object the known members are read, whatever the others are. -/
theorem relevantJson?_eq {text : String} (h : Json.ofText? text = some (.object members)) :
    relevantJson? text = some (.object (knownMembers members)) := by
  obtain ⟨written, hwritten, h⟩ := Option.bind_eq_some_iff.1 h
  obtain ⟨below, parts, depth_eq, rfl, hparts⟩ := exists_of_toJson?_object h
  obtain ⟨named, kept⟩ := membersToJson?_keep hparts
  have dropped : Json.Written.keepMembers? (· ∈ fields) (.object parts) =
      some (.object (parts.filter fun member => member.1.any (· ∈ fields))) := by
    rw [Json.Written.keepMembers?, if_pos (List.all_eq_true.2 named)]
  rw [relevantJson?, hwritten, depth_eq]
  simp only [Option.bind_eq_bind, Option.bind_some, dropped]
  rw [Json.Written.toJson?, kept]
  rfl

/-- An object that cannot be read is malformed options. -/
theorem ofValue_object (members : List (String × Json)) :
    ofValue (.object members) =
      (ofJson? (.object members)).elim (.error .malformedOptions) .ok := by
  rw [ofValue]
  cases ofJson? (.object members) <;> rfl

/-- An object is decoded as it is read. -/
theorem ofValue_object_eq_ok_iff :
    ofValue (.object members) = .ok u ↔ ofJson? (.object members) = some u := by
  rw [ofValue_object]
  cases ofJson? (.object members) <;> simp

/-- Objects are read by their known members. -/
theorem ofValue_congr (h : knownMembers members' = knownMembers members) :
    ofValue (.object members') = ofValue (.object members) := by
  rw [ofValue_object, ofValue_object, ofJson?_congr h]

/-- The text of an object is read as the object before repeated keys are resolved. -/
theorem ofText_eq_ofValue {text : String} (h : Json.ofText? text = some (.object members)) :
    ofText text = ofValue (.object members) := by
  have known : knownMembers (knownMembers members) = knownMembers members := by
    simp [knownMembers, List.filter_filter]
  rw [ofText, relevantJson?_eq h, Option.bind_some, ofJson?_congr known, ofValue_object]
  cases ofJson? (.object members) <;> rfl

/-! ## Resolved objects -/

/-- A member is read alike before and after it is resolved. -/
theorem optional?_resolve {α : Type} {read : Json → Option α} (h : Json.ReadResolved read)
    {member : Option Json} {a : Option α} (found : optional? read member = some a) :
    optional? read (member.map Json.resolve) = some a := by
  cases member with
  | none => exact found
  | some value =>
    -- only `null` resolves to `null`
    cases value with
    | null => exact found
    | _ =>
      obtain ⟨b, hb, rfl⟩ := Option.map_eq_some_iff.1 found
      exact Option.map_eq_some_iff.2 ⟨b, h _ b hb, rfl⟩

/-- Switches are read alike before and after they are resolved. -/
theorem readResolved_bool : Json.ReadResolved boolOfJson? := by
  intro value b h
  cases value <;> exact h

/-- Texts are read alike before and after they are resolved. -/
theorem readResolved_text : Json.ReadResolved textOfJson? := by
  intro value s h
  cases value <;> exact h

/-- Lists of texts are read alike before and after they are resolved. -/
theorem readResolved_texts : Json.ReadResolved textsOfJson? := by
  intro value l h
  cases value with
  | array items =>
    rw [Json.resolve_array]
    exact mapM_resolve (fun item _ => readResolved_text item) h
  | _ => cases h

/-- Vendor prefixes are read alike before and after they are resolved. -/
theorem readResolved_prefixes : Json.ReadResolved prefixesOfJson? := by
  have table : prefixesOfJson? = Table.ofJson? textsOfJson? := by
    funext value
    cases value <;> rfl
  rw [table]
  exact Table.readResolved readResolved_texts

/-- Policies for empty blocks are read alike before and after they are resolved. -/
theorem readResolved_policy : Json.ReadResolved policyOfJson? := by
  intro value policy h
  unfold policyOfJson? at h
  split at h
  · exact h
  · exact h
  · cases h

/-- The four fields are read alike before and after they are resolved. -/
theorem ofFields?_resolve {obfuscate minify vendorPrefixes emptyBlocks : Option Json}
    (h : ofFields? obfuscate minify vendorPrefixes emptyBlocks = some u) :
    ofFields? (obfuscate.map Json.resolve) (minify.map Json.resolve)
      (vendorPrefixes.map Json.resolve) (emptyBlocks.map Json.resolve) = some u := by
  obtain ⟨a, ha, h⟩ := Option.bind_eq_some_iff.1 h
  obtain ⟨b, hb, h⟩ := Option.bind_eq_some_iff.1 h
  obtain ⟨c, hc, h⟩ := Option.bind_eq_some_iff.1 h
  obtain ⟨d, hd, h⟩ := Option.bind_eq_some_iff.1 h
  rw [ofFields?, optional?_resolve readResolved_bool ha, optional?_resolve readResolved_bool hb,
    optional?_resolve readResolved_prefixes hc, optional?_resolve readResolved_policy hd]
  exact h

/-- Where no key of an update is repeated, the known members of the resolved object are the known
members of the object, resolved. -/
theorem knownMembers_resolve (distinct : Table.Distinct (knownMembers members)) :
    knownMembers (Table.ofPairs (members.map fun member => (member.1, member.2.resolve))) =
      (knownMembers members).map fun member => (member.1, member.2.resolve) := by
  have commute : knownMembers (members.map fun member => (member.1, member.2.resolve)) =
      (knownMembers members).map fun member => (member.1, member.2.resolve) := by
    rw [knownMembers, knownMembers, List.filter_map]
    rfl
  rw [knownMembers, Table.filter_ofPairs (fun key => key ∈ fields), ← knownMembers, commute,
    Table.ofPairs_of_distinct]
  simpa [Table.Distinct, Table.keys, Function.comp_def] using distinct

/-- An object that is an update as it stands is the same update when it is resolved. -/
theorem ofJson?_resolve (h : ofJson? (.object members) = some u) :
    ofJson? (Json.object members).resolve = some u := by
  obtain ⟨distinct, fields_eq⟩ := ofJson?_object_iff.1 h
  have resolved := knownMembers_resolve distinct
  have found {key : String} (known : key ∈ fields) :
      (Table.ofPairs (members.map fun member => (member.1, member.2.resolve))).lookup key =
        (members.lookup key).map Json.resolve := by
    rw [← lookup_knownMembers known, resolved, ← lookup_knownMembers known members]
    exact Table.find?_map Json.resolve (knownMembers members) key
  rw [Json.resolve_object, ofJson?_object_iff, resolved]
  refine ⟨by simpa [Table.Distinct, Table.keys, Function.comp_def] using distinct, ?_⟩
  rw [found (by decide), found (by decide), found (by decide), found (by decide)]
  exact ofFields?_resolve fields_eq

end Options.Update

open Options.Update in
/-- The text of an object can be read as an update of options in one go, or by way of the JSON value
that it denotes. What is read in one go is also read from the value, and it is the same update, even
where keys are repeated that may be. If no object in the text repeats a key, either both ways give
the same update or both find the options malformed. Texts, and values, that agree in their known
members are read alike, whatever other members they have. -/
theorem option_text_reads_as_value {text : String} {members : List (String × Json)}
    (h : Json.valueOfText? text = some (.object members)) :
    (∀ u, ofText text = .ok u → ofValue (.object members) = .ok u) ∧
    ((∀ written, Json.ofText? text = some written → written.Resolved) →
      (∃ u, ofText text = .ok u ∧ ofValue (.object members) = .ok u) ∨
        ofText text = .error .malformedOptions ∧
          ofValue (.object members) = .error .malformedOptions) ∧
    (∀ other written written', Json.ofText? text = some (.object written) →
      Json.ofText? other = some (.object written') →
      knownMembers written' = knownMembers written → ofText other = ofText text) ∧
    (∀ members', knownMembers members' = knownMembers members →
      ofValue (.object members') = ofValue (.object members)) := by
  obtain ⟨written, hwritten, resolves⟩ := Option.map_eq_some_iff.1 h
  obtain ⟨raw, rfl⟩ := Json.exists_of_resolve_eq_object resolves
  rw [ofText_eq_ofValue hwritten]
  refine ⟨fun u hu => ?_, fun resolved => ?_, fun other first second hfirst hsecond same => ?_,
    fun members' same => ofValue_congr same⟩
  · rw [ofValue_object_eq_ok_iff] at hu ⊢
    rw [← resolves]
    exact ofJson?_resolve hu
  · -- without repeated keys the value is the text as it is written
    rw [Json.resolve_eq_self (resolved _ hwritten)] at resolves
    rw [resolves, ofValue_object]
    cases ofJson? (.object members) with
    | some u => exact .inl ⟨u, rfl, rfl⟩
    | none => exact .inr ⟨rfl, rfl⟩
  · rw [hwritten] at hfirst
    cases hfirst
    rw [ofText_eq_ofValue hsecond, ofValue_congr same]

/-- A text that repeats a vendor prefix and an unknown key, one whose options have the wrong form,
and two that differ in an unknown key; the last of these repeats a key in it. -/
theorem option_text_reads_as_value_repeated :
    let repeated :=
      "\x7b\"vendorPrefixes\":\x7b\"flex\":[],\"flex\":[\"o\"]\x7d,\"x\":0,\"x\":[]\x7d"
    let wrong := "\x7b\"minify\":\"on\"\x7d"
    let plain := "\x7b\"minify\":true\x7d"
    let extended := "\x7b\"x\":\x7b\"a\":1,\"a\":2\x7d,\"minify\":true\x7d"
    let members : List (String × Json) :=
      [("vendorPrefixes", .object [("flex", .array [.string "o"])]), ("x", .array [])]
    let wrongMembers : List (String × Json) := [("minify", .string "on")]
    let plainMembers : List (String × Json) := [("minify", .bool true)]
    let u : Options.Update := { vendorPrefixes := some [("flex", ["o"])] }
    (Json.valueOfText? repeated = some (.object members) ∧ Options.Update.ofText repeated = .ok u ∧
      Options.Update.ofValue (.object members) = .ok u) ∧
    (Json.valueOfText? wrong = some (.object wrongMembers) ∧
      Options.Update.ofText wrong = .error .malformedOptions ∧
      Options.Update.ofValue (.object wrongMembers) = .error .malformedOptions) ∧
    (Json.valueOfText? plain = some (.object plainMembers) ∧
      Options.Update.ofText extended = Options.Update.ofText plain ∧
      Options.Update.ofValue (.object (("x", .null) :: plainMembers)) =
        Options.Update.ofValue (.object plainMembers)) := by
  intro repeated wrong plain extended members wrongMembers plainMembers u
  have repeated_tokens : Json.Token.ofText? repeated = some [.openObject,
      .string "vendorPrefixes", .colon, .openObject, .string "flex", .colon, .openArray,
      .closeArray, .comma, .string "flex", .colon, .openArray, .string "o", .closeArray,
      .closeObject, .comma, .string "x", .colon, .number ⟨false, 0, 0⟩, .comma, .string "x", .colon,
      .openArray, .closeArray, .closeObject] := by decide +kernel
  have wrong_tokens : Json.Token.ofText? wrong =
      some [.openObject, .string "minify", .colon, .string "on", .closeObject] := by decide +kernel
  have plain_tokens : Json.Token.ofText? plain =
      some [.openObject, .string "minify", .colon, .bool true, .closeObject] := by decide +kernel
  have extended_tokens : Json.Token.ofText? extended = some [.openObject, .string "x", .colon,
      .openObject, .string "a", .colon, .number ⟨false, 1, 0⟩, .comma, .string "a", .colon,
      .number ⟨false, 2, 0⟩, .closeObject, .comma, .string "minify", .colon, .bool true,
      .closeObject] := by decide +kernel
  have repeated_written : Json.ofText? repeated = some (.object
      [("vendorPrefixes", .object [("flex", .array []), ("flex", .array [.string "o"])]),
        ("x", .number (.integer 0)), ("x", .array [])]) := by
    rw [Json.ofText?_of_tokens repeated_tokens]
    rfl
  have wrong_written : Json.ofText? wrong = some (.object wrongMembers) := by
    rw [Json.ofText?_of_tokens wrong_tokens]
    rfl
  have plain_written : Json.ofText? plain = some (.object plainMembers) := by
    rw [Json.ofText?_of_tokens plain_tokens]
    rfl
  have extended_written : Json.ofText? extended = some (.object
      (("x", .object [("a", .number (.integer 1)), ("a", .number (.integer 2))]) ::
        plainMembers)) := by
    rw [Json.ofText?_of_tokens extended_tokens]
    rfl
  -- the last of the repeated keys is the one that counts
  have repeated_value : Json.valueOfText? repeated = some (.object members) := by
    rw [Json.valueOfText?, repeated_written]
    rfl
  have wrong_value : Json.valueOfText? wrong = some (.object wrongMembers) := by
    rw [Json.valueOfText?, wrong_written]
    rfl
  have plain_value : Json.valueOfText? plain = some (.object plainMembers) := by
    rw [Json.valueOfText?, plain_written]
    rfl
  have repeated_update : Options.Update.ofText repeated = .ok u := by
    rw [Options.Update.ofText_eq_ofValue repeated_written]
    rfl
  have wrong_resolved : (Json.object wrongMembers).Resolved := by
    simp [wrongMembers, Json.Resolved, Json.ResolvedMembers, Json.ResolvedMember, Table.Distinct]
  refine ⟨⟨repeated_value, repeated_update, ?_⟩, ⟨wrong_value, ?_⟩, plain_value, ?_, ?_⟩
  · exact (option_text_reads_as_value repeated_value).1 u repeated_update
  · refine ((option_text_reads_as_value wrong_value).2.1 ?_).resolve_left ?_
    · intro written hwritten
      rw [wrong_written] at hwritten
      cases hwritten
      exact wrong_resolved
    · rintro ⟨v, -, accepted⟩
      cases accepted
  · exact (option_text_reads_as_value plain_value).2.2.1 extended _ _ plain_written
      extended_written rfl
  · exact (option_text_reads_as_value plain_value).2.2.2 (("x", .null) :: plainMembers) rfl

end StyleTree
