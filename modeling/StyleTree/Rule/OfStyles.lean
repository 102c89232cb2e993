import StyleTree.Rule.Declarations
import StyleTree.Style.Key

/-! # The rule tree of a style map

Each entry of a style map contributes declarations, the rules of a nested selector, or a media
query, depending on the **role** of its key. A nested selector extends the selector of the map
around it; a media query keeps it.

* **`Options.role`** tells the role of a key: an entry in the table of vendor prefixes makes it a
  property whatever else it could be.
* **`ruleTree`** is the tree of a style map under a selector, which must not be a media query, or
  the first error in the order of the entries. -/

namespace StyleTree

/-- What an entry of a style map is for. -/
inductive KeyRole
  /-- To declare a property, repeated with vendor prefixes. -/
  | property (prefixes : List String)
  /-- To style a nested selector, written behind a separator. -/
  | selector (separator : String)
  /-- To style the selector of the map under a media query. -/
  | mediaQuery
deriving DecidableEq, Repr

/-- The role of a key. -/
def Options.role (o : Options) (key : String) : KeyRole :=
  match o.prefixesFor? key with
  | some prefixes => .property prefixes
  | none =>
    match selectorSeparator? key with
    | some separator => .selector separator
    | none => if isMediaQuery key then .mediaQuery else .property []

/-- Whether a key has a hyphen and may not have one. -/
def isHyphenated (key : String) : Bool := !isMediaQuery key && hasHyphen key

/-- The nodes of a selector that a fragment has been made for. The selector must not be a media
query. -/
def enclose (o : Options) (selector : String) (f : Except Error Fragment) :
    Except Error (List Node) :=
  if isMediaQuery selector then .error (.misplacedMediaQuery selector)
  else f.map (Fragment.close o selector)

mutual

/-- What the entries of a style map contribute under a selector. -/
def entriesFragment (o : Options) (selector : String) :
    List (String × StyleValue) → Except Error Fragment
  | [] => .ok .empty
  | entry :: rest => do
    -- the error of an earlier entry comes first
    let f ← entryFragment o selector entry
    let g ← entriesFragment o selector rest
    pure (f.append g)

/-- What one entry contributes. -/
def entryFragment (o : Options) (selector : String) :
    String × StyleValue → Except Error Fragment
  | (key, value) =>
    if isHyphenated key then .error (.hyphenatedProperty key)
    else
      match o.role key with
      | .property prefixes => (declareEntry prefixes key value).map .ofDeclarations
      | .selector separator =>
        (nestedNodes o .selector key (selector ++ separator ++ spinalCase key) value).map .ofNodes
      | .mediaQuery =>
        (nestedNodes o .mediaQuery key selector value).map fun nodes =>
          .ofNodes [.media key nodes]

/-- The nodes of a selector with the style map that a key holds. -/
def nestedNodes (o : Options) (kind : NestedKind) (key selector : String) :
    StyleValue → Except Error (List Node)
  | .map entries => enclose o selector (entriesFragment o selector entries)
  | _ => .error (.expectedMap kind key)

end

/-- The rule tree of a style map under a selector. -/
def ruleTree (o : Options) (selector : String) (styles : StyleMap) : Except Error (List Node) :=
  enclose o selector (entriesFragment o selector styles)

@[simp] theorem entriesFragment_nil (o : Options) (selector : String) :
    entriesFragment o selector [] = .ok .empty := by
  rw [entriesFragment]

/-- The first entry contributes first, and its error comes first. -/
theorem entriesFragment_cons (o : Options) (selector : String) (entry : String × StyleValue)
    (rest : List (String × StyleValue)) :
    entriesFragment o selector (entry :: rest) =
      (entryFragment o selector entry).bind fun f =>
        (entriesFragment o selector rest).map f.append := by
  rw [entriesFragment]
  cases entryFragment o selector entry with
  | error e => rfl
  | ok f => cases entriesFragment o selector rest <;> rfl

/-- Entries contribute what their first part and then their second part contribute. -/
theorem entriesFragment_append (o : Options) (selector : String)
    (entries later : List (String × StyleValue)) :
    entriesFragment o selector (entries ++ later) =
      (entriesFragment o selector entries).bind fun f =>
        (entriesFragment o selector later).map f.append := by
  induction entries with
  | nil =>
    rw [List.nil_append, entriesFragment_nil]
    cases entriesFragment o selector later <;> rfl
  | cons entry rest ih =>
    rw [List.cons_append, entriesFragment_cons, entriesFragment_cons, ih]
    cases entryFragment o selector entry with
    | error e => rfl
    | ok f =>
      cases entriesFragment o selector rest with
      | error e => rfl
      | ok g =>
        cases entriesFragment o selector later with
        | error e => rfl
        | ok h =>
          show Except.ok (f.append (g.append h)) = Except.ok ((f.append g).append h)
          rw [Fragment.append_assoc]

/-- A map of styles nested under a key is a rule tree of its own. -/
theorem nestedNodes_map (o : Options) (kind : NestedKind) (key selector : String)
    (entries : List (String × StyleValue)) :
    nestedNodes o kind key selector (.map entries) = ruleTree o selector entries := by
  rw [nestedNodes, ruleTree]

/-- Under a selector proper the rule tree closes what the entries contribute. -/
theorem ruleTree_of_not_isMediaQuery (o : Options) {selector : String}
    (h : isMediaQuery selector = false) (styles : StyleMap) :
    ruleTree o selector styles =
      (entriesFragment o selector styles).map (Fragment.close o selector) := by
  rw [ruleTree, enclose, if_neg (by simp [h])]

/-- Nothing can be styled under a media query alone. -/
theorem ruleTree_of_isMediaQuery (o : Options) {selector : String} (h : isMediaQuery selector)
    (styles : StyleMap) : ruleTree o selector styles = .error (.misplacedMediaQuery selector) := by
  rw [ruleTree, enclose, if_pos h]

end StyleTree
