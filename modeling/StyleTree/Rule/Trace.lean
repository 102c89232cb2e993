import StyleTree.Event
import StyleTree.Rule.OfStyles

/-! # Events of making a rule tree

**`ruleEvents`** reports on the making of a rule tree: each rule when all entries of its style map
have been read, so nested rules come first, and a nested key without a style map before the error
that it causes. Nothing is reported about what comes after the first error. -/

namespace StyleTree

/-- The event of closing a fragment, if it has become a rule. -/
def closingEvents (o : Options) (selector : String) : Except Error Fragment → List Event
  | .ok f => if f.hasRule o then [.ruleWritten selector] else []
  | .error _ => []

mutual

/-- The events of the entries of a style map under a selector. -/
def entriesEvents (o : Options) (selector : String) : List (String × StyleValue) → List Event
  | [] => []
  | entry :: rest =>
    entryEvents o selector entry ++
      match entryFragment o selector entry with
      | .ok _ => entriesEvents o selector rest
      | .error _ => []

/-- The events of one entry. -/
def entryEvents (o : Options) (selector : String) : String × StyleValue → List Event
  | (key, value) =>
    if isHyphenated key then []
    else
      match o.role key with
      | .property _ => []
      | .selector separator =>
        nestedEvents o .selector key (selector ++ separator ++ spinalCase key) value
      | .mediaQuery => nestedEvents o .mediaQuery key selector value

/-- The events of a selector with the style map that a key holds. -/
def nestedEvents (o : Options) (kind : NestedKind) (key selector : String) :
    StyleValue → List Event
  | .map entries =>
    if isMediaQuery selector then []
    else
      entriesEvents o selector entries
        ++ closingEvents o selector (entriesFragment o selector entries)
  | .number x => [.expectedMap kind key (StyleValue.number x).shape]
  | .text s => [.expectedMap kind key (StyleValue.text s).shape]
  | .list items => [.expectedMap kind key (StyleValue.list items).shape]

end

/-- The events of making the rule tree of a style map. -/
def ruleEvents (o : Options) (selector : String) (styles : StyleMap) : List Event :=
  if isMediaQuery selector then []
  else
    entriesEvents o selector styles
      ++ closingEvents o selector (entriesFragment o selector styles)

end StyleTree
