/-! # Keys of a style map

A key names a media query, a nested selector or a property. Media queries are recognised by their
first characters, nested selectors by their name; every other key is a property.

* **`isMediaQuery`** and **`selectorSeparator?`** tell the first two.
* **`hasHyphen`** finds the hyphen that a property name in camelCase cannot have. -/

namespace StyleTree

/-- How every media query starts. -/
def mediaMark : List Char := ['@', 'm', 'e', 'd', 'i', 'a']

/-- The pseudo-elements and pseudo-classes that may be nested in a rule. -/
def nestedSelectors : List String :=
  ["active", "after", "before", "checked", "disabled", "empty", "enabled", "firstChild",
    "firstLetter", "firstLine", "firstOfType", "focus", "hover", "inRange", "invalid", "lastChild",
    "lastOfType", "link", "onlyOfType", "onlyChild", "optional", "outOfRange", "readOnly",
    "readWrite", "required", "root", "selection", "target", "valid", "visited"]

/-- The nested selectors that are pseudo-elements. -/
def pseudoElements : List String := ["before", "after", "firstLetter", "firstLine", "selection"]

/-- Whether a key or a selector is a media query. -/
def isMediaQuery (key : String) : Bool := mediaMark.isPrefixOf key.toList

/-- What stands between a selector and the nested selector of a key, if the key is one: two colons
before a pseudo-element, one before a pseudo-class. -/
def selectorSeparator? (key : String) : Option String :=
  if key ∈ nestedSelectors then some (if key ∈ pseudoElements then "::" else ":") else none

/-- Whether a key contains a hyphen. -/
def hasHyphen (key : String) : Bool := key.toList.contains '-'

/-- Only listed keys are nested selectors. -/
theorem isSome_selectorSeparator? (key : String) :
    (selectorSeparator? key).isSome = decide (key ∈ nestedSelectors) := by
  unfold selectorSeparator?
  split <;> simp_all

end StyleTree
