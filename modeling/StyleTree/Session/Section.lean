import StyleTree.Document
import StyleTree.Minify
import StyleTree.Rule.Layout
import StyleTree.Rule.Trace

/-! # The text of a section

A call is about one **section** of a style sheet: the styles of tags, of classes or of keyframe
animations. Tags are selectors themselves; a class or an animation is written under the name issued
for it.

* **`rulesText`** writes rules one after another, **`classText`** the rules of a class and
  **`keyframesText`** the frames of an animation, which are wrapped only if there is any text.
* **`finish`** minifies the text of a call, if the options say so. -/

namespace StyleTree

/-- The styles of one section. -/
inductive StyleSection
  | tags (rules : RuleSet)
  | classes (rules : RuleSet)
  | animations (frames : KeyframeSet)
deriving Repr

/-- The sections that hold styles. -/
inductive SectionKind
  | tags
  | classes
  | animations
deriving DecidableEq, Repr

/-- The section that a JSON value denotes. -/
def StyleSection.ofJson? (value : Json) : SectionKind → Option StyleSection
  | .tags => (RuleSet.ofJson? value).map .tags
  | .classes => (RuleSet.ofJson? value).map .classes
  | .animations => (KeyframeSet.ofJson? value).map .animations

/-- The text of rules at a level, one after another, up to the first error. -/
def rulesText (o : Options) (level : Nat) : RuleSet → Except Error String
  | [] => .ok ""
  | (selector, styles) :: rest => do
    let text ← compile o level selector styles
    let later ← rulesText o level rest
    pure (text ++ later)

/-- The events of writing rules, up to the first error. -/
def rulesEvents (o : Options) : RuleSet → List Event
  | [] => []
  | (selector, styles) :: rest =>
    ruleEvents o selector styles ++
      match ruleTree o selector styles with
      | .ok _ => rulesEvents o rest
      | .error _ => []

/-- The selector of a class. -/
def classSelector (name : String) : String := "." ++ name

/-- The text of a class with the name issued for it. -/
def classText (o : Options) (name : String) (styles : StyleMap) : Except Error String :=
  compile o 0 (classSelector name) styles

/-- The frames of an animation inside their wrapper, which needs some text. -/
def wrapKeyframes (name body : String) : String :=
  if body = "" then "" else "\n@keyframes " ++ name ++ " \x7b\n" ++ body ++ "\n\x7d\n"

/-- The text of an animation with the name issued for it. -/
def keyframesText (o : Options) (name : String) (frames : RuleSet) : Except Error String :=
  (rulesText o 1 frames).map (wrapKeyframes name)

/-- The text of a call in its final form. -/
def finish (o : Options) (css : String) : String := if o.minify then minify css else css

@[simp] theorem wrapKeyframes_empty (name : String) : wrapKeyframes name "" = "" := rfl

@[simp] theorem rulesText_nil (o : Options) (level : Nat) : rulesText o level [] = .ok "" := rfl

/-- The first rule comes first, and its error too. -/
theorem rulesText_cons (o : Options) (level : Nat) (selector : String) (styles : StyleMap)
    (rest : RuleSet) :
    rulesText o level ((selector, styles) :: rest) =
      (compile o level selector styles).bind fun text =>
        (rulesText o level rest).map (text ++ ·) := by
  rw [rulesText]
  cases compile o level selector styles with
  | error e => rfl
  | ok text => cases rulesText o level rest <;> rfl

section

variable {o : Options} {level : Nat} {selector css : String} {styles : StyleMap} {rest : RuleSet}
  {e : Error}

/-- Rules have a text if the first rule has one and the others have. -/
theorem rulesText_cons_ok :
    rulesText o level ((selector, styles) :: rest) = .ok css ↔
      ∃ text later, compile o level selector styles = .ok text ∧
        rulesText o level rest = .ok later ∧ text ++ later = css := by
  rw [rulesText_cons]
  cases compile o level selector styles with
  | error e => simp [Except.bind]
  | ok text => cases rulesText o level rest <;> simp [Except.bind, Except.map]

/-- Rules have no text if the first rule has none, or if it has one and the others have none. -/
theorem rulesText_cons_error :
    rulesText o level ((selector, styles) :: rest) = .error e ↔
      compile o level selector styles = .error e ∨
        ∃ text, compile o level selector styles = .ok text ∧ rulesText o level rest = .error e := by
  rw [rulesText_cons]
  cases compile o level selector styles with
  | error e' => simp [Except.bind]
  | ok text => cases rulesText o level rest <;> simp [Except.bind, Except.map]

end

end StyleTree
