/-! # Kinds of names

Classes and keyframe animations are named independently of each other. -/

namespace StyleTree

/-- What a name is given to. -/
inductive NameKind
  | styleClass
  | animation
deriving DecidableEq, Repr

/-- What messages call a kind of names. -/
def NameKind.label : NameKind → String
  | .styleClass => "class"
  | .animation => "keyframe animation"

end StyleTree
