import StyleTree.Decimal.Binary64
import StyleTree.Table

/-! # JSON values

A **JSON value** keeps the order of its object members. A value read from a text may still repeat a
key within one object; **`Json.resolve`** gives such a key its first place and its last value, at
every depth, and only then an object is a table.

* **`Json.Number`** is an exact integer of 64 bits or a binary floating-point number.
* **`Json.Resolved`** says that no object of a value repeats a key. -/

namespace StyleTree

/-- A number of a JSON value. -/
inductive Json.Number
  /-- An integer that fits into 64 bits, signed or unsigned. -/
  | integer (n : Int)
  /-- Any other number. -/
  | real (x : Binary64)
deriving DecidableEq, Repr

/-- A JSON value. -/
inductive Json
  | null
  | bool (b : Bool)
  | number (n : Json.Number)
  | string (s : String)
  | array (items : List Json)
  | object (members : List (String × Json))
deriving Repr, Inhabited

namespace Json

/-- The floating-point number nearest to a number. -/
def Number.toBinary64 : Number → Binary64
  | .integer n => Binary64.ofInt n
  | .real x => x

/-- The number that a numeral denotes, if it is not beyond the finite floating-point numbers. -/
def Number.ofNumeral? (n : Numeral) : Option Number :=
  let rounded :=
    let x := Binary64.ofNumeral n
    if x.isFinite then some (.real x) else none
  match n.toInt? with
  | some i => if Int64.minValue.toInt ≤ i ∧ i < UInt64.size then some (.integer i) else rounded
  | none => rounded

mutual

/-- The value in which every repeated key has its first place and its last value. -/
def resolve : Json → Json
  | .null => .null
  | .bool b => .bool b
  | .number n => .number n
  | .string s => .string s
  | .array items => .array (resolveItems items)
  | .object members => .object (Table.ofPairs (resolveMembers members))

/-- `resolve` for each item of an array. -/
def resolveItems : List Json → List Json
  | [] => []
  | item :: rest => resolve item :: resolveItems rest

/-- `resolve` for each member of an object. -/
def resolveMembers : List (String × Json) → List (String × Json)
  | [] => []
  | member :: rest => resolveMember member :: resolveMembers rest

/-- `resolve` for the value of a member. -/
def resolveMember : String × Json → String × Json
  | (key, value) => (key, resolve value)

end

mutual

/-- No object of the value repeats a key. -/
def Resolved : Json → Prop
  | .array items => ResolvedItems items
  | .object members => Table.Distinct members ∧ ResolvedMembers members
  | _ => True

/-- `Resolved` for each item of an array. -/
def ResolvedItems : List Json → Prop
  | [] => True
  | item :: rest => Resolved item ∧ ResolvedItems rest

/-- `Resolved` for each member of an object. -/
def ResolvedMembers : List (String × Json) → Prop
  | [] => True
  | member :: rest => ResolvedMember member ∧ ResolvedMembers rest

/-- `Resolved` for the value of a member. -/
def ResolvedMember : String × Json → Prop
  | (_, value) => Resolved value

end

@[simp] theorem resolveItems_eq_map (items : List Json) :
    resolveItems items = items.map resolve := by
  induction items with
  | nil => rfl
  | cons item rest ih => simp [resolveItems, ih]

@[simp] theorem resolveMembers_eq_map (members : List (String × Json)) :
    resolveMembers members = members.map fun m => (m.1, resolve m.2) := by
  induction members with
  | nil => rfl
  | cons member rest ih =>
    obtain ⟨key, value⟩ := member
    simp [resolveMembers, resolveMember, ih]

/-- The value of a member of an object. -/
def member? (value : Json) (key : String) : Option Json :=
  match value with
  | .object members => Table.find? members key
  | _ => none

/-- Whether a value is an object. -/
def isObject : Json → Bool
  | .object _ => true
  | _ => false

end Json

end StyleTree
