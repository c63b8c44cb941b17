import DidToken.Assoc
/-!
# JSON values

Values keep the order of the members of objects. Integers that fit 64 bits, with or without a sign,
are kept exactly; other numbers are floating-point.
-/

namespace DidToken.Json

/-- An integer that fits 64 bits, signed or unsigned. -/
structure Integer where
  val : Int
  min_le : -0x8000000000000000 ≤ val
  lt_max : val < 0x10000000000000000
deriving DecidableEq

namespace Integer

def ofInt? (n : Int) : Option Integer :=
  if h : -0x8000000000000000 ≤ n ∧ n < 0x10000000000000000 then some ⟨n, h.1, h.2⟩ else none

def ofUInt64 (n : UInt64) : Integer :=
  ⟨n.toNat, by omega, by have := n.toNat_lt; omega⟩

def ofInt64 (n : Int64) : Integer :=
  ⟨n.toInt, n.le_toInt, by have := n.toInt_lt; omega⟩

def toInt64? (n : Integer) : Option Int64 :=
  if n.val < 0x8000000000000000 then some (Int64.ofInt n.val) else none

theorem toInt64?_ofInt64 (n : Int64) : toInt64? (ofInt64 n) = some n := by
  have h : n.toInt < 0x8000000000000000 := n.toInt_lt
  simp only [toInt64?, ofInt64, h, if_true, Int64.ofInt_toInt]

end Integer

inductive Value where
  | null
  | bool (b : Bool)
  | int (n : Integer)
  | float (x : Float)
  | str (s : String)
  | arr (items : List Value)
  | obj (members : List (String × Value))

/-- The members of an object, in order. -/
abbrev Object := Assoc Value

/-- The member of a name, or none if there is no value. -/
def optionalMember {α : Type} (name : String) (make : α → Value) : Option α → Object
  | some a => [(name, make a)]
  | none => []

namespace Value

def isNull : Value → Bool
  | .null => true
  | _ => false

def str? : Value → Option String
  | .str s => some s
  | _ => none

def int64? : Value → Option Int64
  | .int n => n.toInt64?
  | _ => none

def obj? : Value → Option Object
  | .obj members => some members
  | _ => none

/-! ### Depth

How many arrays and objects stand one inside the other. -/

mutual

/-- The depth of a value; scalars have none. -/
def depth : Value → Nat
  | .arr items => depthOfItems items + 1
  | .obj members => depthOfMembers members + 1
  | _ => 0

def depthOfItems : List Value → Nat
  | [] => 0
  | v :: rest => max (depth v) (depthOfItems rest)

def depthOfMembers : List (String × Value) → Nat
  | [] => 0
  | (_, v) :: rest => max (depth v) (depthOfMembers rest)

end

end Value

end DidToken.Json
