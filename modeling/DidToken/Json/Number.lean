import DidToken.Json.Reader
/-!
# Reading numbers

A number without fraction and exponent that fits 64 bits is an integer, except for minus zero. All
others are floating-point: the leading digits that fit 64 bits are taken as a whole number, digits
beyond them only count as powers of ten, and the number is scaled by a power of ten at the end.
-/

namespace DidToken.Json

/-- A number as written. -/
structure Literal where
  isNegative : Bool
  whole : List Nat
  fraction : List Nat
  exponent : Option Int
deriving Repr

namespace Literal

/-! ### The written form -/

def isDigit (x : UInt8) : Bool :=
  0x30 ≤ x && x ≤ 0x39

def digits : Reader (List Nat) :=
  fun b => .ok ((b.takeWhile isDigit).map fun x => x.toNat - 0x30, b.dropWhile isDigit)

/-- At least one digit; `atEnd` is the fault when the text is over. -/
def someDigits (atEnd : Fault) : Reader (List Nat)
  | [] => .error atEnd
  | x :: rest => if isDigit x then digits (x :: rest) else .error .malformed

/-- Whether the next byte is one of those given, in which case it is taken. -/
def takes (choices : Bytes) : Reader Bool
  | [] => .ok (false, [])
  | x :: rest => if x ∈ choices then .ok (true, rest) else .ok (false, x :: rest)

/-- The digits before the point: a zero stands alone. -/
def wholeDigits (atEnd : Fault) : Reader (List Nat) := do
  let ds ← someDigits atEnd
  if ds.head? = some 0 && 1 < ds.length then throw .malformed else return ds

def exponentDigits (atEnd : Fault) : Reader Int := do
  let isNegative ← takes [0x2d]
  let _ ← if isNegative then pure false else takes [0x2b]
  let ds ← someDigits atEnd
  let n : Nat := ds.foldl (fun n d => 10 * n + d) 0
  return if isNegative then -n else n

/-- A number as written; `atEnd` is the fault when the text is over in the middle of it. -/
def read (atEnd : Fault) : Reader Literal := do
  let isNegative ← takes [0x2d]
  let whole ← wholeDigits atEnd
  let hasFraction ← takes [0x2e]
  let fraction ← if hasFraction then someDigits atEnd else pure []
  let hasExponent ← takes [0x65, 0x45]
  let exponent ← if hasExponent then some <$> exponentDigits atEnd else pure none
  return ⟨isNegative, whole, fraction, exponent⟩

/-! ### The value -/

/-- Takes digits into a number as long as 64 bits hold it, and gives the digits left over. -/
def absorb (n : Nat) : List Nat → Nat × List Nat
  | [] => (n, [])
  | d :: rest => if 10 * n + d < UInt64.size then absorb (10 * n + d) rest else (n, d :: rest)

/-- The integer that a literal denotes. -/
def integer? (l : Literal) : Option Integer :=
  match l.fraction, l.exponent, absorb 0 l.whole with
  | [], none, (n, []) =>
    if l.isNegative then if n = 0 then none else Integer.ofInt? (-n) else Integer.ofInt? n
  | _, _, _ => none

def powerOfTen (e : Nat) : Float :=
  Float.ofScientific 1 false e

/-- The largest exponent for which a power of ten is a finite number. -/
def greatestPower : Nat := 308

/-- A number times a power of ten, if it is in range. Small powers are reached in steps. -/
def scale (x : Float) (e : Int) : Option Float :=
  if e.natAbs ≤ greatestPower then
    if e < 0 then some (x / powerOfTen e.natAbs)
    else
      let y := x * powerOfTen e.natAbs
      if y.isInf then none else some y
  else if x == 0 then some x
  else if 0 < e then none
  else scale (x / powerOfTen greatestPower) (e + greatestPower)
termination_by e.natAbs
decreasing_by simp only [greatestPower] at *; omega

/-- The floating-point number that a literal denotes, if it is in range. -/
def float? (l : Literal) : Option Float :=
  let (n, droppedWhole) := absorb 0 l.whole
  let (m, droppedFraction) := absorb n l.fraction
  let taken : Int := l.fraction.length - droppedFraction.length
  let x := (UInt64.ofNat m).toFloat
  (scale x (l.exponent.getD 0 + droppedWhole.length - taken)).map fun y =>
    if l.isNegative then -y else y

/-- The value that a literal denotes. -/
def value? (l : Literal) : Option Value :=
  match l.integer? with
  | some n => some (.int n)
  | none => l.float?.map .float

end Literal

end DidToken.Json
