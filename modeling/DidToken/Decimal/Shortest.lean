/-!
# Shortest decimals

A binary floating-point number stands for all reals that round to it. Its shortest decimal is the
point of the coarsest decimal grid that has one among those reals; of two points of that grid the
nearer, and of two equally near the one with the even digits.

Everything is exact arithmetic on naturals: on a grid, lengths are counted in quarters of the gap
between the number and its upper neighbour.
-/

namespace DidToken.Decimal

/-- A positive binary number `mantissa * 2 ^ exponent`. -/
structure Binary where
  mantissa : Nat
  exponent : Int
  /-- The gap below the number is half the gap above it. -/
  isNarrowBelow : Bool
deriving DecidableEq, Repr

/-- The number with the given bits, which are those of a finite positive value of 64 bits. -/
def Binary.ofBits (bits : UInt64) : Binary :=
  let biased : Nat := (bits >>> 52 &&& 0x7ff).toNat
  let fraction : Nat := (bits &&& 0xfffffffffffff).toNat
  if biased = 0 then ⟨fraction, -1074, false⟩
  else ⟨0x10000000000000 + fraction, (biased : Int) - 1075, fraction = 0 && 1 < biased⟩

/-- A decimal `digits * 10 ^ exponent`. -/
structure Scaled where
  digits : Nat
  exponent : Int
deriving DecidableEq, Repr

namespace Binary

/-- The step of the grid `10 ^ e`, as a fraction of a quarter of the number's unit. -/
def step (x : Binary) (e : Int) : Nat × Nat :=
  (Nat.pow 10 e.toNat * Nat.pow 2 (2 - x.exponent).toNat,
    Nat.pow 10 (-e).toNat * Nat.pow 2 (x.exponent - 2).toNat)

/-- Whether a real at `position / scale` quarters of a unit rounds to the number. The ends of the
interval belong to it when the mantissa is even. -/
def contains (x : Binary) (scale position : Nat) : Bool :=
  let low := scale * (if x.isNarrowBelow then 4 * x.mantissa - 1 else 4 * x.mantissa - 2)
  let high := scale * (4 * x.mantissa + 2)
  if x.mantissa % 2 = 0 then low ≤ position && position ≤ high
  else low < position && position < high

/-- The point of the grid `10 ^ e` nearest to the number, if one of the two points around the number
rounds to it. -/
def nearest? (x : Binary) (e : Int) : Option Nat :=
  let (num, den) := x.step e
  let value := 4 * x.mantissa * den
  let below := value / num
  let hasBelow := x.contains den (below * num)
  let hasAbove := x.contains den ((below + 1) * num)
  let toBelow := value - below * num
  let toAbove := (below + 1) * num - value
  if hasBelow && hasAbove then
    if toBelow < toAbove || (toBelow = toAbove && below % 2 = 0) then some below
    else some (below + 1)
  else if hasBelow then some below
  else if hasAbove then some (below + 1)
  else none

/-- The search from the grid `10 ^ e` over `count` finer ones, the last of which has the number
itself as a point. -/
def coarsest (x : Binary) : (count : Nat) → (e : Int) → Scaled
  | 0, e => ⟨4 * x.mantissa * (x.step e).2 / (x.step e).1, e⟩
  | n + 1, e =>
    match x.nearest? e with
    | some d => ⟨d, e⟩
    | none => coarsest x n (e - 1)

/-- The shortest decimal that rounds to the number. No point of a grid coarser than the first one
tried can: its step is larger than twice the number. -/
def shortest (x : Binary) : Scaled :=
  let bits : Int := x.mantissa.log2 + 1 + x.exponent
  let first := bits * 30103 / 100000 + 2
  let last := min 0 x.exponent
  x.coarsest (first - last).toNat first

end Binary

end DidToken.Decimal
