/-!
# Field and scalars of secp256k1

Coordinates of points are integers modulo the prime `fieldSize`; the factors that points are
multiplied by are integers modulo the prime `order`, the number of points. Both moduli are a little
less than `2 ^ 256`. Inverses and square roots are powers.
-/

namespace DidToken.Secp256k1

/-- The prime that coordinates are reduced by. -/
def fieldSize : Nat := 0xfffffffffffffffffffffffffffffffffffffffffffffffffffffffefffffc2f

/-- The prime number of points, which scalars are reduced by. -/
def order : Nat := 0xfffffffffffffffffffffffffffffffebaaedce6af48a03bbfd25e8cd0364141

instance : @NeZero Nat Zero.ofOfNat0 fieldSize := ⟨by decide⟩

instance : @NeZero Nat Zero.ofOfNat0 order := ⟨by decide⟩

abbrev Coordinate := Fin fieldSize

abbrev Scalar := Fin order

/-- The power of a number to an exponent below `2 ^ width`, by squaring. -/
def power {α : Type} [Mul α] [OfNat α 1] (x : α) : (width exponent : Nat) → α
  | 0, _ => 1
  | w + 1, e =>
    let half := power x w (e / 2)
    if e % 2 = 1 then half * half * x else half * half

/-- The inverse of a coordinate; zero for zero. -/
def Coordinate.inverse (x : Coordinate) : Coordinate :=
  power x 256 (fieldSize - 2)

/-- The inverse of a scalar; zero for zero. -/
def Scalar.inverse (x : Scalar) : Scalar :=
  power x 256 (order - 2)

/-- A square root of a coordinate, if it has one: the prime is 3 modulo 4, so a power is a root of
every square. -/
def squareRoot? (x : Coordinate) : Option Coordinate :=
  let y := power x 256 ((fieldSize + 1) / 4)
  if y * y = x then some y else none

def isOdd (x : Coordinate) : Bool :=
  x.val % 2 = 1

def Scalar.ofNat (k : Nat) : Scalar :=
  Fin.ofNat order k

/-- Whether a scalar is in the upper half of the range. -/
def Scalar.isHigh (s : Scalar) : Bool :=
  order / 2 < s.val

def Coordinate.ofNat? (k : Nat) : Option Coordinate :=
  if h : k < fieldSize then some ⟨k, h⟩ else none

theorem Scalar.mk_ne_zero {k : Nat} (pos : 0 < k) (lt : k < order) : (⟨k, lt⟩ : Scalar) ≠ 0 := by
  intro e
  have h : k = 0 := congrArg Fin.val e
  omega

/-- The scalar of a number in range, which zero is not. -/
def Scalar.ofNat? (k : Nat) : Option Scalar :=
  if h : 0 < k ∧ k < order then some ⟨k, h.2⟩ else none

end DidToken.Secp256k1
