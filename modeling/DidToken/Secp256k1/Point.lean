import DidToken.Secp256k1.Field
/-!
# Points of secp256k1

The curve has the equation `y² = x³ + 7`. A `Point` is a finite point of it and carries the equation;
the neutral element of the group is `none` among optional points.

Sums are computed in Jacobian coordinates, where `(x, y, z)` stands for the point
`(x / z², y / z³)` and `z = 0` for the neutral element, so that no step needs an inverse.
-/

namespace DidToken.Secp256k1

/-- A finite point of the curve. -/
structure Point where
  x : Coordinate
  y : Coordinate
  onCurve : y * y = x * x * x + 7
deriving DecidableEq

/-- The right side of the equation. -/
def cubic (x : Coordinate) : Coordinate :=
  x * x * x + 7

/-- The point with the given coordinates, if there is one. -/
def Point.ofCoordinates? (x y : Coordinate) : Option Point :=
  if h : y * y = x * x * x + 7 then some ⟨x, y, h⟩ else none

/-- The point with the given first coordinate whose second one is odd or even as asked. -/
def Point.lift? (x : Coordinate) (odd : Bool) : Option Point := do
  let y ← squareRoot? (cubic x)
  Point.ofCoordinates? x (if isOdd y = odd then y else -y)

def generator : Point where
  x := 0x79be667ef9dcbbac55a06295ce870b07029bfcdb2dce28d959f2815b16f81798
  y := 0x483ada7726a3c4655da4fbfc0e1108a8fd17b448a68554199c47d08ffb10d4b8
  onCurve := by decide +kernel

/-! ### Jacobian coordinates -/

structure Jacobian where
  x : Coordinate
  y : Coordinate
  z : Coordinate
deriving DecidableEq

namespace Jacobian

def zero : Jacobian := ⟨1, 1, 0⟩

def ofPoint (a : Point) : Jacobian := ⟨a.x, a.y, 1⟩

/-- The point that coordinates stand for, if it is finite. -/
def toPoint? (a : Jacobian) : Option Point :=
  if a.z = 0 then none
  else
    let w := Coordinate.inverse a.z
    Point.ofCoordinates? (a.x * (w * w)) (a.y * (w * w * w))

/-- The sum of a point with itself, by the tangent. -/
def double (a : Jacobian) : Jacobian :=
  let yy := a.y * a.y
  let s := 4 * (a.x * yy)
  let m := 3 * (a.x * a.x)
  let x := m * m - 2 * s
  ⟨x, m * (s - x) - 8 * (yy * yy), 2 * (a.y * a.z)⟩

/-- The sum of two points, by the chord, or by the tangent where they are equal. -/
def add (a b : Jacobian) : Jacobian :=
  if a.z = 0 then b
  else if b.z = 0 then a
  else
    let aa := a.z * a.z
    let bb := b.z * b.z
    let u := a.x * bb
    let s := a.y * (bb * b.z)
    let h := b.x * aa - u
    let r := b.y * (aa * a.z) - s
    if h = 0 then if r = 0 then double a else zero
    else
      let hh := h * h
      let hhh := hh * h
      let v := u * hh
      let x := r * r - hhh - 2 * v
      ⟨x, r * (v - x) - s * hhh, h * (a.z * b.z)⟩

/-- The sum of `k` times a point, for `k` below `2 ^ width`. -/
def multiply (a : Jacobian) : (width k : Nat) → Jacobian
  | 0, _ => zero
  | w + 1, k =>
    let twice := double (multiply a w (k / 2))
    if k % 2 = 1 then add twice a else twice

def scale (k : Scalar) (a : Point) : Jacobian :=
  multiply (ofPoint a) 256 k.val

end Jacobian

def Point.scale (k : Scalar) (a : Point) : Option Point :=
  (Jacobian.scale k a).toPoint?

def Point.combine (j : Scalar) (a : Point) (k : Scalar) (b : Point) : Option Point :=
  (Jacobian.add (Jacobian.scale j a) (Jacobian.scale k b)).toPoint?

end DidToken.Secp256k1
