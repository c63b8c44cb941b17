import DidToken.Secp256k1.Point
/-!
# ECDSA

Signatures of a hash value `z` are pairs of scalars `(r, s)` other than zero. The verifier only takes
the smaller of the two values that `s` may have. From a signature the public key can be recovered
with two more bits, which name the nonce point among those whose first coordinate is `r` modulo the
order.
-/

namespace DidToken.Secp256k1

/-- What tells apart the points that a signature may have been made with. -/
structure RecoveryId where
  isYOdd : Bool
  /-- The first coordinate exceeded the order before it was reduced. -/
  isXReduced : Bool
deriving DecidableEq, Repr

namespace RecoveryId

/-- The id of a number up to three. -/
def ofUInt8? (v : UInt8) : Option RecoveryId :=
  if v ≤ 3 then some ⟨v % 2 = 1, 2 ≤ v⟩ else none

def toUInt8 (id : RecoveryId) : UInt8 :=
  (if id.isYOdd then 1 else 0) + (if id.isXReduced then 2 else 0)

def opposite (id : RecoveryId) : RecoveryId :=
  { id with isYOdd := !id.isYOdd }

end RecoveryId

namespace Ecdsa

/-- The signature of a hash value under a secret with a nonce. -/
structure Signed where
  r : Scalar
  s : Scalar
  recoveryId : RecoveryId

/-- The signature of `z` under a secret with the nonce `k`, unless one of its scalars is zero. -/
def sign? (secret z k : Scalar) : Option Signed := do
  let a ← Point.scale k generator
  let r := Scalar.ofNat a.x.val
  let s := Scalar.inverse k * (z + r * secret)
  if r = 0 || s = 0 then none
  else some ⟨r, s, ⟨isOdd a.y, order ≤ a.x.val⟩⟩

/-- The signature with the smaller of the two values of `s`. The smaller one belongs to the opposite
nonce point. -/
def Signed.lower (a : Signed) : Signed :=
  if a.s.isHigh then ⟨a.r, -a.s, a.recoveryId.opposite⟩ else a

/-- Whether `(r, s)` is a signature of `z` under a key, with `s` in the lower half. -/
def verify (key : Point) (z r s : Scalar) : Bool :=
  let w := Scalar.inverse s
  !s.isHigh &&
    match Point.combine (z * w) generator (r * w) key with
    | some a => Scalar.ofNat a.x.val = r
    | none => false

def noncePoint? (r : Scalar) (id : RecoveryId) : Option Point := do
  let x ← Coordinate.ofNat? (if id.isXReduced then r.val + order else r.val)
  Point.lift? x id.isYOdd

/-- The key that a signature of `z` verifies under, as named by the recovery id. -/
def recover? (z : Scalar) (a : Signed) : Option Point := do
  let nonce ← noncePoint? a.r a.recoveryId
  let w := Scalar.inverse a.r
  let key ← Point.combine (-(w * z)) generator (w * a.s) nonce
  if verify key z a.r a.s then some key else none

end Ecdsa

end DidToken.Secp256k1
