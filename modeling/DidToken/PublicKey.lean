import DidToken.Hash.Keccak256
import DidToken.Secp256k1.Point
import DidToken.Text.Hex
/-!
# Public keys

A public key is a finite point of secp256k1. Its bytes follow SEC 1: a tag, the first coordinate, and
in the uncompressed form the second one. The address of a key is made of the last 20 bytes of the
Keccak-256 digest of both coordinates.
-/

namespace DidToken

abbrev PublicKey := Secp256k1.Point

namespace PublicKey

open Secp256k1

/-- The coordinate whose 32 bytes are given. -/
def coordinate? (b : Bytes) : Option Coordinate :=
  if b.length = 32 then Coordinate.ofNat? (Bytes.toNat b) else none

/-- The key whose bytes begin with a tag: 2 and 3 are followed by the first coordinate of a point
whose second one is even or odd, 4 by both coordinates, and 5 by the first coordinate of a point whose
second one is even. -/
def ofTagged? : Bytes → Option PublicKey
  | 0x02 :: x => do Point.lift? (← coordinate? x) false
  | 0x03 :: x => do Point.lift? (← coordinate? x) true
  | 0x04 :: xy => do Point.ofCoordinates? (← coordinate? (xy.take 32)) (← coordinate? (xy.drop 32))
  | 0x05 :: x => do Point.lift? (← coordinate? x) false
  | _ => none

/-- The key of bytes with a tag, or of the 64 bytes of both coordinates alone. -/
def ofBytes? (b : Bytes) : Option PublicKey :=
  if b.length = 64 then ofTagged? (0x04 :: b) else ofTagged? b

/-- The bytes of both coordinates. -/
def coordinates (key : PublicKey) : Bytes :=
  Bytes.ofNat 32 key.x.val ++ Bytes.ofNat 32 key.y.val

def uncompressed (key : PublicKey) : Bytes :=
  0x04 :: coordinates key

def compressed (key : PublicKey) : Bytes :=
  (if isOdd key.y then 0x03 else 0x02) :: Bytes.ofNat 32 key.x.val

/-- The address of a key, marked, in lower case. -/
def address (key : PublicKey) : String :=
  "0x" ++ Text.Hex.encode ((Hash.Keccak256.digest (coordinates key)).drop 12)

inductive Fault where
  | hex (cause : Text.Hex.Fault)
  | invalid
deriving DecidableEq, Repr

def Fault.message : Fault → String
  | .hex cause => cause.message
  | .invalid => "signature error"

/-- The key of bytes. -/
def ofBytes (b : Bytes) : Except Fault PublicKey :=
  match ofBytes? b with
  | some key => .ok key
  | none => .error .invalid

/-- The key of a hexadecimal text, which may be marked. -/
def ofHex (text : String) : Except Fault PublicKey :=
  match Text.Hex.decode (Text.Hex.stripMarker text) with
  | .ok b => ofBytes b
  | .error cause => .error (.hex cause)

end PublicKey

end DidToken
