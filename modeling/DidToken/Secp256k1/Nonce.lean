import DidToken.Hash.Sha256
import DidToken.Secp256k1.Field
/-!
# Deterministic nonces

The nonce of RFC 6979: a generator of pseudo-random bytes, seeded with the secret and the hash value,
runs until it gives a scalar other than zero.
-/

namespace DidToken.Secp256k1.Nonce

open DidToken.Hash

/-- The generator: a key and the last block. -/
structure Generator where
  key : Bytes
  block : Bytes

namespace Generator

/-- Takes bytes into the key. -/
def takeIn (g : Generator) (marker : UInt8) (bytes : Bytes) : Generator :=
  let key := Hmac.code g.key (g.block ++ marker :: bytes)
  ⟨key, Hmac.code key g.block⟩

def seeded (seed : Bytes) : Generator :=
  let start : Generator := ⟨List.replicate 32 0, List.replicate 32 1⟩
  (start.takeIn 0 seed).takeIn 1 seed

def next (g : Generator) : Generator :=
  ⟨g.key, Hmac.code g.key g.block⟩

end Generator

/-- The first scalar in range among the next `count` blocks. A block misses the range about once in
`2 ^ 128` times. -/
def first? : (count : Nat) → Generator → Option Scalar
  | 0, _ => none
  | n + 1, g =>
    let h := g.next
    match Scalar.ofNat? (Bytes.toNat h.block) with
    | some k => some k
    | none => first? n (h.takeIn 0 [])

def attempts : Nat := 1000

/-- The nonce for a hash value under a secret. -/
def generate? (secret z : Scalar) : Option Scalar :=
  first? attempts (.seeded (Bytes.ofNat 32 secret.val ++ Bytes.ofNat 32 z.val))

end DidToken.Secp256k1.Nonce
