import DidToken.Did
import DidToken.Secp256k1.Nonce
import DidToken.Signature
import DidToken.Text.Quoted
/-!
# Key pairs

A key pair in memory is its secret scalar. It signs with the nonce of RFC 6979, so that the same
message always gets the same signature, and leaves `s` as the nonce makes it.
-/

namespace DidToken

structure KeyPair where
  secret : Secp256k1.Scalar
  secret_ne_zero : secret ≠ 0

namespace KeyPair

open Secp256k1

inductive Fault where
  | hex (cause : Text.Hex.Fault)
  /-- The text has so many bytes, which is more than a key has. -/
  | length (count : Nat)
  | invalid
deriving DecidableEq, Repr

def size : Nat := 32

def Fault.message : Fault → String
  | .hex cause => cause.message
  | .length count =>
    "Private key is " ++ toString count ++ " bytes, expected at most " ++ toString size
  | .invalid => "signature error"

def ofNat? (k : Nat) : Option KeyPair :=
  if pos : 0 < k then
    if lt : k < order then some ⟨⟨k, lt⟩, Scalar.mk_ne_zero pos lt⟩ else none
  else none

/-- The digits of a private key with a zero in front if their number is odd. -/
def evenDigits (digits : String) : String :=
  if digits.utf8ByteSize % 2 = 1 then "0" ++ digits else digits

/-- The key pair of a private key in hexadecimal, which may be marked and shorter than 32 bytes. -/
def ofHex (text : String) : Except Fault KeyPair :=
  match Text.Hex.decode (evenDigits (Text.Hex.stripMarker text)) with
  | .error cause => .error (.hex cause)
  | .ok b =>
    if size < b.length then .error (.length b.length)
    else match ofNat? (Bytes.toNat b) with
      | some pair => .ok pair
      | none => .error .invalid

/-- The public key. A multiple of the generator by a scalar other than zero is finite. -/
def publicKey (pair : KeyPair) : PublicKey :=
  (Point.scale pair.secret generator).getD generator

/-- The uncompressed public key in hexadecimal, marked. -/
def publicKeyHex (pair : KeyPair) : String :=
  "0x" ++ Text.Hex.encode (PublicKey.uncompressed pair.publicKey)

def address (pair : KeyPair) : String :=
  PublicKey.address pair.publicKey

/-- The DID that the key pair controls. -/
def did (pair : KeyPair) : String :=
  Did.ofAddress pair.address

/-- Why a message could not be signed. Neither happens for any message known. -/
inductive SigningFault where
  | noNonce
  /-- A scalar of the signature came out as zero. -/
  | degenerate
deriving DecidableEq, Repr

def SigningFault.message : SigningFault → String
  | .noNonce => "RFC 6979 produced an out of range nonce"
  | .degenerate => "Degenerate signature"

/-- The signature of a hash value with a nonce, if there is one. -/
def signWith (pair : KeyPair) (z : Scalar) : Option Scalar → Except SigningFault Signature
  | none => .error .noNonce
  | some k =>
    match Ecdsa.sign? pair.secret z k with
    | some a => .ok (Signature.ofSigned a)
    | none => .error .degenerate

def sign (pair : KeyPair) (message : Bytes) : Except SigningFault Signature :=
  let z := Signature.hash message
  pair.signWith z (Nonce.generate? pair.secret z)

def signer {m : Type → Type} [Monad m] (pair : KeyPair) : Signer m where
  address := pair.address
  sign message := return (pair.sign message).mapError SigningFault.message

/-- What is shown of a key pair: its address, and nothing of its secret. -/
def describe (pair : KeyPair) : String :=
  "KeyPairSigner \x7b address: " ++ Text.Quoted.text pair.address ++ ", .. \x7d"

end KeyPair

end DidToken
