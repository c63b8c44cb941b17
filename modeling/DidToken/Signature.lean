import DidToken.Hash.Sha256
import DidToken.PublicKey
import DidToken.Secp256k1.Ecdsa
/-!
# Signatures

A signature is two numbers of 256 bits and a recovery id. Its bytes, as they stand in tokens, are the
two numbers and, in the recoverable form, the id. Messages are hashed by SHA-256.

Nothing is known of the numbers before a signature is used; `normalize` checks them and goes over to
the smaller value of `s`.

A signer signs for a key that it may keep anywhere; signing is an effect of the monad `m`, and may
fail for a reason given as text.
-/

namespace DidToken

structure Signature where
  r : BitVec 256
  s : BitVec 256
  recoveryId : UInt8
deriving DecidableEq

namespace Signature

open Secp256k1

inductive Fault where
  | length (count : Nat)
  | recoveryId (value : UInt8)
  /-- The numbers are out of range, or the signature fails. -/
  | invalid
deriving DecidableEq, Repr

def Fault.message : Fault → String
  | .length count => "Expected a 64 or 65 byte signature, got " ++ toString count ++ " bytes"
  | .recoveryId value => "Invalid recovery id: " ++ toString value.toNat
  | .invalid => "signature error"

/-! ### Bytes -/

def word (x : BitVec 256) : Bytes :=
  Bytes.ofNat 32 x.toNat

/-- The bytes of a signature, with the recovery id if so asked. -/
def toBytes (a : Signature) (withId : Bool) : Bytes :=
  word a.r ++ word a.s ++ if withId then [a.recoveryId] else []

/-- Some writers add this to recovery ids. -/
def idOffset : UInt8 := 27

/-- The signatures that bytes may stand for: one if they carry a recovery id, otherwise those with
the ids 0 and 1. -/
def ofBytes (b : Bytes) : Except Fault (List Signature) :=
  let r := BitVec.ofNat 256 (Bytes.toNat (b.take 32))
  let s := BitVec.ofNat 256 (Bytes.toNat ((b.drop 32).take 32))
  if b.length = 64 then .ok [⟨r, s, 0⟩, ⟨r, s, 1⟩]
  else if b.length = 65 then
    let v := (b.drop 64).headD 0
    .ok [⟨r, s, if idOffset ≤ v then v - idOffset else v⟩]
  else .error (.length b.length)

/-! ### Use -/

def hash (message : Bytes) : Scalar :=
  Scalar.ofNat (Bytes.toNat (Hash.Sha256.digest message))

/-- The signature as scalars, with the smaller value of `s`. -/
def normalize (a : Signature) : Except Fault Ecdsa.Signed := do
  match Scalar.ofNat? a.r.toNat, Scalar.ofNat? a.s.toNat with
  | some r, some s =>
    match RecoveryId.ofUInt8? a.recoveryId with
    | some id => return Ecdsa.Signed.lower ⟨r, s, id⟩
    | none => throw (.recoveryId a.recoveryId)
  | _, _ => throw .invalid

/-- The address of the key that signed a message. -/
def recoverAddress (a : Signature) (message : Bytes) : Except Fault String := do
  let n ← a.normalize
  match Ecdsa.recover? (hash message) n with
  | some key => return PublicKey.address key
  | none => throw .invalid

/-- Checks the signature of a message under a key. The recovery id must be one, but is not used. -/
def verify (a : Signature) (message : Bytes) (key : PublicKey) : Except Fault Unit := do
  let n ← a.normalize
  if Ecdsa.verify key (hash message) n.r n.s then return () else throw .invalid

def ofSigned (a : Ecdsa.Signed) : Signature :=
  ⟨BitVec.ofNat 256 a.r.val, BitVec.ofNat 256 a.s.val, a.recoveryId.toUInt8⟩

end Signature

/-! ### Signers -/

/-- Something that signs for one key. -/
structure Signer (m : Type → Type) where
  address : String
  sign : Bytes → m (Except String Signature)

/-- A signer of an address that always fails for the same reason. -/
def Signer.failing {m : Type → Type} [Monad m] (address reason : String) : Signer m where
  address
  sign _ := return .error reason

end DidToken
