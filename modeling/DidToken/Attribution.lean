import DidToken.Algorithm
import DidToken.Did
import DidToken.Document.Basic
import DidToken.Signature
/-!
# Whose signature it is

A signature is attributed to the keys of a document: by the address that it recovers to, or by
checking it under each key.
-/

namespace DidToken

namespace KeyEntry

/-- The public key of an entry, if its bytes are those of a key. -/
def publicKey? (entry : KeyEntry) : Option PublicKey :=
  match entry.bytes with
  | some (.ok b) => PublicKey.ofBytes? b
  | _ => none

/-- The address of an entry in the form for comparison: the one it names, or else that of its key. -/
def address? (entry : KeyEntry) : Option String :=
  match entry.ethereumAddress with
  | some address => some (Address.canonical address)
  | none => entry.publicKey?.map fun key => Address.canonical (PublicKey.address key)

end KeyEntry

namespace Document

/-- The keys of a document that can check signatures of tokens. With `authenticating`, only those
that may be used to authenticate. -/
def verifyingKeys (d : Document) (authenticating : Bool) : List KeyEntry :=
  d.keys.filter fun entry =>
    entry.isVerifying && (!authenticating || d.authenticationKeyIds.contains entry.id)

end Document

namespace Signature

def recoveredAddresses (candidates : List Signature) (message : Bytes) : List String :=
  candidates.filterMap fun candidate =>
    match candidate.recoverAddress message with
    | .ok address => some (Address.canonical address)
    | .error _ => none

/-- Whether one of the signatures recovers to the address of one of the keys. -/
def recoversTo (keys : List KeyEntry) (candidates : List Signature) (message : Bytes) : Bool :=
  let addresses := recoveredAddresses candidates message
  (keys.filterMap KeyEntry.address?).any addresses.contains

/-- Whether the first of the signatures verifies under one of the keys. The others differ from it in
the recovery id only. -/
def verifiesUnder (keys : List KeyEntry) (candidates : List Signature) (message : Bytes) : Bool :=
  match candidates with
  | [] => false
  | candidate :: _ =>
    (keys.filterMap KeyEntry.publicKey?).any fun key => (candidate.verify message key).isOk

/-- Whether the bytes of a signature of a message come from one of the keys. A recoverable signature
must recover to the address of a key. A plain one must verify under a key, or else recover to the
address of a key, if any key names its address. -/
def comesFrom (algorithm : Algorithm) (keys : List KeyEntry) (signature message : Bytes) :
    Except Fault Bool := do
  let candidates ← ofBytes signature
  match algorithm with
  | .recoverable => return recoversTo keys candidates message
  | .plain =>
    if verifiesUnder keys candidates message then return true
    else
      return keys.any (fun key => key.ethereumAddress.isSome) && recoversTo keys candidates message

end Signature

end DidToken
