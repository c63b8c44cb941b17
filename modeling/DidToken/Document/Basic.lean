import DidToken.Text.Base58
import DidToken.Text.Base64
import DidToken.Text.Hex
/-!
# DID documents

A DID resolves to a document, which lists the public keys of its subject and says which of them may
be used to authenticate. Types of keys are open: a document with keys of unknown types is as good as
any other.
-/

namespace DidToken

namespace KeyType

/-! ### Names of types of keys -/

def verificationKey2018 : String := "Secp256k1VerificationKey2018"

def signatureAuthentication2018 : String := "Secp256k1SignatureAuthentication2018"

def signatureVerificationKey2018 : String := "Secp256k1SignatureVerificationKey2018"

def ecdsaPublicKey : String := "EcdsaPublicKeySecp256k1"

def ecdsaVerificationKey2019 : String := "EcdsaSecp256k1VerificationKey2019"

def ecdsaRecoveryMethod2020 : String := "EcdsaSecp256k1RecoveryMethod2020"

/-- The types of keys that can check signatures of tokens. -/
def verifying : List String :=
  [verificationKey2018, signatureVerificationKey2018, ecdsaPublicKey, ecdsaVerificationKey2019,
   ecdsaRecoveryMethod2020]

end KeyType

/-- A public key as a document lists it: by its bytes in one of three encodings, by its address, or by
both. -/
structure KeyEntry where
  id : String
  keyType : String
  owner : String
  ethereumAddress : Option String
  hex : Option String
  base64 : Option String
  base58 : Option String
  value : Option String
deriving DecidableEq

/-- A reference to a key that may be used to authenticate. -/
structure AuthenticationEntry where
  keyType : String
  keyId : String
deriving DecidableEq

structure ServiceEntry where
  serviceType : String
  endpoint : String
deriving DecidableEq

structure Document where
  context : String
  id : String
  keys : List KeyEntry
  authentication : List AuthenticationEntry
  services : List ServiceEntry
deriving DecidableEq

namespace KeyEntry

def isVerifying (entry : KeyEntry) : Bool :=
  entry.keyType ∈ KeyType.verifying

/-- Why the bytes of a key cannot be read. -/
inductive Fault where
  | hex (cause : Text.Hex.Fault)
  | base64 (cause : Text.Base64.Fault)
  | base58 (cause : Text.Base58.Fault)
deriving DecidableEq, Repr

def Fault.message : Fault → String
  | .hex cause => cause.message
  | .base64 cause => cause.message
  | .base58 cause => cause.message

/-- The bytes of the key, from the first encoding that is there. None is there when the key is listed
by its address alone. -/
def bytes (entry : KeyEntry) : Option (Except Fault Bytes) :=
  match entry.hex, entry.base64, entry.base58 with
  | some text, _, _ => some ((Text.Hex.decode (Text.Hex.stripMarker text)).mapError .hex)
  | none, some text, _ =>
    some ((Text.Base64.decode Text.Base64.standard .required text).mapError .base64)
  | none, none, some text => some ((Text.Base58.decode text).mapError .base58)
  | none, none, none => none

end KeyEntry

namespace Document

def defaultContext : String := "https://w3id.org/did/v1"

def empty (id : String) : Document where
  context := defaultContext
  id
  keys := []
  authentication := []
  services := []

def authenticationKeyIds (d : Document) : List String :=
  d.authentication.map AuthenticationEntry.keyId

theorem mem_authenticationKeyIds_iff {d : Document} {id : String} :
    id ∈ d.authenticationKeyIds ↔ ∃ reference ∈ d.authentication, reference.keyId = id :=
  List.mem_map

end Document

end DidToken
