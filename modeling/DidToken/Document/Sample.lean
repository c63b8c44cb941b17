import DidToken.Did
import DidToken.Document.Basic
/-!
# Documents with one key

The documents that subjects have who never did more than make a key.
-/

namespace DidToken.Document

/-- The document of the holder of an address, who may authenticate. The address may also be given as
the DID that it stands for. -/
def ofAddress (address : String) : Document :=
  let did := if Did.scheme.toList.isPrefixOf address.toList then address else Address.normalize address
  let keyId := did ++ "#owner"
  { empty did with
    keys := [{
      id := keyId
      keyType := KeyType.verificationKey2018
      owner := did
      ethereumAddress := some address
      hex := none
      base64 := none
      base58 := none
      value := none }]
    authentication := [{ keyType := KeyType.signatureAuthentication2018, keyId }] }

/-- The document of a subject with a key in hexadecimal, which is not listed for authentication. -/
def ofPublicKey (did hex : String) : Document :=
  { empty did with
    keys := [{
      id := did ++ "#keys-1"
      keyType := KeyType.verificationKey2018
      owner := did
      ethereumAddress := none
      hex := some hex
      base64 := none
      base58 := none
      value := none }] }

end DidToken.Document
