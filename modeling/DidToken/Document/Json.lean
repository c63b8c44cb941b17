import DidToken.Document.Basic
import DidToken.Json.Printer
import DidToken.Json.Record
/-!
# DID documents as JSON

Writing gives the members in a fixed order and leaves out what a key does not have. Reading takes
members in any order, passes over members of other names, and fills in what may be missing.
-/

namespace DidToken

open Json

namespace KeyEntry

def toObject (entry : KeyEntry) : Object :=
  [("id", .str entry.id), ("type", .str entry.keyType), ("owner", .str entry.owner)]
    ++ optionalMember "ethereumAddress" .str entry.ethereumAddress
    ++ optionalMember "publicKeyHex" .str entry.hex
    ++ optionalMember "publicKeyBase64" .str entry.base64
    ++ optionalMember "publicKeyBase58" .str entry.base58
    ++ optionalMember "value" .str entry.value

structure Draft where
  id : Option String := none
  keyType : Option String := none
  owner : Option String := none
  ethereumAddress : Option (Option String) := none
  hex : Option (Option String) := none
  base64 : Option (Option String) := none
  base58 : Option (Option String) := none
  value : Option (Option String) := none

def record : Record Draft KeyEntry where
  fields :=
    [.of "id" string Draft.id (fun d v => { d with id := some v }) false,
     .of "type" string Draft.keyType (fun d v => { d with keyType := some v }) false,
     .of "owner" string Draft.owner (fun d v => { d with owner := some v }) true,
     .of "ethereumAddress" stringOrNull Draft.ethereumAddress
      (fun d v => { d with ethereumAddress := some v }) false,
     .of "publicKeyHex" stringOrNull Draft.hex (fun d v => { d with hex := some v }) false,
     .of "publicKeyBase64" stringOrNull Draft.base64 (fun d v => { d with base64 := some v }) false,
     .of "publicKeyBase58" stringOrNull Draft.base58 (fun d v => { d with base58 := some v }) false,
     .of "value" stringOrNull Draft.value (fun d v => { d with value := some v }) false]
  unknown := ignore
  empty := {}
  finish d := do
    return {
      id := ← d.id
      keyType := ← d.keyType
      owner := d.owner.getD ""
      ethereumAddress := d.ethereumAddress.join
      hex := d.hex.join
      base64 := d.base64.join
      base58 := d.base58.join
      value := d.value.join }

end KeyEntry

namespace AuthenticationEntry

def toObject (entry : AuthenticationEntry) : Object :=
  [("type", .str entry.keyType), ("publicKey", .str entry.keyId)]

structure Draft where
  keyType : Option String := none
  keyId : Option String := none

def record : Record Draft AuthenticationEntry where
  fields :=
    [.of "type" string Draft.keyType (fun d v => { d with keyType := some v }) false,
     .of "publicKey" string Draft.keyId (fun d v => { d with keyId := some v }) false]
  unknown := ignore
  empty := {}
  finish d := do return { keyType := ← d.keyType, keyId := ← d.keyId }

end AuthenticationEntry

namespace ServiceEntry

def toObject (entry : ServiceEntry) : Object :=
  [("type", .str entry.serviceType), ("serviceEndpoint", .str entry.endpoint)]

structure Draft where
  serviceType : Option String := none
  endpoint : Option String := none

def record : Record Draft ServiceEntry where
  fields :=
    [.of "type" string Draft.serviceType (fun d v => { d with serviceType := some v }) false,
     .of "serviceEndpoint" string Draft.endpoint (fun d v => { d with endpoint := some v }) false]
  unknown := ignore
  empty := {}
  finish d := do return { serviceType := ← d.serviceType, endpoint := ← d.endpoint }

end ServiceEntry

namespace Document

def toObject (d : Document) : Object :=
  [("@context", .str d.context), ("id", .str d.id),
   ("publicKey", .arr (d.keys.map fun entry => .obj entry.toObject)),
   ("authentication", .arr (d.authentication.map fun entry => .obj entry.toObject)),
   ("service", .arr (d.services.map fun entry => .obj entry.toObject))]

def render (d : Document) : String :=
  Value.render (.obj d.toObject)

structure Draft where
  context : Option String := none
  id : Option String := none
  keys : Option (List KeyEntry) := none
  authentication : Option (List AuthenticationEntry) := none
  services : Option (List ServiceEntry) := none

def record : Record Draft Document where
  fields :=
    [.of "@context" string Draft.context (fun d v => { d with context := some v }) true,
     .of "id" string Draft.id (fun d v => { d with id := some v }) false,
     .of "publicKey" (list KeyEntry.record.read) Draft.keys
      (fun d v => { d with keys := some v }) true,
     .of "authentication" (list AuthenticationEntry.record.read) Draft.authentication
      (fun d v => { d with authentication := some v }) true,
     .of "service" (list ServiceEntry.record.read) Draft.services
      (fun d v => { d with services := some v }) true]
  unknown := ignore
  empty := {}
  finish d := do
    return {
      context := d.context.getD defaultContext
      id := ← d.id
      keys := d.keys.getD []
      authentication := d.authentication.getD []
      services := d.services.getD [] }

def parse (text : String) : Except Json.Fault Document :=
  whole record.read (Bytes.ofString text)

end Document

end DidToken
