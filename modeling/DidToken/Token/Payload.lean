import DidToken.Json.Printer
import DidToken.Json.Record
/-!
# Token payloads

The payload of a token is an object, whose members are the claims. A raw payload keeps all of them in
order. A typed payload has a field for each registered claim and keeps all others, in order, in
`extra`, so that no claim is lost.
-/

namespace DidToken.Token

open Json

/-- All claims, in order. -/
abbrev RawPayload := Object

/-- The claims by their meaning. -/
structure Payload where
  /-- The issuer; empty when the token names none. -/
  issuer : String
  subject : Option String
  audience : Option String
  issuedAt : Option Int64
  notBefore : Option Int64
  expiration : Option Int64
  callback : Option String
  payloadType : Option String
  claims : Option Object
  extra : Object

namespace Payload

def empty : Payload where
  issuer := ""
  subject := none
  audience := none
  issuedAt := none
  notBefore := none
  expiration := none
  callback := none
  payloadType := none
  claims := none
  extra := []

/-- The value of a claim that has no field of its own. -/
def claim? (p : Payload) (name : String) : Option Value :=
  Assoc.get? p.extra name

/-- The names of the claims that have a field of their own. -/
def registered : List String :=
  ["iss", "sub", "aud", "iat", "nbf", "exp", "callback", "type", "claim"]

def time (t : Int64) : Value :=
  .int (Integer.ofInt64 t)

/-- The payload as a JSON object: first the registered claims that are there, always with the issuer,
then all others. -/
def toObject (p : Payload) : Object :=
  ("iss", .str p.issuer)
    :: optionalMember "sub" .str p.subject
    ++ optionalMember "aud" .str p.audience
    ++ optionalMember "iat" time p.issuedAt
    ++ optionalMember "nbf" time p.notBefore
    ++ optionalMember "exp" time p.expiration
    ++ optionalMember "callback" .str p.callback
    ++ optionalMember "type" .str p.payloadType
    ++ optionalMember "claim" .obj p.claims
    ++ p.extra

structure Draft where
  issuer : Option String := none
  subject : Option (Option String) := none
  audience : Option (Option String) := none
  issuedAt : Option (Option Int64) := none
  notBefore : Option (Option Int64) := none
  expiration : Option (Option Int64) := none
  callback : Option (Option String) := none
  payloadType : Option (Option String) := none
  claims : Option (Option Object) := none
  extra : Object := []

/-- How deep the values of claims may nest, inside the payload itself. -/
def claimDepth : Nat := maxDepth - 1

/-- How a payload is read. Claims without a field are kept. -/
def record : Record Draft Payload where
  fields :=
    [.of "iss" string Draft.issuer (fun d v => { d with issuer := some v }) true,
     .of "sub" stringOrNull Draft.subject (fun d v => { d with subject := some v }) false,
     .of "aud" stringOrNull Draft.audience (fun d v => { d with audience := some v }) false,
     .of "iat" int64OrNull Draft.issuedAt (fun d v => { d with issuedAt := some v }) false,
     .of "nbf" int64OrNull Draft.notBefore (fun d v => { d with notBefore := some v }) false,
     .of "exp" int64OrNull Draft.expiration (fun d v => { d with expiration := some v }) false,
     .of "callback" stringOrNull Draft.callback (fun d v => { d with callback := some v }) false,
     .of "type" stringOrNull Draft.payloadType (fun d v => { d with payloadType := some v }) false,
     .of "claim" (objectOrNull claimDepth) Draft.claims (fun d v => { d with claims := some v })
      false]
  unknown name d := do
    let v ← value claimDepth
    return { d with extra := Assoc.insert d.extra name v }
  empty := {}
  finish d :=
    some {
      issuer := d.issuer.getD ""
      subject := d.subject.join
      audience := d.audience.join
      issuedAt := d.issuedAt.join
      notBefore := d.notBefore.join
      expiration := d.expiration.join
      callback := d.callback.join
      payloadType := d.payloadType.join
      claims := d.claims.join
      extra := d.extra }

end Payload

end DidToken.Token
