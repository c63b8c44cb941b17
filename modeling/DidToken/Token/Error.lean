import DidToken.Did
import DidToken.Json.Reader
import DidToken.Signature
import DidToken.Text.Base64
/-!
# What can go wrong with tokens

Structural problems are told apart from those with the identity of the issuer and from those with the
signature. There is no error for anything else: a token can always be encoded, and the lock of a registry
is assumed not to be poisoned (`DidToken.Registry`).
-/

namespace DidToken.Token

inductive Segment where
  | header
  | payload
  | signature
deriving DecidableEq, Repr

def Segment.name : Segment → String
  | .header => "header"
  | .payload => "payload"
  | .signature => "signature"

inductive SegmentFault where
  | base64 (cause : Text.Base64.Fault)
  | json (cause : Json.Fault)
deriving DecidableEq, Repr

def SegmentFault.message : SegmentFault → String
  | .base64 cause => cause.message
  | .json .truncated => "the JSON text ends too early"
  | .json .malformed => "the text is not JSON"
  | .json .mismatch => "the JSON text has another shape"

/-- A claim that says from when on a token is valid. -/
inductive StartClaim where
  | notBefore
  | issuedAt
deriving DecidableEq, Repr

def StartClaim.name : StartClaim → String
  | .notBefore => "nbf"
  | .issuedAt => "iat"

/-- Why the creation, decoding or verification of a token failed. -/
inductive Error where
  /-- The token does not have three segments. -/
  | segmentCount
  | emptySegment (segment : Segment)
  | malformedSegment (segment : Segment) (cause : SegmentFault)
  | unsupportedAlgorithm (name : String)
  | unsupportedMethod (method : String)
  | resolutionFailed (did cause : String)
  | expired (expiration : Int64)
  | notYetValid (claim : StartClaim) (timestamp : Int64)
  /-- The bytes of the signature are none of a signature. -/
  | malformedSignature (cause : Signature.Fault)
  /-- The signature is none of a key of the issuer. -/
  | foreignSignature (issuer : String)
  | invalidIssuer (text : String)
  | audienceRequired (audience : String)
  | audienceMismatch (audience expected : String)
  /-- The document of this id has no keys that could have signed. -/
  | noSuitableKeys (id : String)
  | signingFailed (reason : String)
deriving DecidableEq

def Error.message : Error → String
  | .segmentCount => "Malformed token: Token must have 3 parts: Header, Payload, and Signature"
  | .emptySegment segment => "Malformed token: " ++ segment.name ++ " cannot be empty"
  | .malformedSegment segment cause =>
    "Could not decode JWT " ++ segment.name ++ " segment: " ++ cause.message
  | .unsupportedAlgorithm name => "JWT algorithm '" ++ name ++ "' is not supported"
  | .unsupportedMethod method => "No DID resolver is registered for method '" ++ method ++ "'"
  | .resolutionFailed did cause => "Could not resolve " ++ did ++ ": " ++ cause
  | .expired expiration => "JWT has expired: exp: " ++ toString expiration.toInt
  | .notYetValid claim timestamp =>
    "JWT is not valid yet: " ++ claim.name ++ ": " ++ toString timestamp.toInt
  | .malformedSignature cause => "Signature invalid for JWT: " ++ cause.message
  | .foreignSignature issuer =>
    "Signature invalid for JWT: DID document for " ++ issuer
      ++ " does not have any matching public keys"
  | .invalidIssuer text => "JWT issuer is not a valid DID: " ++ Text.Quoted.text text
  | .audienceRequired audience =>
    "JWT audience " ++ audience ++ " is required but no audience was configured for verification"
  | .audienceMismatch audience expected =>
    "JWT audience does not match: aud: " ++ audience ++ " != yours: " ++ expected
  | .noSuitableKeys id =>
    "DID document for " ++ id ++ " has no public keys suitable for verification"
  | .signingFailed reason => "Signer failed to produce a signature: " ++ reason

end DidToken.Token
