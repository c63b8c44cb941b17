import DidToken.Token.Header
import DidToken.Token.Payload
/-!
# Compact tokens

A token is the text of three segments with dots between them: header and payload, which are compact
JSON in base64 without padding, and the bytes of the signature in base64. What is signed is the text
of the first two with the dot between them, as it stands in the token.
-/

namespace DidToken.Token

open Json Text

/-! ### Segments -/

def encodeBytes (b : Bytes) : String :=
  Base64.encode Base64.urlSafe b

def decodeBytes (segment : Segment) (text : String) : Except Error Bytes :=
  (Base64.decode Base64.urlSafe .optional text).mapError
    fun cause => .malformedSegment segment (.base64 cause)

def encodeObject (o : Object) : String :=
  encodeBytes (Bytes.ofString (Value.render (.obj o)))

/-- What a reader finds in a segment. -/
def decodeSegment {α : Type} (segment : Segment) (reader : Reader α) (text : String) :
    Except Error α := do
  let b ← decodeBytes segment text
  (whole reader b).mapError fun cause => .malformedSegment segment (.json cause)

/-! ### Splitting -/

/-- The texts before, between and after the dots. -/
def pieces : List Char → List (List Char)
  | [] => [[]]
  | c :: rest =>
    if c = '.' then [] :: pieces rest
    else match pieces rest with
      | piece :: more => (c :: piece) :: more
      | [] => [[c]]

structure Segments where
  header : String
  payload : String
  signature : String
deriving DecidableEq

def Segments.signingInput (s : Segments) : String :=
  s.header ++ "." ++ s.payload

def Segments.text (s : Segments) : String :=
  s.signingInput ++ "." ++ s.signature

/-- A token cut at its dots into three segments, none of which may be empty. -/
def split (token : String) : Except Error Segments :=
  match pieces token.toList with
  | [header, payload, signature] =>
    if header = [] then .error (.emptySegment .header)
    else if payload = [] then .error (.emptySegment .payload)
    else if signature = [] then .error (.emptySegment .signature)
    else .ok ⟨String.ofList header, String.ofList payload, String.ofList signature⟩
  | _ => .error .segmentCount

/-! ### Decoding -/

/-- A token taken apart, without any check of its claims or its signature. -/
structure Decoded (π : Type) where
  header : Header
  payload : π
  signature : Bytes
  signedData : Bytes

/-- A token taken apart, its payload as `reader` finds it. -/
def decodeWith {π : Type} (reader : Reader π) (token : String) : Except Error (Decoded π) := do
  let segments ← split token
  let header ← decodeSegment .header Header.record.read segments.header
  let payload ← decodeSegment .payload reader segments.payload
  let signature ← decodeBytes .signature segments.signature
  return { header, payload, signature, signedData := Bytes.ofString segments.signingInput }

def decode (token : String) : Except Error (Decoded Payload) :=
  decodeWith Payload.record.readObject token

def decodeRaw (token : String) : Except Error (Decoded RawPayload) :=
  decodeWith (object maxDepth) token

end DidToken.Token
