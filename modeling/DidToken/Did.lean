import DidToken.Text.Hex
/-!
# Decentralized identifiers

A DID is the text `did:`, a method, a colon and an identifier whose form is up to the method. The
method `ethr` identifies the holder of a key by an address: forty hexadecimal digits, possibly marked
by `0x`. Such an address is often given in place of its DID, and `normalize` makes up for that.
-/

namespace DidToken

structure Did where
  method : String
  identifier : String
  method_ne_empty : method ≠ ""
  identifier_ne_empty : identifier ≠ ""
deriving DecidableEq

namespace Did

def scheme : String := "did:"

/-- The method whose identifiers are addresses. -/
def ethr : String := "ethr"

/-- Why there is no such DID. -/
inductive Fault where
  | noScheme (text : String)
  | noIdentifier (text : String)
  | emptyMethod
  | emptyIdentifier
deriving DecidableEq, Repr

def Fault.message : Fault → String
  | .noScheme text => "Expected a string starting with '" ++ scheme ++ "', got: " ++ text
  | .noIdentifier text => "Expected did:<method>:<identifier>, got: " ++ text
  | .emptyMethod => "DID method cannot be empty"
  | .emptyIdentifier => "DID method-specific identifier cannot be empty"

def make (method identifier : String) : Except Fault Did :=
  if hm : method = "" then .error .emptyMethod
  else if hi : identifier = "" then .error .emptyIdentifier
  else .ok ⟨method, identifier, hm, hi⟩

/-- The DID that a text is. The method ends at the first colon after the scheme; all that follows is
the identifier. -/
def parse (text : String) : Except Fault Did :=
  match text.toList with
  | 'd' :: 'i' :: 'd' :: ':' :: rest =>
    match rest.dropWhile (· ≠ ':') with
    | _ :: identifier => make (String.ofList (rest.takeWhile (· ≠ ':'))) (String.ofList identifier)
    | [] => .error (.noIdentifier text)
  | _ => .error (.noScheme text)

def text (d : Did) : String :=
  scheme ++ d.method ++ ":" ++ d.identifier

def ofAddress (address : String) : String :=
  scheme ++ ethr ++ ":" ++ address

end Did

namespace Address

def isDigit (c : Char) : Bool :=
  c.isDigit || ('a' ≤ c && c ≤ 'f') || ('A' ≤ c && c ≤ 'F')

/-- Whether a text is an address: forty digits, possibly marked. -/
def isAddress (text : String) : Bool :=
  let digits := (Text.Hex.stripMarker text).toList
  digits.length = 40 && digits.all isDigit

/-- The text of the DID that an address stands for; any other text as it is. -/
def normalize (text : String) : String :=
  if isAddress text then Did.ofAddress ("0x" ++ Text.Hex.stripMarker text) else text

/-- The form in which addresses are compared: without the marker, in lower case. An address that a key
has is in ASCII, and so is every text whose lower case is such an address. -/
def canonical (text : String) : String :=
  (Text.Hex.stripMarker text).toLower

end Address

end DidToken
