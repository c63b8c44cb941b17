import DidToken.Signature
import DidToken.Token.Compact
/-!
# Issuing tokens

A token carries the claims of its issuer, in order, and then, unless they are among them, the time of
issue, the time of expiration and the issuer. A claim of these three that is given as `null` is left
out of the token.
-/

namespace DidToken.Token

open Json

/-- How long tokens are valid where nothing else is asked for, in seconds. -/
def defaultLifetime : Int64 := 300

/-- The time of expiration of a token with a lifetime from zero up. It ends with the largest clock
reading. -/
def expiration (now : UInt64) (lifetime : Int64) : UInt64 :=
  UInt64.ofNat (min (now.toNat + lifetime.toInt.toNat) (UInt64.size - 1))

/-- The claims with one that is left out if given as `null`, kept if given otherwise, and added at the
end if not given. -/
def complete (claims : RawPayload) (name : String) (v : Value) : RawPayload :=
  match Assoc.get? claims name with
  | some given => if given.isNull then Assoc.erase claims name else claims
  | none => Assoc.insert claims name v

/-- The payload of a token with the given claims. A negative lifetime stands for no end, and then the
token names no time of expiration. -/
def mergeClaims (now : UInt64) (issuer : String) (lifetime : Int64) (claims : RawPayload) :
    RawPayload :=
  let stamped := complete claims "iat" (.int (Integer.ofUInt64 now))
  let limited :=
    if lifetime < 0 then Assoc.erase stamped "exp"
    else complete stamped "exp" (.int (Integer.ofUInt64 (expiration now lifetime)))
  complete limited "iss" (.str issuer)

/-- The text that a signer of a token is given. -/
def signingInput (header : Header) (payload : RawPayload) : String :=
  encodeObject header.toObject ++ "." ++ encodeObject payload

/-- A token with the given claims, signed by an algorithm given by name. Nothing checks that the
issuer belongs to the signer. -/
def create {m : Type → Type} [Monad m] (now : UInt64) (claims : RawPayload) (issuer : String)
    (signer : Signer m) (lifetime : Int64) (algorithm : String) : m (Except Error String) := do
  match algorithmOf algorithm with
  | .error e => return .error e
  | .ok a =>
    let input :=
      signingInput (Header.ofAlgorithm a) (mergeClaims now issuer lifetime claims)
    match ← signer.sign (Bytes.ofString input) with
    | .error reason => return .error (.signingFailed reason)
    | .ok signature =>
      return .ok (input ++ "." ++ encodeBytes (signature.toBytes a.isRecoverable))

end DidToken.Token
