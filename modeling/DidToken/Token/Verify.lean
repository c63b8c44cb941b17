import DidToken.Attribution
import DidToken.Clock
import DidToken.Registry
import DidToken.Token.Compact
/-!
# Verifying tokens

A token is verified in three steps. First come all checks that need no resolver (`check`): it is
decoded, its times, its algorithm, its issuer and its audience are looked at. Then the document of the
issuer is resolved, by one call. At last the signature is attributed to the keys of the document
(`conclude`). The first check that fails decides, and nothing is resolved for a token that fails
one.
-/

namespace DidToken.Token

/-- What a verifier asks for. -/
structure Policy where
  /-- The key must be one that may be used to authenticate. -/
  authenticating : Bool := false
  /-- The audience that a token must name if it names one that the registry can resolve. A token may name
  any audience that cannot be resolved, whatever the verifier asks for. -/
  audience : Option String := none
  ignoringTimes : Bool := false
  /-- Replaces how far the clock may be off. -/
  skew : Option UInt64 := none

/-! ### Times -/

def latest : Int := Int64.maxValue.toInt

def earliest : Int := Int64.minValue.toInt

/-- Checks that a payload is valid by the time `last`. The time of issue only counts where no time
says from when on the token is valid. -/
def checkStart (last : Int) (p : Payload) : Except Error Unit :=
  match p.notBefore, p.issuedAt with
  | some t, _ => if last < t.toInt then .error (.notYetValid .notBefore t) else .ok ()
  | none, some t => if last < t.toInt then .error (.notYetValid .issuedAt t) else .ok ()
  | none, none => .ok ()

/-- Checks that a payload is not expired by the time `first`. -/
def checkEnd (first : Int) (p : Payload) : Except Error Unit :=
  match p.expiration with
  | some t => if t.toInt ≤ first then .error (.expired t) else .ok ()
  | none => .ok ()

/-- Checks the times of a payload, give or take the skew. Clock reading, skew, sum and difference are
cut off at the ends of the signed words. -/
def checkTimes (now skew : UInt64) (p : Payload) : Except Error Unit := do
  let reading := min (now.toNat : Int) latest
  let drift := min (skew.toNat : Int) latest
  checkStart (min (reading + drift) latest) p
  checkEnd (max (reading - drift) earliest) p

/-! ### The audience -/

/-- Checks the audience of a payload: one that the registry could resolve must be the one that the
verifier names. -/
def checkAudience {m : Type → Type} (registry : Registry m) (policy : Policy) (p : Payload) :
    Except Error Unit :=
  match p.audience with
  | none => .ok ()
  | some text =>
    let audience := Address.normalize text
    if registry.canResolve audience then
      match policy.audience with
      | none => .error (.audienceRequired audience)
      | some expected =>
        if expected = audience then .ok () else .error (.audienceMismatch audience expected)
    else .ok ()

/-! ### Verification -/

/-- A token that passed all checks but that of its signature. -/
structure Checked where
  token : Decoded Payload
  algorithm : Algorithm
  issuer : String

def check {m : Type → Type} (clock : Clock) (registry : Registry m) (policy : Policy)
    (token : String) : Except Error Checked := do
  let decoded ← decode token
  if !policy.ignoringTimes then
    checkTimes clock.now (policy.skew.getD clock.skew) decoded.payload
  let algorithm ← decoded.header.algorithm
  let issuer := Address.normalize decoded.payload.issuer
  match Did.parse issuer with
  | .error _ => throw (.invalidIssuer decoded.payload.issuer)
  | .ok _ =>
    checkAudience registry policy decoded.payload
    return { token := decoded, algorithm, issuer }

/-- The keys of a document that the signature of a token may come from, of which there must be
one. -/
def suitableKeys (document : Document) (authenticating : Bool) : Except Error (List KeyEntry) :=
  let keys := document.verifyingKeys authenticating
  if keys.isEmpty then .error (.noSuitableKeys document.id) else .ok keys

/-- Attributes the signature of a token to the keys of the document of its issuer. -/
def conclude (policy : Policy) (checked : Checked) (document : Document) : Except Error Payload := do
  let keys ← suitableKeys document policy.authenticating
  match Signature.comesFrom checked.algorithm keys checked.token.signature
    checked.token.signedData with
  | .error cause => throw (.malformedSignature cause)
  | .ok false => throw (.foreignSignature checked.issuer)
  | .ok true => return checked.token.payload

/-- Verification while the registry changes: the audience is judged by its first state, and the
resolver of the issuer is looked up in its second. -/
def verifyAcross {m : Type → Type} [Monad m] (clock : Clock) (first second : Registry m)
    (policy : Policy) (token : String) : m (Except Error Payload) := do
  match check clock first policy token with
  | .error e => return .error e
  | .ok checked =>
    match ← second.resolve checked.issuer with
    | .error e => return .error e
    | .ok document => return conclude policy checked document

/-- The payload of a token that is valid by a clock and signed by its issuer. -/
def verify {m : Type → Type} [Monad m] (clock : Clock) (registry : Registry m) (policy : Policy)
    (token : String) : m (Except Error Payload) :=
  verifyAcross clock registry registry policy token

/-- Verification with the registry in a cell, which is read when the audience is judged and again when
the resolver is looked up. -/
def verifyShared {m : Type → Type} [Monad m] (clock : Clock) (policy : Policy) (token : String) :
    StateT (Registry m) m (Except Error Payload) := do
  let first ← get
  match check clock first policy token with
  | .error e => return .error e
  | .ok checked =>
    let second ← get
    match ← StateT.lift (second.resolve checked.issuer) with
    | .error e => return .error e
    | .ok document => return conclude policy checked document

end DidToken.Token
