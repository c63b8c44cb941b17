import DidToken.Did
import DidToken.Json.Description
import DidToken.Text.Quoted
import DidToken.Token.Issue
/-!
# Drafts of tokens

A draft collects what a token is made of, in any order of steps. A draft that has a signer is ready;
unless it names an issuer, the issuer is the DID of the signer's address.
-/

namespace DidToken.Token

open Json

/-- A token in preparation. -/
structure Draft (m : Type → Type) where
  signer : Option (Signer m)
  issuer : Option String
  claims : RawPayload
  lifetime : Int64
  algorithm : Algorithm

/-- All that a token is made of, but for the time. -/
structure Ready (m : Type → Type) where
  signer : Signer m
  issuer : String
  claims : RawPayload
  lifetime : Int64
  algorithm : Algorithm

namespace Draft

variable {m : Type → Type}

def empty : Draft m where
  signer := none
  issuer := none
  claims := []
  lifetime := defaultLifetime
  algorithm := .recoverable

def issuedBy (d : Draft m) (signer : Signer m) : Draft m :=
  { d with signer := some signer }

def asIssuer (d : Draft m) (did : String) : Draft m :=
  { d with issuer := some did }

/-- The token has this claim. A claim whose value has no JSON form is left out. -/
def withClaim (d : Draft m) (name : String) (v : Option Value) : Draft m :=
  match v with
  | some v => { d with claims := Assoc.insert d.claims name v }
  | none => d

def withClaims (d : Draft m) (claims : RawPayload) : Draft m :=
  { d with claims := Assoc.insertAll d.claims claims }

/-- The token is valid for so many seconds, or for the largest lifetime there is. -/
def withLifetime (d : Draft m) (seconds : UInt64) : Draft m :=
  { d with lifetime := Int64.ofInt (min seconds.toNat Int64.maxValue.toInt) }

def withoutExpiration (d : Draft m) : Draft m :=
  { d with lifetime := -1 }

def usingAlgorithm (d : Draft m) (algorithm : Algorithm) : Draft m :=
  { d with algorithm }

/-- The draft as a token that can be signed, if it has a signer. -/
def ready? (d : Draft m) : Option (Ready m) :=
  d.signer.map fun signer =>
    { signer
      issuer := d.issuer.getD (Did.ofAddress signer.address)
      claims := d.claims
      lifetime := d.lifetime
      algorithm := d.algorithm }

/-- What is said of a draft that is not ready. -/
def notReady : String := "Missing signer"

/-- What is shown of a draft: all but its signer. -/
def describe (d : Draft m) : String :=
  let issuer := match d.issuer with
    | some did => "Some(" ++ Text.Quoted.text did ++ ")"
    | none => "None"
  "JwtBuilder \x7b issuer: " ++ issuer
    ++ ", claims: " ++ Object.describe d.claims
    ++ ", expires_in_seconds: " ++ toString d.lifetime.toInt
    ++ ", algorithm: " ++ d.algorithm.label ++ ", .. \x7d"

end Draft

def Ready.sign {m : Type → Type} [Monad m] (r : Ready m) (now : UInt64) : m (Except Error String) :=
  create now r.claims r.issuer r.signer r.lifetime r.algorithm.name

end DidToken.Token
