/-!
# Signature algorithms

Tokens are signed by ECDSA over secp256k1 and SHA-256, in two forms: with the bare signature, or with
one more byte from which the signer's key can be recovered.
-/

namespace DidToken

/-- The form of the signatures of a token. -/
inductive Algorithm where
  | plain
  | recoverable
deriving DecidableEq, Repr

namespace Algorithm

def name : Algorithm → String
  | .plain => "ES256K"
  | .recoverable => "ES256K-R"

/-- The name of an algorithm in letters and digits only. -/
def label : Algorithm → String
  | .plain => "ES256K"
  | .recoverable => "ES256KR"

def ofName? (text : String) : Option Algorithm :=
  if text = Algorithm.name .plain then some .plain
  else if text = Algorithm.name .recoverable then some .recoverable
  else none

def isRecoverable : Algorithm → Bool
  | .plain => false
  | .recoverable => true

@[simp] theorem ofName?_name (a : Algorithm) : ofName? a.name = some a := by
  cases a <;> decide

end Algorithm

end DidToken
