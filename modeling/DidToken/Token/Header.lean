import DidToken.Algorithm
import DidToken.Json.Printer
import DidToken.Json.Record
import DidToken.Token.Error
/-!
# Token headers

The header names the type of the token and the algorithm of its signature, as texts that may be
anything; `algorithm` tells whether the second is one that is supported.
-/

namespace DidToken.Token

open Json

/-- The algorithm of a name, which must be one that is supported. -/
def algorithmOf (name : String) : Except Error Algorithm :=
  match Algorithm.ofName? name with
  | some a => .ok a
  | none => .error (.unsupportedAlgorithm name)

structure Header where
  typ : String
  alg : String
deriving DecidableEq

namespace Header

/-- The type of a token whose header names none. -/
def defaultTyp : String := "JWT"

/-- The header of the tokens that are signed by an algorithm. -/
def ofAlgorithm (algorithm : Algorithm) : Header :=
  ⟨defaultTyp, algorithm.name⟩

/-- The header where nothing else is asked for. -/
def default : Header :=
  ofAlgorithm .plain

/-- The algorithm that the header names. -/
def algorithm (h : Header) : Except Error Algorithm :=
  algorithmOf h.alg

def toObject (h : Header) : Object :=
  [("typ", .str h.typ), ("alg", .str h.alg)]

structure Draft where
  typ : Option String := none
  alg : Option String := none

def record : Record Draft Header where
  fields :=
    [.of "typ" string Draft.typ (fun d v => { d with typ := some v }) true,
     .of "alg" string Draft.alg (fun d v => { d with alg := some v }) false]
  unknown := ignore
  empty := {}
  finish d := do return { typ := d.typ.getD defaultTyp, alg := ← d.alg }

end Header

end DidToken.Token
