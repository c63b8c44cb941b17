import DidToken.Decimal.Shortest
/-!
# Floating-point numbers as text

A finite number is written with its shortest digits: positionally, with at least one digit after the
point, when the exponent of its leading digit is moderate, and otherwise with one digit before the
point and a signed exponent.
-/

namespace DidToken.Decimal

/-- Numbers whose leading digit stands for `10 ^ leastPlain` to `10 ^ greatestPlain` are written
positionally. -/
def leastPlain : Int := -5

/-- The largest exponent of the leading digit that is written positionally. -/
def greatestPlain : Int := 15

def zeros (count : Nat) : String :=
  String.ofList (List.replicate count '0')

/-- Digits with a point after the first `count`, with zeros where digits are missing. -/
def withPoint (digits : List Char) (count : Int) : String :=
  if count ≤ 0 then "0." ++ zeros (-count).toNat ++ String.ofList digits
  else if digits.length ≤ count then
    String.ofList digits ++ zeros (count - digits.length).toNat ++ ".0"
  else
    String.ofList (digits.take count.toNat) ++ "." ++ String.ofList (digits.drop count.toNat)

def signedExponent (e : Int) : String :=
  (if e < 0 then "-" else "+") ++ toString e.natAbs

/-- Digits with a point after the first one, if more follow, and the exponent of the first. -/
def withExponent (digits : List Char) (e : Int) : String :=
  match digits with
  | [d] => d.toString ++ "e" ++ signedExponent e
  | _ =>
    String.ofList (digits.take 1) ++ "." ++ String.ofList (digits.drop 1) ++ "e" ++ signedExponent e

def Scaled.layout (d : Scaled) : String :=
  let digits := Nat.toDigits 10 d.digits
  let leading := d.exponent + digits.length - 1
  if leastPlain ≤ leading && leading ≤ greatestPlain then withPoint digits (leading + 1)
  else withExponent digits leading

/-- A finite number as text. Zero has a sign, too. -/
def ofFloat (x : Float) : String :=
  let bits := x.toBits
  let sign := if bits >>> 63 = 0 then "" else "-"
  let magnitude := bits &&& 0x7fffffffffffffff
  sign ++ if magnitude = 0 then "0.0" else (Binary.ofBits magnitude).shortest.layout

end DidToken.Decimal
