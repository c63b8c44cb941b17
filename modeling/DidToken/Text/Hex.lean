import DidToken.Bytes
import DidToken.Text.Quoted
/-!
# Hexadecimal

Two digits for each byte, the high half first. Writing uses lower-case digits; reading takes either
case and reports the first digit it cannot take. Texts may carry the marker `0x` (or `0X`), which
`stripMarker` removes.
-/

namespace DidToken.Text.Hex

def digits (x : UInt8) : List Char :=
  [Nat.digitChar (x.toNat / 16), Nat.digitChar (x.toNat % 16)]

def encode (b : Bytes) : String :=
  String.ofList (b.flatMap digits)

inductive Fault where
  | oddLength
  /-- The byte at this index of the text is not a digit. -/
  | badDigit (byte : UInt8) (index : Nat)
deriving DecidableEq, Repr

/-- The wording of a fault. A byte that is not a digit is shown as the character of that number. -/
def Fault.message : Fault → String
  | .oddLength => "Odd number of digits"
  | .badDigit byte index =>
    "Invalid character " ++ Quoted.char (Char.ofUInt8 byte) ++ " at position " ++ toString index

/-- The value of a digit, in either case. -/
def value? (x : UInt8) : Option Nat :=
  if 0x30 ≤ x && x ≤ 0x39 then some (x.toNat - 0x30)
  else if 0x61 ≤ x && x ≤ 0x66 then some (x.toNat - 0x57)
  else if 0x41 ≤ x && x ≤ 0x46 then some (x.toNat - 0x37)
  else none

def digitAt (index : Nat) (x : UInt8) : Except Fault Nat :=
  match value? x with
  | some v => .ok v
  | none => .error (.badDigit x index)

/-- The bytes that pairs of digits denote, the first digit standing at `index`. -/
def pairs (index : Nat) : Bytes → Except Fault Bytes
  | [] => .ok []
  | [_] => .error .oddLength
  | x :: y :: rest => do
    let high ← digitAt index x
    let low ← digitAt (index + 1) y
    let tail ← pairs (index + 2) rest
    return UInt8.ofNat (16 * high + low) :: tail

/-- The bytes that a text denotes. An odd length is reported before any digit. -/
def decode (s : String) : Except Fault Bytes :=
  let b := Bytes.ofString s
  if b.length % 2 = 1 then .error .oddLength else pairs 0 b

/-- A text without one leading `0x` or `0X`. -/
def stripMarker (s : String) : String :=
  match s.toList with
  | '0' :: 'x' :: rest => String.ofList rest
  | '0' :: 'X' :: rest => String.ofList rest
  | _ => s

end DidToken.Text.Hex
