import DidToken.Bytes
import DidToken.Text.Quoted
/-!
# Base58

A text is a number in base 58, over an alphabet without the look-alikes `0`, `O`, `I` and `l`. Each
leading `1`, the digit zero, stands for a leading zero byte.
-/

namespace DidToken.Text.Base58

/-- The digits in order of their value. -/
def alphabet : List Char :=
  "123456789ABCDEFGHJKLMNPQRSTUVWXYZabcdefghijkmnopqrstuvwxyz".toList

inductive Fault where
  /-- The ASCII character at this index is not a digit. -/
  | badDigit (char : Char) (index : Nat)
  /-- A character outside ASCII starts at this index. -/
  | notAscii (index : Nat)
deriving DecidableEq, Repr

def Fault.message : Fault → String
  | .badDigit char index =>
    "provided string contained invalid character " ++ Quoted.char char ++ " at byte "
      ++ toString index
  | .notAscii index =>
    "provided string contained non-ascii character starting at byte " ++ toString index

def digitAt (index : Nat) (x : UInt8) : Except Fault Nat :=
  let c := Char.ofUInt8 x
  if 0x7f < x then .error (.notAscii index)
  else if c ∈ alphabet then .ok (alphabet.idxOf c)
  else .error (.badDigit c index)

/-- The number that digits denote after the number `n`, the first of them standing at `index`. -/
def number (index n : Nat) : Bytes → Except Fault Nat
  | [] => .ok n
  | x :: rest => do
    let v ← digitAt index x
    number (index + 1) (58 * n + v) rest

def decode (s : String) : Except Fault Bytes := do
  let text := Bytes.ofString s
  let n ← number 0 0 text
  let zeros := (text.takeWhile (· = 0x31)).length
  return List.replicate zeros 0 ++ Bytes.ofNatShort n

end DidToken.Text.Base58
