import DidToken.Bytes
/-!
# Base64

Three bytes are written as four symbols of six bits each; one or two bytes left at the end are
written as two or three symbols, whose unused low bits are zero. Writing never pads. Reading takes
padding only where a group of four is filled up by it, and refuses unused bits that are not zero, so
a byte string has one written form up to padding.
-/

namespace DidToken.Text.Base64

/-- A base64 alphabet. All alphabets begin with letters and digits; they differ in the last two
symbols. -/
structure Alphabet where
  penultimate : UInt8
  last : UInt8

/-- The alphabet that is safe in URLs and file names. -/
def urlSafe : Alphabet := ⟨0x2d, 0x5f⟩

def standard : Alphabet := ⟨0x2b, 0x2f⟩

/-- The symbol that stands for a number below 64. -/
def Alphabet.symbol (a : Alphabet) (n : Nat) : UInt8 :=
  if n < 26 then UInt8.ofNat (0x41 + n)
  else if n < 52 then UInt8.ofNat (0x61 + (n - 26))
  else if n < 62 then UInt8.ofNat (0x30 + (n - 52))
  else if n = 62 then a.penultimate
  else a.last

def Alphabet.value? (a : Alphabet) (x : UInt8) : Option Nat :=
  if 0x41 ≤ x && x ≤ 0x5a then some (x.toNat - 0x41)
  else if 0x61 ≤ x && x ≤ 0x7a then some (x.toNat - 0x61 + 26)
  else if 0x30 ≤ x && x ≤ 0x39 then some (x.toNat - 0x30 + 52)
  else if x = a.penultimate then some 62
  else if x = a.last then some 63
  else none

def Alphabet.hasSymbol (a : Alphabet) (x : UInt8) : Bool :=
  (a.value? x).isSome

/-! ### Writing -/

/-- The six-bit numbers that bytes are cut into. -/
def sextets : Bytes → List Nat
  | [] => []
  | [x] => [x.toNat / 4, x.toNat % 4 * 16]
  | [x, y] => [x.toNat / 4, x.toNat % 4 * 16 + y.toNat / 16, y.toNat % 16 * 4]
  | x :: y :: z :: rest =>
    x.toNat / 4 :: (x.toNat % 4 * 16 + y.toNat / 16) :: (y.toNat % 16 * 4 + z.toNat / 64)
      :: z.toNat % 64 :: sextets rest

/-- Bytes written in an alphabet, without padding. -/
def encode (a : Alphabet) (b : Bytes) : String :=
  String.ofList ((sextets b).map fun n => Char.ofUInt8 (a.symbol n))

/-! ### Reading -/

/-- Whether the text must be padded to a multiple of four symbols. -/
inductive Padding where
  /-- Full, partial or no padding. -/
  | optional
  | required
deriving DecidableEq, Repr

inductive Fault where
  /-- The byte at this offset has no place there. -/
  | badByte (byte : UInt8) (offset : Nat)
  /-- One symbol alone in the last group, which holds less than a byte. -/
  | badLength
  /-- Padding is required and incomplete. -/
  | badPadding
  /-- The last symbol, at this offset, has unused bits that are not zero. -/
  | badLastSymbol (byte : UInt8) (offset : Nat)
deriving DecidableEq, Repr

def Fault.message : Fault → String
  | .badByte byte offset =>
    "Invalid byte " ++ toString byte.toNat ++ ", offset " ++ toString offset ++ "."
  | .badLength => "Encoded text cannot have a 6-bit remainder."
  | .badPadding => "Invalid padding"
  | .badLastSymbol byte offset =>
    "Invalid last symbol " ++ toString byte.toNat ++ ", offset " ++ toString offset ++ "."

def pad : UInt8 := 0x3d

/-- A text that is one byte longer than whole groups cannot be right, whatever it holds. -/
def checkLength (a : Alphabet) (text : Bytes) : Except Fault Unit :=
  if text.length % 4 = 1 then
    match text.getLast? with
    | some x =>
      if x = pad || a.hasSymbol x then .error .badLength
      else .error (.badByte x (text.length - 1))
    | none => .ok ()
  else .ok ()

/-- What follows `count` symbols is nothing, or padding that ends with the last group at the
latest. -/
def checkTail (count : Nat) (tail : Bytes) : Except Fault Unit :=
  match tail with
  | [] => .ok ()
  | x :: _ =>
    if x = pad && 2 ≤ count % 4 && tail.all (· = pad) && count % 4 + tail.length ≤ 4 then .ok ()
    else .error (.badByte x count)

/-- Required padding makes the whole text a multiple of four long. -/
def checkPadding (padding : Padding) (text : Bytes) : Except Fault Unit :=
  if padding = .required && text.length % 4 ≠ 0 then .error .badPadding else .ok ()

/-- The low bits of the last symbol that belong to no byte. -/
def unusedBits (count last : Nat) : Nat :=
  if count % 4 = 2 then last % 16
  else if count % 4 = 3 then last % 4
  else 0

/-- The unused bits of the last symbol are zero. -/
def checkLastSymbol (a : Alphabet) (symbols : Bytes) : Except Fault Unit :=
  match symbols.getLast? with
  | some x =>
    if unusedBits symbols.length ((a.value? x).getD 0) ≠ 0 then
      .error (.badLastSymbol x (symbols.length - 1))
    else .ok ()
  | none => .ok ()

/-- The bytes that six-bit numbers are put together to. -/
def join : List Nat → Bytes
  | a :: b :: c :: d :: rest =>
    UInt8.ofNat (a * 4 + b / 16) :: UInt8.ofNat (b % 16 * 16 + c / 4)
      :: UInt8.ofNat (c % 4 * 64 + d) :: join rest
  | [a, b, c] => [UInt8.ofNat (a * 4 + b / 16), UInt8.ofNat (b % 16 * 16 + c / 4)]
  | [a, b] => [UInt8.ofNat (a * 4 + b / 16)]
  | _ => []

def decode (a : Alphabet) (padding : Padding) (s : String) : Except Fault Bytes := do
  let text := Bytes.ofString s
  checkLength a text
  let symbols := text.takeWhile a.hasSymbol
  checkTail symbols.length (text.dropWhile a.hasSymbol)
  checkPadding padding text
  checkLastSymbol a symbols
  return join (symbols.filterMap a.value?)

end DidToken.Text.Base64
