import DidToken.Bytes
/-!
# SHA-256 and HMAC

The padded message is cut into blocks of sixteen words, and each block is compressed into a chaining
state of eight words. A digest has 32 bytes (`length_digest`). The keyed hash is made of two rounds of
this one: the message is hashed behind one form of the key, and the digest behind another.
-/

namespace DidToken.Hash.Sha256

structure State where
  a : UInt32
  b : UInt32
  c : UInt32
  d : UInt32
  e : UInt32
  f : UInt32
  g : UInt32
  h : UInt32

def initial : State where
  a := 0x6a09e667
  b := 0xbb67ae85
  c := 0x3c6ef372
  d := 0xa54ff53a
  e := 0x510e527f
  f := 0x9b05688c
  g := 0x1f83d9ab
  h := 0x5be0cd19

/-- One constant for each round. -/
def constants : List UInt32 :=
  [0x428a2f98, 0x71374491, 0xb5c0fbcf, 0xe9b5dba5, 0x3956c25b, 0x59f111f1, 0x923f82a4, 0xab1c5ed5,
   0xd807aa98, 0x12835b01, 0x243185be, 0x550c7dc3, 0x72be5d74, 0x80deb1fe, 0x9bdc06a7, 0xc19bf174,
   0xe49b69c1, 0xefbe4786, 0x0fc19dc6, 0x240ca1cc, 0x2de92c6f, 0x4a7484aa, 0x5cb0a9dc, 0x76f988da,
   0x983e5152, 0xa831c66d, 0xb00327c8, 0xbf597fc7, 0xc6e00bf3, 0xd5a79147, 0x06ca6351, 0x14292967,
   0x27b70a85, 0x2e1b2138, 0x4d2c6dfc, 0x53380d13, 0x650a7354, 0x766a0abb, 0x81c2c92e, 0x92722c85,
   0xa2bfe8a1, 0xa81a664b, 0xc24b8b70, 0xc76c51a3, 0xd192e819, 0xd6990624, 0xf40e3585, 0x106aa070,
   0x19a4c116, 0x1e376c08, 0x2748774c, 0x34b0bcb5, 0x391c0cb3, 0x4ed8aa4a, 0x5b9cca4f, 0x682e6ff3,
   0x748f82ee, 0x78a5636f, 0x84c87814, 0x8cc70208, 0x90befffa, 0xa4506ceb, 0xbef9a3f7, 0xc67178f2]

/-- A word with its bits moved to the right in a circle. -/
def rotate (x count : UInt32) : UInt32 :=
  x >>> count ||| x <<< (32 - count)

/-! ### The message schedule -/

/-- The next word of the schedule, after words given last one first. -/
def nextWord (words : List UInt32) : UInt32 :=
  let x := words.getD 14 0
  let y := words.getD 1 0
  words.getD 15 0 + (rotate x 7 ^^^ rotate x 18 ^^^ x >>> 3)
    + words.getD 6 0 + (rotate y 17 ^^^ rotate y 19 ^^^ y >>> 10)

/-- So many more words of the schedule, last one first. -/
def extend : (count : Nat) → List UInt32 → List UInt32
  | 0, words => words
  | n + 1, words => extend n (nextWord words :: words)

/-- The words of a block, one for each round. -/
def schedule (block : List UInt32) : List UInt32 :=
  (extend 48 block.reverse).reverse

/-! ### Compression -/

def round (s : State) (input : UInt32 × UInt32) : State :=
  let big := rotate s.e 6 ^^^ rotate s.e 11 ^^^ rotate s.e 25
  let choice := (s.e &&& s.f) ^^^ (~~~s.e &&& s.g)
  let first := s.h + big + choice + input.1 + input.2
  let small := rotate s.a 2 ^^^ rotate s.a 13 ^^^ rotate s.a 22
  let majority := (s.a &&& s.b) ^^^ (s.a &&& s.c) ^^^ (s.b &&& s.c)
  ⟨first + (small + majority), s.a, s.b, s.c, s.d + first, s.e, s.f, s.g⟩

def compress (s : State) (block : List UInt32) : State :=
  let t := (constants.zip (schedule block)).foldl round s
  ⟨s.a + t.a, s.b + t.b, s.c + t.c, s.d + t.d, s.e + t.e, s.f + t.f, s.g + t.g, s.h + t.h⟩

def absorb (s : State) (words : List UInt32) : State :=
  if words.length < 16 then s else absorb (compress s (words.take 16)) (words.drop 16)
termination_by words.length

/-! ### The hash -/

/-- The message, a one bit, zeros up to eight bytes before the end of a block, and the length of the
message in bits. -/
def pad (message : Bytes) : Bytes :=
  let zeros := (119 - message.length % 64) % 64
  message ++ 0x80 :: List.replicate zeros 0 ++ Bytes.ofNat 8 (8 * message.length)

def words : Bytes → List UInt32
  | a :: b :: c :: d :: rest => UInt32.ofNat (Bytes.toNat [a, b, c, d]) :: words rest
  | _ => []

def State.toBytes (s : State) : Bytes :=
  [s.a, s.b, s.c, s.d, s.e, s.f, s.g, s.h].flatMap fun w => Bytes.ofNat 4 w.toNat

def digest (message : Bytes) : Bytes :=
  (absorb initial (words (pad message))).toBytes

@[simp] theorem length_toBytes (s : State) : s.toBytes.length = 32 := by
  simp [State.toBytes]

@[simp] theorem length_digest (message : Bytes) : (digest message).length = 32 :=
  length_toBytes _

end DidToken.Hash.Sha256

namespace DidToken.Hash.Hmac

def blockSize : Nat := 64

/-- A key filled up with zeros to a block. A key longer than a block is hashed first. -/
def blockOfKey (key : Bytes) : Bytes :=
  let short := if key.length ≤ blockSize then key else Sha256.digest key
  short ++ List.replicate (blockSize - short.length) 0

/-- The authentication code of a message under a key. -/
def code (key message : Bytes) : Bytes :=
  let block := blockOfKey key
  let inner := Sha256.digest (block.map (· ^^^ 0x36) ++ message)
  Sha256.digest (block.map (· ^^^ 0x5c) ++ inner)

@[simp] theorem length_code (key message : Bytes) : (code key message).length = 32 :=
  Sha256.length_digest _

end DidToken.Hash.Hmac
