import DidToken.Bytes
/-!
# Keccak-256

The sponge over the permutation Keccak-f[1600] with a rate of 136 bytes, in its first form: the
padding is one bit, zeros, and one bit. A digest has 32 bytes (`length_digest`).
-/

namespace DidToken.Hash.Keccak256

/-- Five by five lanes of 64 bits; the lane in column `x` and row `y` has the index `x + 5 * y`. -/
abbrev State := Vector UInt64 25

/-- The lane in a column and a row, both counted in a circle. -/
def lane (s : State) (x y : Nat) : UInt64 :=
  s.get ⟨x % 5 + 5 * (y % 5), by omega⟩

/-- A state made lane by lane from column and row. -/
def ofLanes (f : Nat → Nat → UInt64) : State :=
  Vector.ofFn fun i => f (i.val % 5) (i.val / 5)

def rotations : Vector UInt64 25 :=
  #v[0, 1, 62, 28, 27, 36, 44, 6, 55, 20, 3, 10, 43, 25, 39, 41, 45, 15, 21, 8, 18, 2, 61, 56, 14]

/-- One constant for each round. -/
def constants : List UInt64 :=
  [0x0000000000000001, 0x0000000000008082, 0x800000000000808a, 0x8000000080008000,
   0x000000000000808b, 0x0000000080000001, 0x8000000080008081, 0x8000000000008009,
   0x000000000000008a, 0x0000000000000088, 0x0000000080008009, 0x000000008000000a,
   0x000000008000808b, 0x800000000000008b, 0x8000000000008089, 0x8000000000008003,
   0x8000000000008002, 0x8000000000000080, 0x000000000000800a, 0x800000008000000a,
   0x8000000080008081, 0x8000000000008080, 0x0000000080000001, 0x8000000080008008]

/-- A lane with its bits moved to the left in a circle. -/
def rotate (x count : UInt64) : UInt64 :=
  if count = 0 then x else x <<< count ||| x >>> (64 - count)

/-! ### The permutation -/

def parity (s : State) (x : Nat) : UInt64 :=
  lane s x 0 ^^^ lane s x 1 ^^^ lane s x 2 ^^^ lane s x 3 ^^^ lane s x 4

/-- Each lane takes in the parities of two columns beside its own. -/
def mixColumns (s : State) : State :=
  ofLanes fun x y => lane s x y ^^^ parity s (x + 4) ^^^ rotate (parity s (x + 1)) 1

/-- Each lane is rotated and moved to another place. -/
def moveLanes (s : State) : State :=
  ofLanes fun x y => rotate (lane s (x + 3 * y) x) (lane rotations (x + 3 * y) x)

/-- Each lane takes in a product of the two lanes after it in its row. -/
def mixRows (s : State) : State :=
  ofLanes fun x y => lane s x y ^^^ (~~~lane s (x + 1) y &&& lane s (x + 2) y)

/-- A round with its constant, which goes into the first lane. -/
def round (s : State) (constant : UInt64) : State :=
  let t := mixRows (moveLanes (mixColumns s))
  t.set 0 (t[0] ^^^ constant)

def permute (s : State) : State :=
  constants.foldl round s

/-! ### The sponge -/

def rate : Nat := 136

def pad (message : Bytes) : Bytes :=
  let missing := rate - message.length % rate
  if missing = 1 then message ++ [0x81]
  else message ++ 0x01 :: List.replicate (missing - 2) 0 ++ [0x80]

/-- The lanes that bytes form in groups of eight, low byte first. -/
def lanes : Bytes → List UInt64
  | a :: b :: c :: d :: e :: f :: g :: h :: rest =>
    UInt64.ofNat (Bytes.toNat [h, g, f, e, d, c, b, a]) :: lanes rest
  | _ => []

def takeIn (s : State) (block : List UInt64) : State :=
  Vector.ofFn fun i => s[i] ^^^ block.getD i.val 0

def absorb (s : State) (message : Bytes) : State :=
  if message.length < rate then s
  else absorb (permute (takeIn s (lanes (message.take rate)))) (message.drop rate)
termination_by message.length
decreasing_by simp only [rate, List.length_drop] at *; omega

def squeeze (s : State) : Bytes :=
  [s[0], s[1], s[2], s[3]].flatMap fun w => (Bytes.ofNat 8 w.toNat).reverse

def digest (message : Bytes) : Bytes :=
  squeeze (absorb (Vector.replicate 25 0) (pad message))

@[simp] theorem length_digest (message : Bytes) : (digest message).length = 32 := by
  simp [digest, squeeze]

end DidToken.Hash.Keccak256
