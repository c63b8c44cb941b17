import DidToken.Text.Hex
import DidToken.Json.Value
/-!
# Reading JSON

A reader takes what it reads off the front of a byte string and gives back the rest, or reports the
first problem from left to right. This module holds the readers that all others are put together
from: blanks, words, strings, and the loops over the items of an array and the members of an object.

Strings are checked in full when they are kept (`text`), and only for their escapes when they are
passed over (`skipText`).
-/

namespace DidToken.Json

inductive Fault where
  | truncated
  | malformed
  /-- The text is JSON of another shape than the one asked for. -/
  | mismatch
deriving DecidableEq, Repr

/-- Reads an `α` off the front of a byte string. -/
abbrev Reader (α : Type) := StateT Bytes (Except Fault) α

/-! ### Single bytes -/

/-- Blanks are the space, the tab and the two line ends. -/
def isBlank (x : UInt8) : Bool :=
  x = 0x20 || x = 0x09 || x = 0x0a || x = 0x0d

def skipBlanks : Reader Unit :=
  fun b => .ok ((), b.dropWhile isBlank)

def byte : Reader UInt8
  | [] => .error .truncated
  | x :: rest => .ok (x, rest)

/-- The next byte, which is left in place. -/
def peek : Reader UInt8
  | [] => .error .truncated
  | x :: rest => .ok (x, x :: rest)

/-- The next byte that is not blank. -/
def mark : Reader UInt8 := do
  skipBlanks
  byte

/-- The next byte that is not blank, which is left in place. -/
def peekMark : Reader UInt8 := do
  skipBlanks
  peek

def expect (x : UInt8) : Reader Unit := do
  let y ← byte
  if y = x then return () else throw .malformed

def expectAll : Bytes → Reader Unit
  | [] => return ()
  | x :: rest => do
    expect x
    expectAll rest

/-- The colon between the name and the value of a member. -/
def colon : Reader Unit := do
  let x ← mark
  if x = 0x3a then return () else throw .malformed

/-! ### Loops -/

/-- What a round of a loop leads to: another round from a state, or a result. -/
inductive Round (σ α : Type) where
  | again (state : σ)
  | done (result : α)

/-- At most `count` rounds. -/
def rounds {σ α : Type} (round : σ → Reader (Round σ α)) : (count : Nat) → σ → Reader α
  | 0, _ => throw .truncated
  | n + 1, s => do
    match ← round s with
    | .again t => rounds round n t
    | .done a => return a

/-- Rounds until one gives a result. Each takes at least a byte, so one more than there are bytes
suffices. -/
def loop {σ α : Type} (round : σ → Reader (Round σ α)) (start : σ) : Reader α :=
  fun b => rounds round (b.length + 1) start b

/-- Each round that asks for another one takes at least a byte. -/
def Progresses {σ α : Type} (round : σ → Reader (Round σ α)) : Prop :=
  ∀ s b t rest, round s b = .ok (.again t, rest) → rest.length < b.length

theorem rounds_succ {σ α : Type} (round : σ → Reader (Round σ α)) (n : Nat) (s : σ) (b : Bytes) :
    rounds round (n + 1) s b =
      match round s b with
      | .error e => .error e
      | .ok (.again t, rest) => rounds round n t rest
      | .ok (.done a, rest) => .ok (a, rest) := by
  rw [rounds]
  show Except.bind (round s b) _ = _
  cases round s b with
  | error e => rfl
  | ok r =>
    obtain ⟨r, rest⟩ := r
    cases r <;> rfl

/-- Any number of rounds above the number of bytes gives the same result. -/
theorem rounds_eq_loop {σ α : Type} {round : σ → Reader (Round σ α)} (h : Progresses round)
    {n : Nat} {s : σ} {b : Bytes} (hn : b.length < n) : rounds round n s b = loop round s b := by
  suffices ∀ k n m (s : σ) (b : Bytes), b.length < n → b.length < m → n ≤ k →
      rounds round n s b = rounds round m s b from
    this _ _ _ _ _ hn (Nat.lt_succ_self _) (Nat.le_refl _)
  intro k
  induction k with
  | zero =>
    intro n m s b hn _ hk
    omega
  | succ k ih =>
    intro n m s b hn hm hk
    obtain ⟨n, rfl⟩ := Nat.exists_eq_succ_of_ne_zero (Nat.ne_zero_of_lt hn)
    obtain ⟨m, rfl⟩ := Nat.exists_eq_succ_of_ne_zero (Nat.ne_zero_of_lt hm)
    rw [Nat.succ_eq_add_one, Nat.succ_eq_add_one, rounds_succ, rounds_succ]
    match hr : round s b with
    | .error e => rfl
    | .ok (.done a, rest) => rfl
    | .ok (.again t, rest) =>
      -- the rest is shorter, so both counts still exceed it
      have := h s b t rest hr
      exact ih n m t rest (by omega) (by omega) (by omega)

/-- A loop is its first round and then the same loop on the rest: the count of rounds does not
show. -/
theorem loop_eq {σ α : Type} {round : σ → Reader (Round σ α)} (h : Progresses round) (s : σ)
    (b : Bytes) :
    loop round s b =
      match round s b with
      | .error e => .error e
      | .ok (.again t, rest) => loop round t rest
      | .ok (.done a, rest) => .ok (a, rest) := by
  rw [loop, rounds_succ]
  match hr : round s b with
  | .error e => rfl
  | .ok (.done a, rest) => rfl
  | .ok (.again t, rest) => exact rounds_eq_loop h (h s b t rest hr)

/-! ### Strings -/

def quoteByte : UInt8 := 0x22

def backslash : UInt8 := 0x5c

/-- The byte that a letter after a backslash stands for. -/
def unescape? (x : UInt8) : Option UInt8 :=
  if x = quoteByte || x = backslash || x = 0x2f then some x
  else if x = 0x62 then some 0x08
  else if x = 0x66 then some 0x0c
  else if x = 0x6e then some 0x0a
  else if x = 0x72 then some 0x0d
  else if x = 0x74 then some 0x09
  else none

def codeUnit : Reader Nat
  | a :: b :: c :: d :: rest =>
    match [a, b, c, d].mapM Text.Hex.value? with
    | some digits => .ok (digits.foldl (fun n v => 16 * n + v) 0, rest)
    | none => .error .malformed
  | _ => .error .truncated

/-- Whether a number is the first half of a pair of surrogates. -/
def isLead (n : Nat) : Bool :=
  0xd800 ≤ n && n ≤ 0xdbff

/-- Whether a number is the second half of a pair of surrogates. -/
def isTrail (n : Nat) : Bool :=
  0xdc00 ≤ n && n ≤ 0xdfff

/-- The character whose number follows `\u`. One beyond the basic plane takes a pair of surrogates;
half a pair stands for nothing. -/
def codePoint : Reader Char := do
  let n ← codeUnit
  if isTrail n then throw .malformed
  else if isLead n then
    expect backslash
    expect 0x75
    let m ← codeUnit
    if isTrail m then return Char.ofNat (0x10000 + (n - 0xd800) * 0x400 + (m - 0xdc00))
    else throw .malformed
  else return Char.ofNat n

/-- The bytes that an escape stands for, after its backslash. -/
def escaped : Reader Bytes := do
  let x ← byte
  if x = 0x75 then
    let c ← codePoint
    return Bytes.ofString c.toString
  else match unescape? x with
    | some y => return [y]
    | none => throw .malformed

/-- The next part of a string, whose bytes so far are given last byte first. At the closing quote the
bytes must be UTF-8. -/
def textRound (done : Bytes) : Reader (Round Bytes String) := do
  let x ← byte
  if x = quoteByte then
    match Bytes.toString? done.reverse with
    | some s => return .done s
    | none => throw .malformed
  else if x = backslash then
    let e ← escaped
    return .again (e.reverse ++ done)
  else if x < 0x20 then throw .malformed
  else return .again (x :: done)

/-- A string after its opening quote. -/
def text : Reader String :=
  loop textRound []

/-- Passes over an escape after its backslash. -/
def skipEscaped : Reader Unit := do
  let x ← byte
  if x = 0x75 then
    let _ ← codeUnit
    return ()
  else if (unescape? x).isSome then return ()
  else throw .malformed

/-- Passes over the next part of a string. -/
def skipTextRound : Unit → Reader (Round Unit Unit) := fun _ => do
  let x ← byte
  if x = quoteByte then return .done ()
  else if x = backslash then
    skipEscaped
    return .again ()
  else if x < 0x20 then throw .malformed
  else return .again ()

def skipText : Reader Unit :=
  loop skipTextRound ()

/-! ### Arrays and objects -/

/-- An item and what follows it, after items given last one first. -/
def itemsRound {α : Type} (item : Reader α) (done : List α) :
    Reader (Round (List α) (List α)) := do
  let v ← item
  let x ← mark
  if x = 0x2c then return .again (v :: done)
  else if x = 0x5d then return .done (v :: done).reverse
  else throw .malformed

/-- The items of an array after its opening bracket. -/
def items {α : Type} (item : Reader α) : Reader (List α) := do
  let x ← peekMark
  if x = 0x5d then
    let _ ← byte
    return []
  else loop (itemsRound item) []

/-- A member and what follows it. -/
def membersRound {σ : Type} (member : σ → Reader σ) (s : σ) : Reader (Round σ σ) := do
  let x ← mark
  if x = quoteByte then
    let t ← member s
    let y ← mark
    if y = 0x2c then return .again t
    else if y = 0x7d then return .done t
    else throw .malformed
  else throw .malformed

/-- The members of an object after its opening brace: `member` reads one from after the opening quote
of its name and brings it into the state. -/
def members {σ : Type} (member : σ → Reader σ) (start : σ) : Reader σ := do
  let x ← peekMark
  if x = 0x7d then
    let _ ← byte
    return start
  else loop (membersRound member) start

/-! ### Whole texts -/

/-- What a whole text holds: nothing but blanks may follow. -/
def whole {α : Type} (reader : Reader α) (b : Bytes) : Except Fault α := do
  let (a, rest) ← reader b
  if rest.all isBlank then return a else throw .malformed

end DidToken.Json
