import DidToken.Proofs.Signature
/-!
# Signatures as bytes

Bytes are those of a signature without its recovery id, those of one with it, or have a length that no
signature has (`form`). Each form is read in its own way, so that what the bytes of a signature are read as, and
what the bytes of all that is read are, comes down to one case for each form (`ofBytes_faithful`). Reading never
leaves the bytes, nor does it take the offset from a byte that is less (`ofBytesInRange_eq`).
-/

namespace DidToken.Signature

/-! ### Forms -/

/-- The forms of bytes, each of which is read in its own way. -/
inductive Form : Bytes → Prop
  | plain (a : Signature) : Form (a.toBytes false)
  | withId (a : Signature) : Form (a.toBytes true)
  | other {b : Bytes} (h64 : b.length ≠ 64) (h65 : b.length ≠ 65) : Form b

theorem form (b : Bytes) : Form b := by
  by_cases h64 : b.length = 64
  · obtain ⟨r, s, hb⟩ := exists_toBytes_eq h64
    exact (hb 0).1 ▸ .plain _
  · by_cases h65 : b.length = 65
    · obtain ⟨a, rfl⟩ := exists_toBytes_withId_eq h65
      exact .withId a
    · exact .other h64 h65

variable (a : Signature)

theorem getElem?_toBytes_plain : (a.toBytes false)[64]? = none := by
  rw [List.getElem?_eq_none_iff, length_toBytes]
  exact Nat.le_refl 64

theorem getElem?_toBytes_withId : (a.toBytes true)[64]? = some a.recoveryId := by
  rw [← List.head?_drop, (words_toBytes a true).2.2]
  rfl

theorem toBytes_withId : a.toBytes true = a.toBytes false ++ [a.recoveryId] := by
  rw [toBytes, toBytes, if_pos rfl, if_neg Bool.false_ne_true, List.append_nil]

/-- Without the recovery id, the bytes are the first 64 of those with it. -/
theorem take_toBytes (withId : Bool) : (a.toBytes withId).take 64 = a.toBytes false := by
  have hlength : (a.toBytes false).length = 64 := length_toBytes a false
  cases withId with
  | false => exact List.take_of_length_le (Nat.le_of_eq hlength)
  | true => rw [toBytes_withId, List.take_left' hlength]

/-- To change the last byte is to change the recovery id. -/
theorem modify_toBytes (f : UInt8 → UInt8) :
    (a.toBytes true).modify 64 f = toBytes { a with recoveryId := f a.recoveryId } true := by
  rw [List.modify_eq_take_drop, take_toBytes, (words_toBytes a true).2.2, toBytes_withId]
  rfl

/-! ### In range -/

/-- A slice of some bytes; none if it reaches beyond them. -/
def slice? (b : Bytes) (start stop : Nat) : Option Bytes :=
  if start ≤ stop ∧ stop ≤ b.length then some ((b.drop start).take (stop - start)) else none

/-- The number copied from a slice; none if there is no such slice, or if it has another length. -/
def word? (b : Bytes) (start stop : Nat) : Option (BitVec 256) := do
  let slice ← slice? b start stop
  if slice.length = 32 then some (BitVec.ofNat 256 (Bytes.toNat slice)) else none

/-- The signatures that bytes may stand for, by slices and a difference; none if one of these is out of
range. -/
def ofBytesInRange (b : Bytes) : Option (Except Fault (List Signature)) :=
  if b.length ≠ 64 ∧ b.length ≠ 65 then some (.error (.length b.length))
  else do
    let r ← word? b 0 32
    let s ← word? b 32 64
    match b[64]? with
    | some v =>
      if idOffset ≤ v then
        let id ← difference? v idOffset
        return .ok [⟨r, s, id⟩]
      else return .ok [⟨r, s, v⟩]
    | none => return .ok [⟨r, s, 0⟩, ⟨r, s, 1⟩]

theorem word?_eq_some {b : Bytes} {start stop : Nat} {x : BitVec 256}
    (hrange : start ≤ stop ∧ stop ≤ b.length)
    (hslice : (b.drop start).take (stop - start) = word x) : word? b start stop = some x := by
  rw [word?, slice?, if_pos hrange, hslice, Option.bind_eq_bind, Option.bind_some, if_pos (length_word x),
    word_ofNat]

theorem word?_toBytes (withId : Bool) :
    word? (a.toBytes withId) 0 32 = some a.r ∧ word? (a.toBytes withId) 32 64 = some a.s := by
  obtain ⟨hr, hs, -⟩ := words_toBytes a withId
  have hlength : 64 ≤ (a.toBytes withId).length := by
    rw [length_toBytes]
    split <;> omega
  exact ⟨word?_eq_some ⟨by omega, by omega⟩ hr, word?_eq_some ⟨by omega, hlength⟩ hs⟩

variable {a} {b : Bytes} {candidates : List Signature}

/-- Nothing is out of range in any bytes. -/
theorem ofBytesInRange_eq (b : Bytes) : ofBytesInRange b = some (ofBytes b) := by
  cases form b with
  | plain a =>
    obtain ⟨hr, hs⟩ := word?_toBytes a false
    rw [ofBytesInRange, if_neg fun h => h.1 (length_toBytes a false), hr, hs, getElem?_toBytes_plain,
      ofBytes_toBytes_plain]
    rfl
  | withId a =>
    obtain ⟨hr, hs⟩ := word?_toBytes a true
    rw [ofBytesInRange, if_neg fun h => h.2 (length_toBytes a true), hr, hs, getElem?_toBytes_withId,
      ofBytes_toBytes_withId]
    show (if idOffset ≤ a.recoveryId then _ else _)
      = some (Except.ok [{ a with recoveryId := readId a.recoveryId }])
    rw [readId]
    split
    · next hoffset =>
      rw [difference?_of_le hoffset]
      rfl
    · rfl
  | other h64 h65 => rw [ofBytesInRange, if_pos ⟨h64, h65⟩, ofBytes_eq_error h64 h65]

/-! ### What is read -/

theorem exists_ofBytes_iff :
    (∃ candidates, ofBytes b = .ok candidates) ↔ b.length = 64 ∨ b.length = 65 := by
  cases form b with
  | plain a => exact ⟨fun _ => .inl (length_toBytes a false), fun _ => ⟨_, ofBytes_toBytes_plain a⟩⟩
  | withId a => exact ⟨fun _ => .inr (length_toBytes a true), fun _ => ⟨_, ofBytes_toBytes_withId a⟩⟩
  | other h64 h65 =>
    rw [ofBytes_eq_error h64 h65]
    exact ⟨fun ⟨_, h⟩ => (nomatch h), fun h => (h.elim h64 h65).elim⟩

/-- All that bytes are read as has the same numbers. -/
theorem toBytes_of_ofBytes (h : ofBytes b = .ok candidates) (ha : a ∈ candidates) :
    a.toBytes false = b.take 64 := by
  cases form b with
  | plain whole =>
    rw [ofBytes_toBytes_plain] at h
    cases h
    rw [take_toBytes]
    rcases List.mem_cons.mp ha with rfl | ha
    · rfl
    · rw [List.mem_singleton.mp ha]
      rfl
  | withId whole =>
    rw [ofBytes_toBytes_withId] at h
    cases h
    rw [take_toBytes, List.mem_singleton.mp ha]
    rfl
  | other h64 h65 =>
    rw [ofBytes_eq_error h64 h65] at h
    cases h

/-- 65 bytes of which the last is less than the offset. -/
structure IsRecoverable (b : Bytes) : Prop where
  length : b.length = 65
  id_lt : ∀ v, b[64]? = some v → v < 27

theorem isRecoverable_toBytes (h : a.recoveryId < 27) : IsRecoverable (a.toBytes true) where
  length := length_toBytes a true
  id_lt v hv := by
    rw [getElem?_toBytes_withId] at hv
    cases hv
    exact h

/-- Nothing of recoverable bytes is lost in what they are read as. -/
theorem IsRecoverable.toBytes (hb : IsRecoverable b) (h : ofBytes b = .ok candidates) (ha : a ∈ candidates) :
    a.toBytes true = b := by
  obtain ⟨whole, rfl⟩ := exists_toBytes_withId_eq hb.length
  have hid : whole.recoveryId < 27 := hb.id_lt _ (getElem?_toBytes_withId whole)
  rw [ofBytes_toBytes_recoverable hid] at h
  cases h
  rw [List.mem_singleton.mp ha]

/-- The bytes of a signature with a recovery id below the offset are read as that signature alone, and so are
those with the offset added to the last byte; without the recovery id, they are read as the signatures with
the ids 0 and 1. Bytes are read exactly if there are 64 or 65 of them, and never out of their range. Whatever is read
has the first 64 of the bytes for its own, and all of them if the last of 65 is below the offset: no two strings
of such bytes are read as the same. -/
theorem ofBytes_faithful :
    (∀ a : Signature, a.recoveryId < 27 → ofBytes (a.toBytes true) = .ok [a]
      ∧ ofBytes ((a.toBytes true).modify 64 (· + 27)) = .ok [a])
    ∧ (∀ a : Signature, ofBytes (a.toBytes false) = .ok [⟨a.r, a.s, 0⟩, ⟨a.r, a.s, 1⟩])
    ∧ (∀ b, ((∃ candidates, ofBytes b = .ok candidates) ↔ b.length = 64 ∨ b.length = 65)
      ∧ ofBytesInRange b = some (ofBytes b)
      ∧ ∀ candidates, ofBytes b = .ok candidates → ∀ a ∈ candidates,
        a.toBytes false = b.take 64 ∧ (IsRecoverable b → a.toBytes true = b))
    ∧ ∀ b c candidates others, IsRecoverable b → IsRecoverable c → ofBytes b = .ok candidates →
      ofBytes c = .ok others → ∀ a ∈ candidates, a ∈ others → b = c := by
  refine ⟨fun a hid => ⟨ofBytes_toBytes_recoverable hid, ?_⟩, ofBytes_toBytes_plain, fun b => ?_,
    fun b c candidates others hb hc hread hread' a ha ha' => ?_⟩
  · rw [modify_toBytes, ofBytes_toBytes_withId]
    simp only [readId_add_offset hid]
  · exact ⟨exists_ofBytes_iff, ofBytesInRange_eq b, fun candidates h a ha =>
      ⟨toBytes_of_ofBytes h ha, fun hb => hb.toBytes h ha⟩⟩
  · rw [← hb.toBytes hread ha, hc.toBytes hread' ha']

/-- The largest recovery id below the offset, and other bytes for the same numbers. -/
theorem ofBytes_faithful_last :
    let a : Signature := ⟨1, 2, 26⟩
    let b := a.toBytes true
    let other := toBytes { a with recoveryId := 25 } true
    a.recoveryId < 27 ∧ ofBytes b = .ok [a] ∧ ofBytes (b.modify 64 (· + 27)) = .ok [a]
      ∧ IsRecoverable b ∧ a.toBytes false = b.take 64 ∧ a.toBytes true = b
      ∧ IsRecoverable other ∧ other ≠ b ∧ ofBytes other ≠ .ok [a] := by
  intro a b other
  have hid : a.recoveryId < 27 := by decide
  have hb : IsRecoverable b := isRecoverable_toBytes hid
  have hother : IsRecoverable other := isRecoverable_toBytes (by decide)
  have hne : other ≠ b := by decide
  obtain ⟨hown, -, hall, hunique⟩ := ofBytes_faithful
  obtain ⟨hread, hraised⟩ := hown a hid
  obtain ⟨-, -, hwritten⟩ := hall b
  have ha : a ∈ [a] := List.mem_singleton_self a
  obtain ⟨hnumbers, hwhole⟩ := hwritten [a] hread a ha
  exact ⟨hid, hread, hraised, hb, hnumbers, hwhole hb, hother, hne, fun hread' =>
    hne (hunique other b [a] [a] hother hb hread' hread a ha ha)⟩

end DidToken.Signature
