import DidToken.Proofs.Bytes
import DidToken.Proofs.Checks
import DidToken.Signature
/-!
# Signatures and their bytes

Bytes stand for signatures whose numbers are their first two words (`ofBytes_eq_ok`), and a signature is
among those that its bytes stand for. A signature is used in its form with the smaller `s`
(`normalize_eq_ok`). Recovering a key from a signature ends with a check of the signature under that key
(`verify_of_recover?`).
-/

namespace DidToken

open Secp256k1

/-- The smaller of the two values that `s` may have. -/
def Secp256k1.Scalar.low (s : Scalar) : Scalar :=
  if s.isHigh then -s else s

namespace Signature

/-! ### Use -/

theorem ofNat?_eq_some {k : Nat} {x : Scalar} (h : Scalar.ofNat? k = some x) : x ≠ 0 ∧ x.val = k := by
  rw [Scalar.ofNat?] at h
  split at h
  · next hk =>
    cases h
    exact ⟨Scalar.mk_ne_zero hk.1 hk.2, rfl⟩
  · cases h

theorem lower_eq (a : Ecdsa.Signed) :
    a.lower = ⟨a.r, a.s.low, if a.s.isHigh then a.recoveryId.opposite else a.recoveryId⟩ := by
  rw [Ecdsa.Signed.lower, Scalar.low]
  split <;> rfl

theorem lower_r (a : Ecdsa.Signed) : a.lower.r = a.r := by
  rw [lower_eq]

theorem lower_s (a : Ecdsa.Signed) : a.lower.s = a.s.low := by
  rw [lower_eq]

/-- Before its numbers are looked at, only the recovery id of a signature counts. -/
theorem normalize_eq {a : Signature} {id : RecoveryId}
    (hid : RecoveryId.ofUInt8? a.recoveryId = some id) :
    a.normalize = match Scalar.ofNat? a.r.toNat, Scalar.ofNat? a.s.toNat with
      | some r, some s => .ok (Ecdsa.Signed.lower ⟨r, s, id⟩)
      | _, _ => .error .invalid := by
  rw [normalize, hid]
  cases Scalar.ofNat? a.r.toNat with
  | none => rfl
  | some r =>
    cases Scalar.ofNat? a.s.toNat with
    | none => rfl
    | some s => rfl

/-- A signature is used if its numbers are scalars other than zero and its recovery id is one. -/
theorem normalize_eq_ok_iff {a : Signature} {n : Ecdsa.Signed} :
    a.normalize = .ok n ↔
      ∃ r s id, Scalar.ofNat? a.r.toNat = some r ∧ Scalar.ofNat? a.s.toNat = some s
        ∧ RecoveryId.ofUInt8? a.recoveryId = some id ∧ n = Ecdsa.Signed.lower ⟨r, s, id⟩ := by
  constructor
  · intro h
    rw [normalize] at h
    split at h
    · next r s hr hs =>
      split at h
      · next id hid =>
        cases h
        exact ⟨r, s, id, hr, hs, hid, rfl⟩
      · cases h
    · cases h
  · rintro ⟨r, s, id, hr, hs, hid, rfl⟩
    rw [normalize_eq hid, hr, hs]

theorem normalize_eq_ok {a : Signature} {n : Ecdsa.Signed} (h : a.normalize = .ok n) :
    ∃ s : Scalar, n.r ≠ 0 ∧ s ≠ 0 ∧ n.r.val = a.r.toNat ∧ s.val = a.s.toNat ∧ n.s = s.low := by
  obtain ⟨r, s, id, hr, hs, -, rfl⟩ := normalize_eq_ok_iff.mp h
  obtain ⟨hr0, hrv⟩ := ofNat?_eq_some hr
  obtain ⟨hs0, hsv⟩ := ofNat?_eq_some hs
  rw [lower_r, lower_s]
  exact ⟨s, hr0, hs0, hrv, hsv, rfl⟩

/-- A signature is used only with a recovery id that is one. -/
theorem recoveryId_le_of_normalize {a : Signature} {n : Ecdsa.Signed} (h : a.normalize = .ok n) :
    a.recoveryId ≤ 3 := by
  obtain ⟨-, -, id, -, -, hid, -⟩ := normalize_eq_ok_iff.mp h
  rw [RecoveryId.ofUInt8?] at hid
  split at hid
  · assumption
  · cases hid

/-- A key is only recovered if the signature verifies under it. -/
theorem verify_of_recover? {z : Scalar} {a : Ecdsa.Signed} {key : PublicKey}
    (h : Ecdsa.recover? z a = some key) : Ecdsa.verify key z a.r a.s = true := by
  rw [Ecdsa.recover?] at h
  obtain ⟨nonce, -, h⟩ := Option.bind_eq_some_iff.mp h
  obtain ⟨found, -, h⟩ := Option.bind_eq_some_iff.mp h
  split at h
  · next hverify =>
    cases h
    exact hverify
  · cases h

theorem recoverAddress_eq_ok_iff {a : Signature} {message : Bytes} {address : String} :
    a.recoverAddress message = .ok address ↔
      ∃ n key, a.normalize = .ok n ∧ Ecdsa.recover? (hash message) n = some key
        ∧ PublicKey.address key = address := by
  rw [recoverAddress, bind_eq_ok_iff]
  constructor
  · rintro ⟨n, hn, h⟩
    cases hkey : Ecdsa.recover? (hash message) n with
    | none => rw [hkey] at h; cases h
    | some key =>
      rw [hkey] at h
      exact ⟨n, key, hn, hkey, Except.ok.inj h⟩
  · rintro ⟨n, key, hn, hkey, rfl⟩
    refine ⟨n, hn, ?_⟩
    rw [hkey]
    rfl

/-- A signature recovers to the address of the key that is recovered from it. -/
theorem recoverAddress_of_recover? {a : Signature} {message : Bytes} {key : PublicKey}
    (h : a.normalize.toOption.bind (Ecdsa.recover? (hash message)) = some key) :
    a.recoverAddress message = .ok (PublicKey.address key) := by
  cases hn : a.normalize with
  | error e => rw [hn] at h; cases h
  | ok n =>
    rw [hn] at h
    exact recoverAddress_eq_ok_iff.mpr ⟨n, key, hn, h, rfl⟩

theorem verify_eq_ok {a : Signature} {message : Bytes} {key : PublicKey}
    (h : (a.verify message key).isOk = true) :
    ∃ n, a.normalize = .ok n ∧ Ecdsa.verify key (hash message) n.r n.s = true := by
  cases hv : a.verify message key with
  | error e => rw [hv] at h; cases h
  | ok u =>
    obtain ⟨n, hn, h⟩ := bind_eq_ok_iff.mp hv
    split at h
    · next hverify => exact ⟨n, hn, hverify⟩
    · cases h

/-! ### Reading bytes -/

theorem toNat_word {b : Bytes} (h : b.length = 32) :
    (BitVec.ofNat 256 (Bytes.toNat b)).toNat = Bytes.toNat b := by
  have hlt := Bytes.toNat_lt b
  rw [h] at hlt
  rw [BitVec.toNat_ofNat]
  exact Nat.mod_eq_of_lt hlt

theorem ofBytes_eq_ok {b : Bytes} {candidates : List Signature} (h : ofBytes b = .ok candidates) :
    (b.length = 64 ∨ b.length = 65) ∧ ∀ a ∈ candidates,
      a.r.toNat = Bytes.toNat (b.take 32) ∧ a.s.toNat = Bytes.toNat ((b.drop 32).take 32) := by
  have hlength : b.length = 64 ∨ b.length = 65 := by
    rw [ofBytes] at h
    split at h
    · next h64 => exact Or.inl h64
    · split at h
      · next h65 => exact Or.inr h65
      · cases h
  have hr : (b.take 32).length = 32 := by rw [List.length_take]; omega
  have hs : ((b.drop 32).take 32).length = 32 := by rw [List.length_take, List.length_drop]; omega
  refine ⟨hlength, fun a ha => ?_⟩
  have hnumbers : a.r = BitVec.ofNat 256 (Bytes.toNat (b.take 32))
      ∧ a.s = BitVec.ofNat 256 (Bytes.toNat ((b.drop 32).take 32)) := by
    rw [ofBytes] at h
    split at h
    · cases h
      rcases List.mem_cons.mp ha with rfl | ha
      · exact ⟨rfl, rfl⟩
      · cases List.mem_singleton.mp ha
        exact ⟨rfl, rfl⟩
    · split at h
      · cases h
        cases List.mem_singleton.mp ha
        exact ⟨rfl, rfl⟩
      · cases h
  rw [hnumbers.1, hnumbers.2, toNat_word hr, toNat_word hs]
  exact ⟨rfl, rfl⟩

/-- Bytes of any other length stand for no signatures. -/
theorem ofBytes_eq_error {b : Bytes} (h64 : b.length ≠ 64) (h65 : b.length ≠ 65) :
    ofBytes b = .error (.length b.length) := by
  rw [ofBytes]
  simp only [if_neg h64, if_neg h65]

/-! ### Reading bytes back -/

theorem word_ofNat (x : BitVec 256) : BitVec.ofNat 256 (Bytes.toNat (word x)) = x := by
  rw [word, Bytes.toNat_ofNat x.isLt, BitVec.ofNat_toNat, BitVec.setWidth_eq]

theorem word_toNat {b : Bytes} (h : b.length = 32) : word (BitVec.ofNat 256 (Bytes.toNat b)) = b := by
  rw [word, toNat_word h, ← h, Bytes.ofNat_toNat]

theorem length_word (x : BitVec 256) : (word x).length = 32 :=
  Bytes.length_ofNat 32 x.toNat

/-- The bytes of a signature fall into the words of its numbers and what follows them. -/
theorem words_toBytes (a : Signature) (withId : Bool) :
    (a.toBytes withId).take 32 = word a.r ∧ ((a.toBytes withId).drop 32).take 32 = word a.s
      ∧ (a.toBytes withId).drop 64 = if withId then [a.recoveryId] else [] := by
  have hdrop : (a.toBytes withId).drop 32 = word a.s ++ if withId then [a.recoveryId] else [] := by
    rw [toBytes, List.append_assoc, List.drop_left' (length_word a.r)]
  refine ⟨?_, ?_, ?_⟩
  · rw [toBytes, List.append_assoc, List.take_left' (length_word a.r)]
  · rw [hdrop, List.take_left' (length_word a.s)]
  · have htwice : (a.toBytes withId).drop 64 = ((a.toBytes withId).drop 32).drop 32 := by
      rw [List.drop_drop]
    rw [htwice, hdrop, List.drop_left' (length_word a.s)]

theorem length_toBytes (a : Signature) (withId : Bool) :
    (a.toBytes withId).length = if withId then 65 else 64 := by
  rw [toBytes, List.length_append, List.length_append, length_word, length_word]
  cases withId <;> rfl

/-- All strings of 64 bytes are those of signatures. -/
theorem exists_toBytes_eq {b : Bytes} (h : b.length = 64) :
    ∃ r s, ∀ v, toBytes ⟨r, s, v⟩ false = b ∧ toBytes ⟨r, s, v⟩ true = b ++ [v] := by
  have hr : (b.take 32).length = 32 := by rw [List.length_take]; omega
  have hs : (b.drop 32).length = 32 := by rw [List.length_drop]; omega
  have hwords : ∀ tail, word (BitVec.ofNat 256 (Bytes.toNat (b.take 32)))
      ++ word (BitVec.ofNat 256 (Bytes.toNat (b.drop 32))) ++ tail = b ++ tail := fun tail => by
    rw [word_toNat hr, word_toNat hs, List.take_append_drop]
  exact ⟨_, _, fun v => ⟨(hwords []).trans (List.append_nil b), hwords [v]⟩⟩

/-- All strings of 65 bytes are those of signatures with a recovery id. -/
theorem exists_toBytes_withId_eq {b : Bytes} (h : b.length = 65) : ∃ a : Signature, a.toBytes true = b := by
  have hnumbers : (b.take 64).length = 64 := by rw [List.length_take]; omega
  obtain ⟨r, s, hb⟩ := exists_toBytes_eq hnumbers
  -- one byte is left for the recovery id
  have hlast : (b.drop 64).length = 1 := by rw [List.length_drop, h]
  obtain ⟨v, hv⟩ := List.length_eq_one_iff.mp hlast
  exact ⟨⟨r, s, v⟩, by rw [(hb v).2, ← hv, List.take_append_drop]⟩

/-- The recovery id that a byte is read as. -/
def readId (v : UInt8) : UInt8 :=
  if idOffset ≤ v then v - idOffset else v

theorem ofBytes_toBytes_withId (a : Signature) :
    ofBytes (a.toBytes true) = .ok [{ a with recoveryId := readId a.recoveryId }] := by
  obtain ⟨hr, hs, htail⟩ := words_toBytes a true
  have hid : ((a.toBytes true).drop 64).headD 0 = a.recoveryId := by
    rw [htail]
    rfl
  have hlength : (a.toBytes true).length = 65 := length_toBytes a true
  rw [ofBytes]
  simp only [hr, hs, hid, hlength, word_ofNat]
  rw [if_neg (by decide), if_pos trivial]
  rfl

/-- Bytes below the offset are not changed by reading. -/
theorem readId_of_lt {v : UInt8} (h : v < 27) : readId v = v :=
  if_neg (UInt8.not_le.mpr h)

/-- The offset on a byte is taken off again. -/
theorem readId_add_offset {v : UInt8} (h : v < 27) : readId (v + 27) = v := by
  have hoffset : idOffset ≤ v + 27 := by
    simp only [idOffset, UInt8.lt_iff_toNat_lt, UInt8.le_iff_toNat_le, UInt8.toNat_add,
      UInt8.reduceToNat] at h ⊢
    omega
  rw [readId, if_pos hoffset]
  exact UInt8.add_sub_cancel v 27

theorem lt_offset_of_le {v : UInt8} (h : v ≤ 3) : v < 27 :=
  UInt8.lt_of_le_of_lt h (by decide)

/-- A byte is read as a recovery id if it is one, or one with the offset. -/
theorem readId_le_iff {v : UInt8} : readId v ≤ 3 ↔ v ≤ 3 ∨ 27 ≤ v ∧ v ≤ 30 := by
  have h27 : idOffset.toNat = 27 := rfl
  rw [readId]
  split
  · next hoffset =>
    simp only [UInt8.le_iff_toNat_le, UInt8.toNat_sub_of_le _ _ hoffset, UInt8.reduceToNat] at hoffset ⊢
    omega
  · next hoffset =>
    simp only [UInt8.le_iff_toNat_le, UInt8.reduceToNat] at hoffset ⊢
    omega

theorem ofBytes_toBytes_recoverable {a : Signature} (h : a.recoveryId < 27) :
    ofBytes (a.toBytes true) = .ok [a] := by
  rw [ofBytes_toBytes_withId, readId_of_lt h]

theorem ofBytes_toBytes_plain (a : Signature) :
    ofBytes (a.toBytes false) = .ok [⟨a.r, a.s, 0⟩, ⟨a.r, a.s, 1⟩] := by
  obtain ⟨hr, hs, -⟩ := words_toBytes a false
  have hlength : (a.toBytes false).length = 64 := length_toBytes a false
  rw [ofBytes]
  simp only [hr, hs, hlength, word_ofNat]
  rw [if_pos trivial]

theorem recoveryId_le_of_recoverAddress {a : Signature} {message : Bytes} {address : String}
    (h : a.recoverAddress message = .ok address) : a.recoveryId ≤ 3 := by
  obtain ⟨n, -, hn, -⟩ := recoverAddress_eq_ok_iff.mp h
  exact recoveryId_le_of_normalize hn

end Signature

end DidToken
