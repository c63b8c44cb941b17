import DidToken.Proofs.KeyPair
import DidToken.Proofs.Signature.RecoveryId
/-!
# Both values of `s`

A signature and its opposite, which has the other value of `s` and names the opposite nonce point, are the
same once `s` is the smaller value (`normalize_opposite`). So neither recovery nor the check under a key tells
them apart, and their bytes come from the same keys, with a recovery id, with one that has the offset, or
without one (`comesFrom_opposite`).
-/

namespace DidToken

open Secp256k1

/-! ### Scalars and recovery ids -/

namespace Secp256k1

theorem RecoveryId.exists_toUInt8_eq {v : UInt8} (h : v ≤ 3) : ∃ id : RecoveryId, id.toUInt8 = v := by
  have hcases : v = 0 ∨ v = 1 ∨ v = 2 ∨ v = 3 := by
    simp only [UInt8.le_iff_toNat_le, ← UInt8.toNat_inj, UInt8.reduceToNat] at h ⊢
    omega
  rcases hcases with rfl | rfl | rfl | rfl
  · exact ⟨⟨false, false⟩, rfl⟩
  · exact ⟨⟨true, false⟩, rfl⟩
  · exact ⟨⟨false, true⟩, rfl⟩
  · exact ⟨⟨true, true⟩, rfl⟩

/-- The opposite nonce point is named by flipping the lowest bit. -/
theorem RecoveryId.toUInt8_opposite (id : RecoveryId) : id.opposite.toUInt8 = id.toUInt8 ^^^ 1 := by
  obtain ⟨isYOdd, isXReduced⟩ := id
  cases isYOdd <;> cases isXReduced <;> rfl

theorem RecoveryId.opposite_opposite (id : RecoveryId) : id.opposite.opposite = id := by
  simp only [RecoveryId.opposite, Bool.not_not]

/-- The signature with the other value of `s`. -/
def Ecdsa.Signed.opposite (a : Ecdsa.Signed) : Ecdsa.Signed :=
  ⟨a.r, -a.s, a.recoveryId.opposite⟩

theorem Ecdsa.lower_opposite {a : Ecdsa.Signed} (h : a.s ≠ 0) : a.opposite.lower = a.lower := by
  have hhigh : a.opposite.s.isHigh = !a.s.isHigh := isHigh_neg h
  rw [Signed.lower, Signed.lower, hhigh]
  cases a.s.isHigh with
  | true => rfl
  | false =>
    show (⟨a.r, - -a.s, a.recoveryId.opposite.opposite⟩ : Signed) = a
    have hneg : - -a.s = a.s := by rw [← residue_inj, residue_neg, residue_neg, neg_neg]
    rw [hneg, RecoveryId.opposite_opposite]

end Secp256k1

namespace Signature

/-- The signature with the other value of `s`, which belongs to the opposite nonce point. -/
def opposite (a : Signature) : Signature :=
  ⟨a.r, BitVec.ofNat 256 (order - a.s.toNat), a.recoveryId ^^^ 1⟩

variable {a : Signature}

theorem toNat_opposite_s (a : Signature) : a.opposite.s.toNat = order - a.s.toNat := by
  have hlt : order - a.s.toNat < 2 ^ 256 := (Nat.sub_le ..).trans_lt (by decide)
  exact Nat.mod_eq_of_lt hlt

theorem recoveryId_opposite_le (hid : a.recoveryId ≤ 3) : a.opposite.recoveryId ≤ 3 := by
  obtain ⟨id, hid⟩ := RecoveryId.exists_toUInt8_eq hid
  rw [opposite, ← hid, ← RecoveryId.toUInt8_opposite]
  exact RecoveryId.toUInt8_le _

/-- A signature and its opposite are used as one. -/
theorem normalize_opposite (hpos : 0 < a.s.toNat) (hlt : a.s.toNat < order) (hid : a.recoveryId ≤ 3) :
    a.opposite.normalize = a.normalize := by
  obtain ⟨id, hid⟩ := RecoveryId.exists_toUInt8_eq hid
  have hread : RecoveryId.ofUInt8? a.recoveryId = some id := by
    rw [← hid, RecoveryId.ofUInt8?_toUInt8]
  have hopposite : RecoveryId.ofUInt8? a.opposite.recoveryId = some id.opposite := by
    rw [opposite, ← hid, ← RecoveryId.toUInt8_opposite, RecoveryId.ofUInt8?_toUInt8]
  -- the numbers that the two values of `s` stand for are opposite
  obtain ⟨s, hs⟩ : ∃ s : Scalar, s.val = a.s.toNat := ⟨⟨_, hlt⟩, rfl⟩
  have hne : s ≠ 0 := fun hzero => by
    rw [hzero] at hs
    exact hpos.ne hs
  have hscalar : Scalar.ofNat? a.s.toNat = some s := by rw [← hs, Scalar.ofNat?_val hne]
  have hscalar' : Scalar.ofNat? a.opposite.s.toNat = some (-s) := by
    rw [toNat_opposite_s, ← hs, ← Scalar.val_neg hne, Scalar.ofNat?_val (Scalar.neg_ne_zero hne)]
  have hr : a.opposite.r = a.r := rfl
  rw [normalize_eq hopposite, normalize_eq hread, hscalar, hscalar', hr]
  cases Scalar.ofNat? a.r.toNat with
  | none => rfl
  | some r => exact congrArg Except.ok (Ecdsa.lower_opposite (a := ⟨r, s, id⟩) hne)

theorem recoverAddress_congr {b : Signature} (h : b.normalize = a.normalize) (message : Bytes) :
    b.recoverAddress message = a.recoverAddress message := by
  rw [recoverAddress, recoverAddress, h]

theorem verify_congr_of_normalize {b : Signature} (h : b.normalize = a.normalize) (message : Bytes)
    (key : PublicKey) : b.verify message key = a.verify message key := by
  rw [verify, verify, h]

/-! ### Candidates -/

variable {algorithm : Algorithm} {keys : List KeyEntry} {message : Bytes}
  {candidates others : List Signature}

/-- Only the set of recovered addresses counts. -/
theorem recoversTo_congr
    (h : ∀ x, x ∈ recoveredAddresses others message ↔ x ∈ recoveredAddresses candidates message) :
    recoversTo keys others message = recoversTo keys candidates message := by
  have hcontains : (recoveredAddresses others message).contains
      = (recoveredAddresses candidates message).contains :=
    funext fun x => Bool.eq_iff_iff.mpr (by rw [List.contains_iff_mem, List.contains_iff_mem, h x])
  simp only [recoversTo, hcontains]

theorem attributes_congr (hrecovers : recoversTo keys others message = recoversTo keys candidates message)
    (hverifies : verifiesUnder keys others message = verifiesUnder keys candidates message) :
    attributes algorithm keys message others = attributes algorithm keys message candidates := by
  cases algorithm with
  | recoverable => exact hrecovers
  | plain => simp only [attributes, hrecovers, hverifies]

/-- Candidates are told apart by their normal forms only. -/
theorem attributes_of_forall₂
    (h : List.Forall₂ (fun b a : Signature => b.normalize = a.normalize) others candidates) :
    attributes algorithm keys message others = attributes algorithm keys message candidates := by
  refine attributes_congr (recoversTo_congr fun x => ?_) ?_
  · have hrecovered : recoveredAddresses others message = recoveredAddresses candidates message := by
      induction h with
      | nil => rfl
      | cons hba _ ih =>
        rw [recoveredAddresses] at ih ⊢
        rw [List.filterMap_cons, recoverAddress_congr hba, ih]
        rfl
    rw [hrecovered]
  · cases h with
    | nil => rfl
    | cons hba _ => simp only [verifiesUnder, verify_congr_of_normalize hba]

/-- Of two candidates, it does not matter which is first, if both verify under the same keys. -/
theorem attributes_swap {a b : Signature} (h : ∀ key, b.verify message key = a.verify message key) :
    attributes algorithm keys message [b, a] = attributes algorithm keys message [a, b] := by
  refine attributes_congr (recoversTo_congr fun x => ?_) ?_
  · simp only [mem_recoveredAddresses_iff, List.mem_pair, or_comm]
  · simp only [verifiesUnder, h]

/-- The bytes of the opposite stand for the opposite candidates, in the other order. -/
theorem ofBytes_toBytes_opposite (a : Signature) :
    ofBytes (a.opposite.toBytes false) = .ok [opposite ⟨a.r, a.s, 1⟩, opposite ⟨a.r, a.s, 0⟩] := by
  have hone : (1 : UInt8) ^^^ 1 = 0 := by decide
  have hzero : (0 : UInt8) ^^^ 1 = 1 := by decide
  rw [ofBytes_toBytes_plain]
  simp only [opposite, hone, hzero]

/-- A signature and its opposite have the same normal form, recover to the same address, and verify under the
same keys. Under both algorithms, their bytes come from the same keys, with or without the recovery id, and
so do those with the offset added to the recovery id. -/
theorem comesFrom_opposite (a : Signature) (message : Bytes) (hpos : 0 < a.s.toNat)
    (hlt : a.s.toNat < order) (hid : a.recoveryId ≤ 3) :
    a.opposite.normalize = a.normalize
    ∧ a.opposite.recoverAddress message = a.recoverAddress message
    ∧ (∀ key, a.opposite.verify message key = a.verify message key)
    ∧ ∀ algorithm keys,
      comesFrom algorithm keys (a.opposite.toBytes false) message
          = comesFrom algorithm keys (a.toBytes false) message
      ∧ comesFrom algorithm keys (a.opposite.toBytes true) message
          = comesFrom algorithm keys (a.toBytes true) message
      ∧ comesFrom algorithm keys (toBytes { a with recoveryId := a.recoveryId + 27 } true) message
          = comesFrom algorithm keys (a.toBytes true) message := by
  have hnormalize := normalize_opposite hpos hlt hid
  refine ⟨hnormalize, recoverAddress_congr hnormalize message,
    fun key => verify_congr_of_normalize hnormalize message key, fun algorithm keys => ⟨?_, ?_, ?_⟩⟩
  · have hzero : (0 : UInt8) ≤ 3 := by decide
    have hone : (1 : UInt8) ≤ 3 := by decide
    -- first both candidates are replaced by their opposites, then they change places
    have hopposite : List.Forall₂ (fun b a : Signature => b.normalize = a.normalize)
        [opposite ⟨a.r, a.s, 1⟩, opposite ⟨a.r, a.s, 0⟩] [⟨a.r, a.s, 1⟩, ⟨a.r, a.s, 0⟩] :=
      .cons (normalize_opposite hpos hlt hone) (.cons (normalize_opposite hpos hlt hzero) .nil)
    rw [comesFrom_eq, comesFrom_eq, ofBytes_toBytes_opposite, ofBytes_toBytes_plain]
    exact congrArg Except.ok ((attributes_of_forall₂ hopposite).trans
      (attributes_swap fun key => verify_congr hone hzero))
  · rw [comesFrom_eq, comesFrom_eq, ofBytes_toBytes_recoverable (lt_offset_of_le hid),
      ofBytes_toBytes_recoverable (lt_offset_of_le (recoveryId_opposite_le hid))]
    exact congrArg Except.ok (attributes_of_forall₂ (.cons hnormalize .nil))
  · rw [comesFrom_eq, comesFrom_eq, ofBytes_toBytes_recoverable (lt_offset_of_le hid),
      ofBytes_toBytes_withId, readId_add_offset (lt_offset_of_le hid)]

/-- A signature with the larger value of `s` by the key whose secret is one, and its opposite. -/
theorem comesFrom_opposite_generator :
    let high : Signature :=
      ⟨108607064596551879580190606910245687803607295064141551927605737287325610911759,
        110493694106248480786501915804278266010962346664157486488830606771676532319832, 1⟩
    let low : Signature :=
      ⟨108607064596551879580190606910245687803607295064141551927605737287325610911759,
        5298395131067714637069069204409641841875217614917417893774556369841629174505, 0⟩
    let message := Bytes.ofString "c"
    let keys := (Document.ofPublicKey "did:x:y"
      "0279be667ef9dcbbac55a06295ce870b07029bfcdb2dce28d959f2815b16f81798").keys
    order / 2 < high.s.toNat ∧ high.opposite = low
      ∧ low.recoverAddress message = high.recoverAddress message
      ∧ comesFrom .plain keys (low.toBytes false) message = comesFrom .plain keys (high.toBytes false) message
      ∧ comesFrom .recoverable keys (low.toBytes true) message
        = comesFrom .recoverable keys (high.toBytes true) message := by
  intro high low message keys
  have hopposite : high.opposite = low := by decide
  obtain ⟨-, hrecover, -, hbytes⟩ := comesFrom_opposite high message (by decide) (by decide) (by decide)
  rw [← hopposite]
  exact ⟨by decide, rfl, hrecover, (hbytes .plain keys).1, (hbytes .recoverable keys).2.1⟩

end Signature

end DidToken
