import DidToken.Document.Sample
import DidToken.Proofs.Materials
/-!
# Recovery ids where no key is recovered

Checking a signature under a key comes down to its two numbers, as long as its recovery id is one
(`verify_eq`). So all recovery ids are as good as each other, with the offset or without it, and as good as
none; but a byte that is no recovery id makes the check fail (`verify_recoveryId`), also where the same
numbers verify without it (`verify_foreignId`).
-/

namespace DidToken.Signature

open Secp256k1

variable {r s : BitVec 256} {v w : UInt8} {message : Bytes} {key : PublicKey} {keys : List KeyEntry}

/-! ### Under a key -/

/-- The check is one of the numbers alone. -/
theorem verify_eq {a : Signature} (hid : a.recoveryId ≤ 3) (message : Bytes) (key : PublicKey) :
    a.verify message key =
      match Scalar.ofNat? a.r.toNat, Scalar.ofNat? a.s.toNat with
      | some r, some s =>
        if Ecdsa.verify key (hash message) r s.low then .ok () else .error .invalid
      | _, _ => .error .invalid := by
  obtain ⟨id, hid⟩ : ∃ id, RecoveryId.ofUInt8? a.recoveryId = some id := ⟨_, if_pos hid⟩
  rw [verify, normalize_eq hid]
  cases Scalar.ofNat? a.r.toNat with
  | none => rfl
  | some r =>
    cases Scalar.ofNat? a.s.toNat with
    | none => rfl
    | some s =>
      show (if Ecdsa.verify key _ (Ecdsa.Signed.lower ⟨r, s, id⟩).r (Ecdsa.Signed.lower ⟨r, s, id⟩).s = true
        then _ else _) = _
      rw [lower_r, lower_s]
      rfl

theorem verify_congr (hv : v ≤ 3) (hw : w ≤ 3) :
    verify ⟨r, s, v⟩ message key = verify ⟨r, s, w⟩ message key := by
  rw [verify_eq hv, verify_eq hw]

theorem isOk_verify_of_not_le (hv : ¬v ≤ 3) : (verify ⟨r, s, v⟩ message key).isOk = false := by
  refine Bool.eq_false_of_not_eq_true fun hok => ?_
  obtain ⟨n, hn, -⟩ := verify_eq_ok hok
  exact hv (recoveryId_le_of_normalize hn)

/-! ### Under the keys of a document -/

theorem verifiesUnder_congr (hv : v ≤ 3) (hw : w ≤ 3) (rest rest' : List Signature) :
    verifiesUnder keys (⟨r, s, v⟩ :: rest) message = verifiesUnder keys (⟨r, s, w⟩ :: rest') message := by
  simp only [verifiesUnder, verify_congr hv hw]

theorem verifiesUnder_of_not_le (hv : ¬v ≤ 3) (rest : List Signature) :
    verifiesUnder keys (⟨r, s, v⟩ :: rest) message = false := by
  refine List.any_eq_false.mpr fun key _ => ?_
  rw [isOk_verify_of_not_le hv]
  exact Bool.false_ne_true

/-- Where no key names its address, plain signatures must verify. -/
theorem attributes_plain_of_unaddressed (h : ∀ entry ∈ keys, entry.ethereumAddress = none)
    (candidates : List Signature) :
    attributes .plain keys message candidates = verifiesUnder keys candidates message := by
  have hnone : keys.any (fun key => key.ethereumAddress.isSome) = false :=
    List.any_eq_false.mpr fun entry hentry => by
      rw [h entry hentry]
      exact Bool.false_ne_true
  rw [attributes, hnone, Bool.false_and, Bool.or_false]

theorem comesFrom_withId (h : ∀ entry ∈ keys, entry.ethereumAddress = none) :
    comesFrom .plain keys (toBytes ⟨r, s, v⟩ true) message =
      if v ≤ 3 ∨ 27 ≤ v ∧ v ≤ 30 then comesFrom .plain keys (toBytes ⟨r, s, v⟩ false) message
      else .ok false := by
  rw [comesFrom_eq, comesFrom_eq, ofBytes_toBytes_withId, ofBytes_toBytes_plain]
  show Except.ok (attributes .plain keys message [⟨r, s, readId v⟩])
    = if _ then Except.ok (attributes .plain keys message [⟨r, s, 0⟩, ⟨r, s, 1⟩]) else Except.ok false
  rw [attributes_plain_of_unaddressed h, attributes_plain_of_unaddressed h]
  split
  · next hid => rw [verifiesUnder_congr (readId_le_iff.mpr hid) (by decide : (0 : UInt8) ≤ 3)]
  · next hid => rw [verifiesUnder_of_not_le fun hread => hid (readId_le_iff.mp hread)]

/-! ### All bytes -/

/-- Without recovery, the recovery id of a signature does not matter as long as it is one: each two of them
give the same answer under every key, and with any other byte the check fails. Under keys that name no
address, the bytes of a signature with a recovery id, or one with the offset, are therefore as good as those
without one, and those with any other byte come from none of the keys. -/
theorem verify_recoveryId (r s : BitVec 256) (message : Bytes) :
    (∀ v w key, v ≤ 3 → w ≤ 3 → verify ⟨r, s, v⟩ message key = verify ⟨r, s, w⟩ message key)
    ∧ (∀ v key, ¬v ≤ 3 → (verify ⟨r, s, v⟩ message key).isOk = false)
    ∧ ∀ v keys, (∀ entry ∈ keys, entry.ethereumAddress = none) →
      comesFrom .plain keys (toBytes ⟨r, s, v⟩ true) message =
        if v ≤ 3 ∨ 27 ≤ v ∧ v ≤ 30 then comesFrom .plain keys (toBytes ⟨r, s, v⟩ false) message
        else .ok false :=
  ⟨fun _ _ _ hv hw => verify_congr hv hw, fun _ _ hv => isOk_verify_of_not_le hv,
    fun _ _ h => comesFrom_withId h⟩

/-- Two recovery ids and a byte that is none, for a signature of the key whose secret is one. -/
theorem verify_recoveryId_generator :
    let a : Signature :=
      ⟨108607064596551879580190606910245687803607295064141551927605737287325610911759,
        5298395131067714637069069204409641841875217614917417893774556369841629174505, 30⟩
    let message := Bytes.ofString "c"
    let keys := (Document.ofPublicKey "did:x:y"
      "0279be667ef9dcbbac55a06295ce870b07029bfcdb2dce28d959f2815b16f81798").keys
    verify { a with recoveryId := 0 } message generator = verify { a with recoveryId := 3 } message generator
      ∧ (verify a message generator).isOk = false
      ∧ comesFrom .plain keys (a.toBytes true) message = comesFrom .plain keys (a.toBytes false) message := by
  intro a message keys
  obtain ⟨hids, hforeign, hbytes⟩ := verify_recoveryId a.r a.s message
  have hkeys : ∀ entry ∈ keys, entry.ethereumAddress = none := fun entry hentry => by
    rw [List.mem_singleton.mp hentry]
  exact ⟨hids 0 3 generator (by decide) (by decide), hforeign 30 generator (by decide), hbytes 30 keys hkeys⟩

set_option maxRecDepth 100000 in
/-- A signature verifies under a key, but not with four in the place of the recovery id; and its bytes come
from a document with that key, but not with four after them. -/
theorem verify_foreignId :
    let a : Signature :=
      ⟨108607064596551879580190606910245687803607295064141551927605737287325610911759,
        5298395131067714637069069204409641841875217614917417893774556369841629174505, 4⟩
    let message := Bytes.ofString "c"
    let keys := (Document.ofPublicKey "did:x:y"
      "0279be667ef9dcbbac55a06295ce870b07029bfcdb2dce28d959f2815b16f81798").keys
    verify { a with recoveryId := 0 } message generator = .ok ()
      ∧ verify a message generator = .error (.recoveryId 4)
      ∧ comesFrom .plain keys (a.toBytes false) message = .ok true
      ∧ comesFrom .plain keys (a.toBytes true) message = .ok false := by
  decide +kernel

end DidToken.Signature
