import DidToken.Proofs.Secp256k1.Recovery
import DidToken.Proofs.Signature.Opposite
/-!
# Keys listed by their addresses

A document may list a key by its bytes or only by its address. A signature is checked under the key in the
first case; in the second, the key is recovered from it. A signature that passes the check recovers to the key
with the id of its nonce point (`exists_recoverAddress`). Without a recovery id only 0 and 1 are tried, which
are the ids of nonce points whose first coordinate is less than the order of the group. So the address alone
does as well as the key for signatures with such a nonce point, and does not for the others
(`comesFrom_address`, and `comesFrom_reduced_nonce` for one of the others).
-/

namespace DidToken

open Secp256k1

/-! ### Entries -/

/-- The entry lists a key by its bytes, and no address. -/
structure KeyEntry.ListsKey (entry : KeyEntry) (key : PublicKey) : Prop where
  ethereumAddress : entry.ethereumAddress = none
  publicKey : entry.publicKey? = some key

/-- The entry lists a key by its address, and no bytes. -/
structure KeyEntry.ListsAddress (entry : KeyEntry) (key : PublicKey) : Prop where
  ethereumAddress : entry.ethereumAddress = some (PublicKey.address key)
  bytes : entry.bytes = none

theorem Document.keys_ofAddress (key : PublicKey) :
    ∃ entry : KeyEntry, (ofAddress (PublicKey.address key)).keys = [entry] ∧ entry.ListsAddress key :=
  ⟨_, rfl, rfl, rfl⟩

namespace PublicKey

theorem canonical_address_inj {key other : PublicKey}
    (h : Address.canonical (address other) = Address.canonical (address key)) :
    address other = address key := by
  rw [Address.canonical_address, Address.canonical_address] at h
  rw [address, address, h]

end PublicKey

namespace Signature

variable {r s : BitVec 256} {v w : UInt8} {message : Bytes} {key : PublicKey} {n : Ecdsa.Signed}
  {nonce : Point}

/-- The nonce point of the signature of a message in plain bytes, as a key has it. -/
def nonceUnder? (b message : Bytes) (key : PublicKey) : Option Point :=
  match ofBytes b with
  | .ok (a :: _) =>
    match a.normalize with
    | .ok n => Ecdsa.nonceUnder? key (hash message) n.r n.s
    | .error _ => none
  | _ => none

theorem nonceUnder?_toBytes (h : normalize ⟨r, s, 0⟩ = .ok n) (message : Bytes) (key : PublicKey) :
    nonceUnder? (toBytes ⟨r, s, 0⟩ false) message key = Ecdsa.nonceUnder? key (hash message) n.r n.s := by
  rw [nonceUnder?, ofBytes_toBytes_plain]
  show (match normalize ⟨r, s, 0⟩ with | .ok n => _ | .error _ => _) = _
  rw [h]

/-! ### Recovery ids -/

/-- Lowering keeps whether the first coordinate was reduced. -/
theorem isXReduced_lower (a : Ecdsa.Signed) :
    a.lower.recoveryId.isXReduced = a.recoveryId.isXReduced := by
  rw [lower_eq]
  split <;> rfl

/-- Every id is the one of the normal form for some recovery id of the signature. The second bit is kept. -/
theorem exists_normalize_eq (h : normalize ⟨r, s, v⟩ = .ok n) (id : RecoveryId) :
    ∃ id' : RecoveryId, id'.isXReduced = id.isXReduced
      ∧ normalize ⟨r, s, id'.toUInt8⟩ = .ok ⟨n.r, n.s, id⟩ := by
  obtain ⟨r', s', id₀, hr, hs, -, rfl⟩ := normalize_eq_ok_iff.mp h
  have hnormalize : ∀ id' : RecoveryId,
      normalize ⟨r, s, id'.toUInt8⟩ = .ok (Ecdsa.Signed.lower ⟨r', s', id'⟩) := fun id' =>
    normalize_eq_ok_iff.mpr ⟨r', s', id', hr, hs, RecoveryId.ofUInt8?_toUInt8 id', rfl⟩
  rw [lower_r, lower_s]
  by_cases hhigh : s'.isHigh = true
  · refine ⟨id.opposite, rfl, ?_⟩
    rw [hnormalize, lower_eq, if_pos hhigh, RecoveryId.opposite_opposite]
  · refine ⟨id, rfl, ?_⟩
    rw [hnormalize, lower_eq, if_neg hhigh]

/-- Recovery ids below two are those of points whose first coordinate was not reduced. -/
theorem toUInt8_of_isXReduced (id : RecoveryId) :
    if id.isXReduced then id.toUInt8 = 2 ∨ id.toUInt8 = 3 else id.toUInt8 = 0 ∨ id.toUInt8 = 1 := by
  obtain ⟨isYOdd, isXReduced⟩ := id
  cases isYOdd <;> cases isXReduced <;> decide

theorem isXReduced_of_normalize (h : normalize ⟨r, s, v⟩ = .ok n) (hv : v = 0 ∨ v = 1) :
    n.recoveryId.isXReduced = false := by
  obtain ⟨r', s', id, -, -, hid, rfl⟩ := normalize_eq_ok_iff.mp h
  rw [isXReduced_lower]
  rcases hv with rfl | rfl
  · cases hid
    rfl
  · cases hid
    rfl

theorem ne_zero_of_normalize {a : Signature} (h : a.normalize = .ok n) : n.r ≠ 0 ∧ n.s ≠ 0 := by
  obtain ⟨s, hr, hs, -, -, hlow⟩ := normalize_eq_ok h
  refine ⟨hr, ?_⟩
  rw [hlow, Scalar.low]
  split
  · exact Scalar.neg_ne_zero hs
  · exact hs

/-- The numbers of the normal form do not depend on the recovery id. -/
theorem numbers_of_normalize {m : Ecdsa.Signed} (hn : normalize ⟨r, s, v⟩ = .ok n)
    (hm : normalize ⟨r, s, w⟩ = .ok m) : m.r = n.r ∧ m.s = n.s := by
  obtain ⟨r', s', -, hr, hs, -, rfl⟩ := normalize_eq_ok_iff.mp hn
  obtain ⟨r'', s'', -, hr', hs', -, rfl⟩ := normalize_eq_ok_iff.mp hm
  cases hr.symm.trans hr'
  cases hs.symm.trans hs'
  rw [lower_r, lower_r, lower_s, lower_s]
  exact ⟨rfl, rfl⟩

/-! ### Recovery -/

/-- A signature that verifies under a key recovers to the address of the key, with the id of the nonce point,
adjusted if the signature was not low. -/
theorem exists_recoverAddress (h : normalize ⟨r, s, v⟩ = .ok n)
    (hverify : Ecdsa.verify key (hash message) n.r n.s = true)
    (hnonce : Ecdsa.nonceUnder? key (hash message) n.r n.s = some nonce) :
    ∃ id : RecoveryId, id.isXReduced = decide (order ≤ nonce.x.val)
      ∧ recoverAddress ⟨r, s, id.toUInt8⟩ message = .ok (PublicKey.address key) := by
  obtain ⟨id, hreduced, hnormalize⟩ := exists_normalize_eq h (RecoveryId.ofPoint nonce)
  obtain ⟨hr, hs⟩ := ne_zero_of_normalize hnormalize
  exact ⟨id, hreduced, recoverAddress_eq_ok_iff.mpr
    ⟨_, key, hnormalize, (Ecdsa.recover?_eq_some_iff hr hs).mpr ⟨hverify, nonce, hnonce, rfl⟩, rfl⟩⟩

/-! ### The fallback -/

/-- Only one of the keys is there to verify the signature. -/
theorem exists_normalize_of_listsKey {listed : KeyEntry} (hlisted : listed.ListsKey key)
    (h : comesFrom .plain [listed] (toBytes ⟨r, s, 0⟩ false) message = .ok true) :
    ∃ n, normalize ⟨r, s, 0⟩ = .ok n ∧ Ecdsa.verify key (hash message) n.r n.s = true := by
  have hnone : ∀ entry ∈ [listed], entry.ethereumAddress = none := fun entry hentry => by
    rw [List.mem_singleton.mp hentry, hlisted.ethereumAddress]
  rw [comesFrom_eq, ofBytes_toBytes_plain] at h
  have hverifies : verifiesUnder [listed] [⟨r, s, 0⟩, ⟨r, s, 1⟩] message = true :=
    (attributes_plain_of_unaddressed hnone _).symm.trans (Except.ok.inj h)
  obtain ⟨key', hkey', hverify⟩ := List.any_eq_true.mp hverifies
  obtain ⟨entry, hentry, hpublic⟩ := List.mem_filterMap.mp hkey'
  rw [List.mem_singleton.mp hentry, hlisted.publicKey] at hpublic
  cases hpublic
  exact verify_eq_ok hverify

/-- The ids that are tried without a recovery id do not recover a key for which the first coordinate of the
nonce point was reduced. -/
theorem ne_of_recover? {other : PublicKey} {m : Ecdsa.Signed} (hn : normalize ⟨r, s, 0⟩ = .ok n)
    (hnonce : Ecdsa.nonceUnder? key (hash message) n.r n.s = some nonce)
    (hreduced : order ≤ nonce.x.val) (hv : v = 0 ∨ v = 1) (hm : normalize ⟨r, s, v⟩ = .ok m)
    (hother : Ecdsa.recover? (hash message) m = some other) : other ≠ key := by
  rintro rfl
  obtain ⟨hr, hs⟩ := ne_zero_of_normalize hm
  obtain ⟨-, nonce', hnonce', hid⟩ := (Ecdsa.recover?_eq_some_iff hr hs).mp hother
  obtain ⟨hmr, hms⟩ := numbers_of_normalize hn hm
  rw [hmr, hms, hnonce] at hnonce'
  cases hnonce'
  -- the id of the nonce point says that it was reduced, and that of the signature that it was not
  have hbit : (RecoveryId.ofPoint nonce).isXReduced = false := by
    rw [hid]
    exact isXReduced_of_normalize hm hv
  exact of_decide_eq_false hbit hreduced

/-- Without the bytes of a key there is only recovery. -/
theorem recoversTo_of_listsAddress {addressed : KeyEntry} {b : Bytes} {candidates : List Signature}
    (haddressed : addressed.ListsAddress key) (hb : ofBytes b = .ok candidates)
    (h : comesFrom .plain [addressed] b message = .ok true) :
    recoversTo [addressed] candidates message = true := by
  have hpublic : addressed.publicKey? = none := by rw [KeyEntry.publicKey?, haddressed.bytes]
  rw [comesFrom_eq, hb] at h
  rw [recoversTo_singleton haddressed.ethereumAddress,
    ← attributes_singleton haddressed.ethereumAddress hpublic]
  exact Except.ok.inj h

theorem exists_other_of_listsAddress {addressed : KeyEntry} (haddressed : addressed.ListsAddress key)
    (hn : normalize ⟨r, s, 0⟩ = .ok n)
    (hnonce : Ecdsa.nonceUnder? key (hash message) n.r n.s = some nonce) (hreduced : order ≤ nonce.x.val)
    (h : comesFrom .plain [addressed] (toBytes ⟨r, s, 0⟩ false) message = .ok true) :
    ∃ other ≠ key, IsUnder (toBytes ⟨r, s, 0⟩ false) message other
      ∧ PublicKey.address other = PublicKey.address key := by
  have hb := ofBytes_toBytes_plain ⟨r, s, 0⟩
  obtain ⟨entry, hentry, a, ha, address, hrecover, hnames⟩ :=
    recoversTo_eq_true (recoversTo_of_listsAddress haddressed hb h)
  obtain ⟨m, other, hm, hother, rfl⟩ := recoverAddress_eq_ok_iff.mp hrecover
  refine ⟨other, ?_, isUnder_of_normalize hb ha hm (verify_of_recover? hother), ?_⟩
  · rcases List.mem_pair.mp ha with rfl | rfl
    · exact ne_of_recover? hn hnonce hreduced (.inl rfl) hm hother
    · exact ne_of_recover? hn hnonce hreduced (.inr rfl) hm hother
  · rw [List.mem_singleton.mp hentry, KeyEntry.address?, haddressed.ethereumAddress] at hnames
    exact PublicKey.canonical_address_inj (Option.some.inj hnames).symm

/-- Let 64 bytes be those of a signature that comes from a key listed by its bytes. If the first coordinate of
its nonce point is less than the order, then it also comes from the key where that is listed by its address.
Otherwise it comes from there with one of the recovery ids that are not tried for it, and without one only if
it is also a signature under another key that has the same address. -/
theorem comesFrom_address {listed addressed : KeyEntry} {key : PublicKey} {b message : Bytes}
    (hlisted : listed.ListsKey key) (haddressed : addressed.ListsAddress key) (hlength : b.length = 64)
    (h : comesFrom .plain [listed] b message = .ok true) :
    ∃ nonce, nonceUnder? b message key = some nonce
      ∧ (nonce.x.val < order → comesFrom .plain [addressed] b message = .ok true)
      ∧ (order ≤ nonce.x.val →
        (∃ v, (v = 2 ∨ v = 3) ∧ comesFrom .plain [addressed] (b ++ [v]) message = .ok true)
        ∧ (comesFrom .plain [addressed] b message = .ok true →
          ∃ other ≠ key, IsUnder b message other ∧ PublicKey.address other = PublicKey.address key)) := by
  obtain ⟨r, s, hb⟩ := exists_toBytes_eq hlength
  obtain ⟨rfl, -⟩ := hb 0
  obtain ⟨n, hn, hverify⟩ := exists_normalize_of_listsKey hlisted h
  obtain ⟨-, nonce, hnonce, -⟩ := Ecdsa.verify_eq_true_iff.mp hverify
  obtain ⟨id, hid, hrecover⟩ := exists_recoverAddress hn hverify hnonce
  have hbyte := toUInt8_of_isXReduced id
  refine ⟨nonce, (nonceUnder?_toBytes hn message key).trans hnonce, fun hsmall => ?_,
    fun hreduced => ⟨⟨id.toUInt8, ?_, ?_⟩, exists_other_of_listsAddress haddressed hn hnonce hreduced⟩⟩
  · rw [hid, decide_eq_false (Nat.not_le.mpr hsmall), if_neg Bool.false_ne_true] at hbyte
    refine comesFrom_of_mem (List.mem_singleton_self addressed) haddressed.ethereumAddress
      (ofBytes_toBytes_plain _) (List.mem_pair.mpr ?_) hrecover
    exact hbyte.imp (fun hv => by rw [hv]) (fun hv => by rw [hv])
  · rwa [hid, decide_eq_true hreduced, if_pos rfl] at hbyte
  · rw [← (hb id.toUInt8).2]
    exact comesFrom_of_mem (List.mem_singleton_self addressed) haddressed.ethereumAddress
      (ofBytes_toBytes_recoverable (lt_offset_of_le (RecoveryId.toUInt8_le id))) (List.mem_singleton_self _) hrecover

set_option maxRecDepth 100000 in
/-- A signature of the key whose secret is one, under the key and under its address. -/
theorem comesFrom_address_generator :
    let b := toBytes ⟨108607064596551879580190606910245687803607295064141551927605737287325610911759,
      5298395131067714637069069204409641841875217614917417893774556369841629174505, 0⟩ false
    let message := Bytes.ofString "c"
    comesFrom .plain (Document.ofPublicKey "did:x:y"
        "0279be667ef9dcbbac55a06295ce870b07029bfcdb2dce28d959f2815b16f81798").keys b message = .ok true
      ∧ comesFrom .plain (Document.ofAddress (PublicKey.address generator)).keys b message = .ok true := by
  intro b message
  have hlisted : comesFrom .plain (Document.ofPublicKey "did:x:y"
      "0279be667ef9dcbbac55a06295ce870b07029bfcdb2dce28d959f2815b16f81798").keys b message = .ok true := by
    decide +kernel
  obtain ⟨addressed, hkeys, haddressed⟩ := Document.keys_ofAddress generator
  obtain ⟨nonce, hnonce, hsmall, -⟩ :=
    comesFrom_address ⟨rfl, by decide +kernel⟩ haddressed (by decide +kernel) hlisted
  rw [hkeys]
  refine ⟨hlisted, hsmall ?_⟩
  have hx : (nonceUnder? b message generator).map (fun nonce => decide (nonce.x.val < order)) = some true := by
    decide +kernel
  rw [hnonce] at hx
  exact of_decide_eq_true (Option.some.inj hx)

set_option maxRecDepth 100000 in
/-- A signature with a nonce point whose first coordinate is not less than the order comes from a key, but not
from the address of the key. -/
theorem comesFrom_reduced_nonce :
    let key : PublicKey :=
      ⟨56677229737104036229929727776781989603437542103913957706889468257391581191556,
        33587452452910802909671774377280983285521924284229066815784425984556879332151, by decide +kernel⟩
    let b := toBytes ⟨7, 1, 0⟩ false
    let message := Bytes.ofString "eyJhbGciOiJFUzI1NksifQ.eyJpc3MiOiJkaWQ6eDp5In0"
    let listed := (Document.ofPublicKey "did:x:y"
      "037d4e2cdb72a9c7c1c5a4549b3689f85d2cb5f8a80db37bb3d77466f42529dd84").keys
    listed.filterMap KeyEntry.publicKey? = [key]
      ∧ (nonceUnder? b message key).map (fun nonce => nonce.x.val) = some (order + 7)
      ∧ comesFrom .plain listed b message = .ok true
      ∧ comesFrom .plain (Document.ofAddress (PublicKey.address key)).keys b message = .ok false := by
  decide +kernel

end Signature

end DidToken
