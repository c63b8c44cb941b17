import DidToken.Attribution
import DidToken.Document.Sample
import DidToken.Proofs.Did
import DidToken.Proofs.Signature
/-!
# Whose signature it is, and why

A signature that is attributed to keys is one under a public key that an entry names, by the bytes of the
key or by its address (`comesFrom_sound`). In the other direction, the bytes of a signature that recovers
to the address of an entry are attributed to the keys (`comesFrom_toBytes`).
-/

namespace DidToken

open Secp256k1

/-! ### Claims about keys and signatures -/

/-- An entry names a key by its bytes or by its address. -/
inductive KeyEntry.Names (entry : KeyEntry) (key : PublicKey) : Prop
  | key {b : Bytes} (hbytes : entry.bytes = some (.ok b)) (hkey : PublicKey.ofBytes? b = some key)
  | address (h : entry.address?
      = some (Text.Hex.encode ((Hash.Keccak256.digest (PublicKey.coordinates key)).drop 12)))

namespace Signature

/-- The bytes are those of a signature of a message under a key: the first 64 are two scalars, which
verify once the second is the smaller one. -/
structure IsUnder (b message : Bytes) (key : PublicKey) : Prop where
  length : b.length = 64 ∨ b.length = 65
  verifies : ∃ r s : Scalar, r ≠ 0 ∧ s ≠ 0 ∧ r.val = Bytes.toNat (b.take 32)
    ∧ s.val = Bytes.toNat ((b.drop 32).take 32)
    ∧ Ecdsa.verify key (hash message) r s.low = true

/-! ### Recovered addresses -/

theorem mem_recoveredAddresses_iff {candidates : List Signature} {message : Bytes} {x : String} :
    x ∈ recoveredAddresses candidates message
      ↔ ∃ a ∈ candidates, ∃ address, a.recoverAddress message = .ok address
        ∧ Address.canonical address = x := by
  rw [recoveredAddresses, List.mem_filterMap]
  refine exists_congr fun a => and_congr_right fun _ => ?_
  cases a.recoverAddress message with
  | error f => exact ⟨nofun, nofun⟩
  | ok address =>
    exact ⟨fun h => ⟨address, rfl, Option.some.inj h⟩, fun ⟨_, h, hx⟩ => by cases h; exact congrArg some hx⟩

/-! ### Soundness -/

theorem isUnder_of_normalize {b message : Bytes} {candidates : List Signature} {a : Signature}
    {n : Ecdsa.Signed} {key : PublicKey} (hb : ofBytes b = .ok candidates) (ha : a ∈ candidates)
    (hn : a.normalize = .ok n) (hverify : Ecdsa.verify key (hash message) n.r n.s = true) :
    IsUnder b message key := by
  obtain ⟨hlength, hnumbers⟩ := ofBytes_eq_ok hb
  obtain ⟨s, hr0, hs0, hr, hs, hlow⟩ := normalize_eq_ok hn
  rw [hlow] at hverify
  exact ⟨hlength, n.r, s, hr0, hs0, hr.trans (hnumbers a ha).1, hs.trans (hnumbers a ha).2, hverify⟩

/-- Candidates recover to the keys by one of them, to the address of one entry. -/
theorem recoversTo_eq_true {keys : List KeyEntry} {candidates : List Signature} {message : Bytes}
    (h : recoversTo keys candidates message = true) :
    ∃ entry ∈ keys, ∃ a ∈ candidates, ∃ address, a.recoverAddress message = .ok address
      ∧ entry.address? = some (Address.canonical address) := by
  obtain ⟨canonical, hcanonical, hcontains⟩ := List.any_eq_true.mp h
  obtain ⟨entry, hentry, hnames⟩ := List.mem_filterMap.mp hcanonical
  obtain ⟨a, ha, address, hrecover, rfl⟩ :=
    mem_recoveredAddresses_iff.mp (List.contains_iff_mem.mp hcontains)
  exact ⟨entry, hentry, a, ha, address, hrecover, hnames⟩

/-- Bytes come from the keys in one of two ways. -/
theorem comesFrom_eq_true {algorithm : Algorithm} {keys : List KeyEntry} {b message : Bytes}
    (h : comesFrom algorithm keys b message = .ok true) :
    ∃ candidates, ofBytes b = .ok candidates ∧
      (verifiesUnder keys candidates message = true ∨ recoversTo keys candidates message = true) := by
  obtain ⟨candidates, hb, h⟩ := bind_eq_ok_iff.mp h
  refine ⟨candidates, hb, ?_⟩
  cases algorithm with
  | recoverable => exact Or.inr (Except.ok.inj h)
  | plain =>
    simp only at h
    split at h
    · next hverifies => exact Or.inl hverifies
    · have hand := Except.ok.inj h
      rw [Bool.and_eq_true] at hand
      exact Or.inr hand.2

theorem recoversTo_sound {keys : List KeyEntry} {b message : Bytes} {candidates : List Signature}
    (hb : ofBytes b = .ok candidates) (h : recoversTo keys candidates message = true) :
    ∃ entry ∈ keys, ∃ key, entry.Names key ∧ IsUnder b message key := by
  obtain ⟨entry, hentry, a, ha, address, hrecover, hnames⟩ := recoversTo_eq_true h
  obtain ⟨n, key, hn, hkey, rfl⟩ := recoverAddress_eq_ok_iff.mp hrecover
  refine ⟨entry, hentry, key, .address ?_, isUnder_of_normalize hb ha hn (verify_of_recover? hkey)⟩
  rw [hnames, Address.canonical_address]

theorem verifiesUnder_sound {keys : List KeyEntry} {b message : Bytes} {candidates : List Signature}
    (hb : ofBytes b = .ok candidates) (h : verifiesUnder keys candidates message = true) :
    ∃ entry ∈ keys, ∃ key, entry.Names key ∧ IsUnder b message key := by
  cases candidates with
  | nil => cases h
  | cons a rest =>
    obtain ⟨key, hkey, hverify⟩ := List.any_eq_true.mp h
    obtain ⟨entry, hentry, hpublic⟩ := List.mem_filterMap.mp hkey
    obtain ⟨n, hn, hverify⟩ := verify_eq_ok hverify
    refine ⟨entry, hentry, key, ?_, isUnder_of_normalize hb (List.mem_cons_self ..) hn hverify⟩
    rw [KeyEntry.publicKey?] at hpublic
    split at hpublic
    · next bytes hbytes => exact .key hbytes hpublic
    · cases hpublic

/-- A signature that comes from one of the keys is one under a public key that an entry names. -/
theorem comesFrom_sound {algorithm : Algorithm} {keys : List KeyEntry} {b message : Bytes}
    (h : comesFrom algorithm keys b message = .ok true) :
    ∃ entry ∈ keys, ∃ key, entry.Names key ∧ IsUnder b message key := by
  obtain ⟨candidates, hb, hverifies | hrecovers⟩ := comesFrom_eq_true h
  · exact verifiesUnder_sound hb hverifies
  · exact recoversTo_sound hb hrecovers

/-! ### Completeness -/

/-- A signature that recovers to the address of an entry is attributed to the keys, if the candidates
include it. -/
theorem recoversTo_of_mem {keys : List KeyEntry} {entry : KeyEntry} {candidates : List Signature}
    {a : Signature} {message : Bytes} {address : String} (hentry : entry ∈ keys)
    (haddress : entry.ethereumAddress = some address) (ha : a ∈ candidates)
    (hrecover : a.recoverAddress message = .ok address) :
    recoversTo keys candidates message = true := by
  refine List.any_eq_true.mpr ⟨Address.canonical address, ?_, ?_⟩
  · exact List.mem_filterMap.mpr ⟨entry, hentry, by rw [KeyEntry.address?, haddress]⟩
  · exact List.contains_iff_mem.mpr (mem_recoveredAddresses_iff.mpr ⟨a, ha, address, hrecover, rfl⟩)

/-- Whichever the algorithm, bytes come from the keys if one of the signatures that they stand for recovers
to the address of an entry. -/
theorem comesFrom_of_mem {algorithm : Algorithm} {keys : List KeyEntry} {entry : KeyEntry} {b : Bytes}
    {candidates : List Signature} {a : Signature} {message : Bytes} {address : String}
    (hentry : entry ∈ keys) (haddress : entry.ethereumAddress = some address)
    (hb : ofBytes b = .ok candidates) (ha : a ∈ candidates)
    (hrecover : a.recoverAddress message = .ok address) :
    comesFrom algorithm keys b message = .ok true := by
  have hrecovers := recoversTo_of_mem hentry haddress ha hrecover
  rw [comesFrom, hb, ok_bind]
  cases algorithm with
  | recoverable => exact congrArg Except.ok hrecovers
  | plain =>
    -- the entry is one that names its address
    have hany : keys.any (fun key => key.ethereumAddress.isSome) = true :=
      List.any_eq_true.mpr ⟨entry, hentry, by rw [haddress]; rfl⟩
    show (if _ then Except.ok true else Except.ok (_ && _)) = _
    rw [hrecovers, hany]
    exact ite_self _

/-- The bytes of a signature that recovers to the address of an entry come from the keys. The plain form
drops the recovery id, and only the ids 0 and 1 are tried in its place. -/
theorem comesFrom_toBytes {algorithm : Algorithm} {keys : List KeyEntry} {entry : KeyEntry}
    {a : Signature} {message : Bytes} {address : String} (hentry : entry ∈ keys)
    (haddress : entry.ethereumAddress = some address)
    (hrecover : a.recoverAddress message = .ok address)
    (hid : algorithm = .plain → a.recoveryId = 0 ∨ a.recoveryId = 1) :
    comesFrom algorithm keys (a.toBytes algorithm.isRecoverable) message = .ok true := by
  cases algorithm with
  | recoverable =>
    exact comesFrom_of_mem hentry haddress
      (ofBytes_toBytes_recoverable (lt_offset_of_le (recoveryId_le_of_recoverAddress hrecover)))
      (List.mem_singleton_self a) hrecover
  | plain =>
    -- the dropped id is one of the two that are tried
    have ha : a ∈ [(⟨a.r, a.s, 0⟩ : Signature), ⟨a.r, a.s, 1⟩] := by
      obtain ⟨r, s, v⟩ := a
      rcases hid rfl with rfl | rfl
      · exact List.mem_cons_self ..
      · exact List.mem_cons_of_mem _ (List.mem_singleton_self _)
    exact comesFrom_of_mem hentry haddress (ofBytes_toBytes_plain a) ha hrecover

end Signature

/-- The document of an address lists one key for every use, by its address alone. -/
theorem Document.verifyingKeys_ofAddress (address : String) (authenticating : Bool) :
    ∃ entry : KeyEntry, (Document.ofAddress address).verifyingKeys authenticating = [entry]
      ∧ entry.ethereumAddress = some address ∧ entry.publicKey? = none := by
  rw [Document.ofAddress]
  refine ⟨_, List.filter_cons_of_pos ?_, rfl, rfl⟩
  rw [Bool.and_eq_true, Bool.or_eq_true]
  exact ⟨rfl, Or.inr (List.contains_iff_mem.mpr (List.mem_singleton_self _))⟩

theorem Document.mem_verifyingKeys_ofAddress (address : String) (authenticating : Bool) :
    ∃ entry ∈ (Document.ofAddress address).verifyingKeys authenticating,
      entry.ethereumAddress = some address := by
  obtain ⟨entry, hkeys, haddress, -⟩ := verifyingKeys_ofAddress address authenticating
  exact ⟨entry, hkeys ▸ List.mem_singleton_self entry, haddress⟩

end DidToken
