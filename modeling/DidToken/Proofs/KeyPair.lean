import DidToken.KeyPair
import DidToken.Proofs.Secp256k1.Ecdsa
import DidToken.Proofs.Signature
/-!
# Signatures of key pairs

The numbers of a signature are read back as the scalars it was made of (`normalize_ofSigned`). So what a key
pair signs recovers to its address and verifies under its public key, and only a nonce that makes a number
of the signature zero keeps it from signing (`KeyPair.sign_recovers`).
-/

namespace DidToken

open Secp256k1

/-! ### Scalars and their numbers -/

namespace Secp256k1

theorem Scalar.ofNat?_val {x : Scalar} (h : x ≠ 0) : Scalar.ofNat? x.val = some x :=
  dif_pos ⟨Scalar.val_pos h, x.isLt⟩

theorem RecoveryId.ofUInt8?_toUInt8 (id : RecoveryId) : RecoveryId.ofUInt8? id.toUInt8 = some id := by
  obtain ⟨isYOdd, isXReduced⟩ := id
  cases isYOdd <;> cases isXReduced <;> decide

theorem RecoveryId.toUInt8_le (id : RecoveryId) : id.toUInt8 ≤ 3 := by
  obtain ⟨isYOdd, isXReduced⟩ := id
  cases isYOdd <;> cases isXReduced <;> decide

theorem Nonce.ne_zero_of_first? {count : Nat} {g : Nonce.Generator} {k : Scalar}
    (h : Nonce.first? count g = some k) : k ≠ 0 := by
  induction count generalizing g with
  | zero => cases h
  | succ n ih =>
    rw [Nonce.first?] at h
    split at h
    · next k' hk' =>
      cases h
      exact (Signature.ofNat?_eq_some hk').1
    · exact ih h

theorem Nonce.ne_zero_of_generate? {secret z k : Scalar} (h : Nonce.generate? secret z = some k) :
    k ≠ 0 := by
  unfold Nonce.generate? at h
  exact Nonce.ne_zero_of_first? h

end Secp256k1

namespace Signature

theorem toNat_ofNat_val (x : Scalar) : (BitVec.ofNat 256 x.val).toNat = x.val := by
  have hlt : x.val < 2 ^ 256 := x.isLt.trans (by decide)
  rw [BitVec.toNat_ofNat, Nat.mod_eq_of_lt hlt]

theorem normalize_ofSigned {a : Ecdsa.Signed} (hr : a.r ≠ 0) (hs : a.s ≠ 0) :
    (ofSigned a).normalize = .ok a.lower := by
  rw [normalize, ofSigned]
  simp only [toNat_ofNat_val, Scalar.ofNat?_val hr, Scalar.ofNat?_val hs, RecoveryId.ofUInt8?_toUInt8]
  rfl

theorem verify_eq_ok_of_normalize {a : Signature} {message : Bytes} {key : PublicKey} {n : Ecdsa.Signed}
    (hn : a.normalize = .ok n) (h : Ecdsa.verify key (hash message) n.r n.s = true) :
    a.verify message key = .ok () := by
  rw [verify, hn, ok_bind, if_pos h]
  rfl

end Signature

/-! ### Signing -/

namespace KeyPair

/-- The public key is the multiple of the generator by the secret. -/
theorem scale_secret (pair : KeyPair) : Point.scale pair.secret generator = some pair.publicKey := by
  obtain ⟨key, hkey⟩ := Point.exists_scale_eq_some pair.secret_ne_zero generator
  rw [publicKey, hkey, Option.getD_some]

theorem sign_eq {pair : KeyPair} {message : Bytes} {k : Scalar}
    (hk : Nonce.generate? pair.secret (Signature.hash message) = some k) :
    pair.sign message = pair.signWith (Signature.hash message) (some k) := by
  rw [sign, hk]

theorem exists_nonce_of_sign {pair : KeyPair} {message : Bytes} {a : Signature}
    (h : pair.sign message = .ok a) :
    ∃ k, Nonce.generate? pair.secret (Signature.hash message) = some k := by
  cases hk : Nonce.generate? pair.secret (Signature.hash message) with
  | none =>
    rw [sign, hk] at h
    cases h
  | some k => exact ⟨k, rfl⟩

/-- What is signed was made under the secret. -/
theorem exists_made_of_sign {pair : KeyPair} {message : Bytes} {a : Signature}
    (h : pair.sign message = .ok a) :
    ∃ signed k nonce, a = Signature.ofSigned signed
      ∧ Ecdsa.Made pair.secret (Signature.hash message) signed k nonce := by
  obtain ⟨k, hk⟩ := exists_nonce_of_sign h
  rw [sign_eq hk, signWith] at h
  cases hsigned : Ecdsa.sign? pair.secret (Signature.hash message) k with
  | none =>
    rw [hsigned] at h
    cases h
  | some signed =>
    rw [hsigned] at h
    obtain ⟨nonce, hmade⟩ := Ecdsa.made_of_sign? hsigned
    exact ⟨signed, k, nonce, (Except.ok.inj h).symm, hmade⟩

/-- With a nonce, a message is not signed exactly if a number of the signature would be zero. -/
theorem sign_eq_error_iff {pair : KeyPair} {message : Bytes} {k : Scalar} {nonce : Point}
    (hk : Nonce.generate? pair.secret (Signature.hash message) = some k)
    (hnonce : Point.scale k generator = some nonce) :
    (∃ f, pair.sign message = .error f) ↔
      Scalar.ofNat nonce.x.val = 0
        ∨ Scalar.inverse k * (Signature.hash message + Scalar.ofNat nonce.x.val * pair.secret) = 0 := by
  rw [sign_eq hk, signWith, Ecdsa.sign?_eq hnonce]
  by_cases hzero : Scalar.ofNat nonce.x.val = 0
      ∨ Scalar.inverse k * (Signature.hash message + Scalar.ofNat nonce.x.val * pair.secret) = 0
  · rw [if_pos hzero]
    exact iff_of_true ⟨_, rfl⟩ hzero
  · rw [if_neg hzero]
    refine iff_of_false ?_ hzero
    rintro ⟨f, h⟩
    cases h

/-- A signature of a message that is as good as the key pair: its numbers are scalars other than zero, its
recovery id is one, the address of the key pair is recovered from it, and its public key verifies it. -/
structure HasSigned (pair : KeyPair) (message : Bytes) (a : Signature) : Prop where
  r : 0 < a.r.toNat ∧ a.r.toNat < order
  s : 0 < a.s.toNat ∧ a.s.toNat < order
  recoveryId : a.recoveryId ≤ 3
  recovers : a.recoverAddress message = .ok pair.address
  verifies : a.verify message pair.publicKey = .ok ()

theorem hasSigned_of_made {pair : KeyPair} {message : Bytes} {signed : Ecdsa.Signed} {k : Scalar}
    {nonce : Point} (h : Ecdsa.Made pair.secret (Signature.hash message) signed k nonce) :
    pair.HasSigned message (Signature.ofSigned signed) := by
  -- before it is used, the signature is lowered
  have hnormalize := Signature.normalize_ofSigned h.r_ne_zero h.s_ne_zero
  have hlow := Ecdsa.isHigh_lower h.s_ne_zero
  obtain ⟨k', nonce', hlower⟩ := h.lower
  refine ⟨?_, ?_, RecoveryId.toUInt8_le _, ?_, ?_⟩
  · rw [Signature.ofSigned, Signature.toNat_ofNat_val]
    exact ⟨Scalar.val_pos h.r_ne_zero, signed.r.isLt⟩
  · rw [Signature.ofSigned, Signature.toNat_ofNat_val]
    exact ⟨Scalar.val_pos h.s_ne_zero, signed.s.isLt⟩
  · exact Signature.recoverAddress_eq_ok_iff.mpr
      ⟨signed.lower, pair.publicKey, hnormalize, hlower.recover? hlow pair.scale_secret, rfl⟩
  · exact Signature.verify_eq_ok_of_normalize hnormalize (hlower.verify hlow pair.scale_secret)

/-- Whatever a key pair signs recovers to its address and verifies under its public key, which is the multiple
of the generator by the secret. With a nonce, which is not zero and so has a nonce point, a message is not
signed exactly if a number of the signature would be zero. -/
theorem sign_recovers (pair : KeyPair) (message : Bytes) :
    Point.scale pair.secret generator = some pair.publicKey
    ∧ (∀ a, pair.sign message = .ok a → pair.HasSigned message a)
    ∧ ∀ k, Nonce.generate? pair.secret (Signature.hash message) = some k →
      ∃ nonce, Point.scale k generator = some nonce
        ∧ ((∃ f, pair.sign message = .error f) ↔
          Scalar.ofNat nonce.x.val = 0
            ∨ Scalar.inverse k
              * (Signature.hash message + Scalar.ofNat nonce.x.val * pair.secret) = 0) := by
  refine ⟨pair.scale_secret, fun a h => ?_, fun k hk => ?_⟩
  · obtain ⟨signed, k, nonce, rfl, hmade⟩ := exists_made_of_sign h
    exact hasSigned_of_made hmade
  · obtain ⟨nonce, hnonce⟩ := Point.exists_scale_eq_some (Nonce.ne_zero_of_generate? hk) generator
    exact ⟨nonce, hnonce, sign_eq_error_iff hk hnonce⟩

/-- A signature whose `s` is in the upper half. -/
theorem sign_recovers_high :
    let pair : KeyPair := ⟨1, by decide⟩
    let message := Bytes.ofString "c"
    let s : BitVec 256 := 0x95b6ce58e7120f781610d3ed40c98de49efb5865c9bb0f1b15ebd85cdf8acd05
    ∃ a, pair.sign message = .ok a ∧ a.s = s ∧ order / 2 < s.toNat ∧ pair.HasSigned message a := by
  intro pair message s
  have hs : (pair.sign message).toOption.map Signature.s = some s := by decide +kernel
  cases h : pair.sign message with
  | error f =>
    rw [h] at hs
    cases hs
  | ok a =>
    rw [h] at hs
    exact ⟨a, rfl, Option.some.inj hs, by decide, (sign_recovers pair message).2.1 a h⟩

end KeyPair

end DidToken
