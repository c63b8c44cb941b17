import DidToken.Proofs.Secp256k1.Ecdsa
import Mathlib.Tactic.Module
/-!
# Recovering keys

Checking a signature under a key arrives at a point, its nonce point under that key (`Ecdsa.nonceUnder?`).
Signature and nonce point determine the key again (`Ecdsa.nonceUnder?_eq_some_iff`), and the nonce point is
one of those that recovery ids name, each by one id (`Ecdsa.noncePoint?_eq_some_iff`). So the key that is
recovered with an id is the one under which the signature verifies with the nonce point that the id names,
and every key under which it verifies is recovered with one id (`Ecdsa.recover?_eq_some_iff`).
-/

namespace DidToken.Secp256k1

/-- The id that names a nonce point. -/
def RecoveryId.ofPoint (nonce : Point) : RecoveryId :=
  ⟨isOdd nonce.y, order ≤ nonce.x.val⟩

theorem Point.combine_eq_some_iff {j k : Scalar} {a b c : Point} :
    combine j a k b = some c ↔ residue j • a.toCurve + residue k • b.toCurve = c.toCurve := by
  rw [← value_combine]
  constructor
  · intro h
    rw [h]
    rfl
  · exact fun h => value_injective h

theorem val_of_ofNat? {k : Nat} {x : Coordinate} (h : Coordinate.ofNat? k = some x) : x.val = k := by
  rw [Coordinate.ofNat?] at h
  split at h
  · cases h
    rfl
  · cases h

namespace Ecdsa

variable {z r s : Scalar} {a : Signed} {nonce key : Point}

/-- The nonce point of a signature of `z`, as a key has it. -/
def nonceUnder? (key : Point) (z r s : Scalar) : Option Point :=
  Point.combine (z * Scalar.inverse s) generator (r * Scalar.inverse s) key

theorem verify_eq_true_iff :
    verify key z r s = true ↔
      s.isHigh = false ∧ ∃ nonce, nonceUnder? key z r s = some nonce ∧ Scalar.ofNat nonce.x.val = r := by
  rw [verify, Bool.and_eq_true, Bool.not_eq_true']
  refine and_congr_right fun _ => ?_
  rw [← nonceUnder?]
  cases nonceUnder? key z r s with
  | none =>
    constructor
    · intro h
      cases h
    · rintro ⟨nonce, hnonce, -⟩
      cases hnonce
  | some nonce =>
    dsimp only
    rw [decide_eq_true_eq]
    constructor
    · exact fun h => ⟨nonce, rfl, h⟩
    · rintro ⟨nonce', hnonce, h⟩
      cases hnonce
      exact h

/-- A signature relates key and nonce point one to one. -/
theorem nonceUnder?_eq_some_iff (hr : r ≠ 0) (hs : s ≠ 0) :
    nonceUnder? key z r s = some nonce ↔
      Point.combine (-(Scalar.inverse r * z)) generator (Scalar.inverse r * s) nonce = some key := by
  have hr' : residue r ≠ 0 := fun hzero => hr (residue_eq_zero_iff.mp hzero)
  have hs' : residue s ≠ 0 := fun hzero => hs (residue_eq_zero_iff.mp hzero)
  rw [nonceUnder?, Point.combine_eq_some_iff, Point.combine_eq_some_iff]
  simp only [residue_mul, residue_neg, residue_scalarInverse]
  constructor
  · intro h
    rw [← h]
    match_scalars <;> field_simp
    ring
  · intro h
    rw [← h]
    match_scalars <;> field_simp
    ring

/-- A nonce point is named by its own id, and only as one whose first coordinate is `r` modulo the order. -/
theorem noncePoint?_eq_some_iff {id : RecoveryId} :
    noncePoint? r id = some nonce ↔ Scalar.ofNat nonce.x.val = r ∧ RecoveryId.ofPoint nonce = id := by
  constructor
  · intro h
    rw [noncePoint?, Option.bind_eq_bind, Option.bind_eq_some_iff] at h
    obtain ⟨x, hx, hlift⟩ := h
    obtain ⟨rfl, hodd⟩ := Point.lift?_eq_some_iff.mp hlift
    have hval := val_of_ofNat? hx
    have hlt := r.isLt
    obtain ⟨isYOdd, isXReduced⟩ := id
    cases isXReduced with
    | false =>
      rw [if_neg Bool.false_ne_true] at hval
      have hsmall : ¬order ≤ nonce.x.val := by omega
      rw [RecoveryId.ofPoint, hodd, decide_eq_false hsmall, hval]
      exact ⟨Fin.ofNat_val_eq_self r, rfl⟩
    | true =>
      rw [if_pos rfl] at hval
      have hlarge : order ≤ nonce.x.val := by omega
      rw [RecoveryId.ofPoint, hodd, decide_eq_true hlarge, hval]
      refine ⟨Fin.ext ?_, rfl⟩
      show (r.val + order) % order = r.val
      rw [Nat.add_mod_right, Nat.mod_eq_of_lt hlt]
  · rintro ⟨rfl, rfl⟩
    exact noncePoint?_ofNat nonce

theorem recover?_eq_some_iff (hr : a.r ≠ 0) (hs : a.s ≠ 0) :
    recover? z a = some key ↔
      verify key z a.r a.s = true
        ∧ ∃ nonce, nonceUnder? key z a.r a.s = some nonce ∧ RecoveryId.ofPoint nonce = a.recoveryId := by
  rw [recover?, Option.bind_eq_bind, Option.bind_eq_some_iff]
  constructor
  · rintro ⟨nonce, hnonce, h⟩
    obtain ⟨found, hcombine, h⟩ := Option.bind_eq_some_iff.mp h
    split at h
    · next hverify =>
      cases h
      exact ⟨hverify, nonce, (nonceUnder?_eq_some_iff hr hs).mpr hcombine,
        (noncePoint?_eq_some_iff.mp hnonce).2⟩
    · cases h
  · rintro ⟨hverify, nonce, hnonce, hid⟩
    obtain ⟨-, nonce', hnonce', hx⟩ := verify_eq_true_iff.mp hverify
    rw [hnonce] at hnonce'
    cases hnonce'
    exact ⟨nonce, noncePoint?_eq_some_iff.mpr ⟨hx, hid⟩, Option.bind_eq_some_iff.mpr
      ⟨key, (nonceUnder?_eq_some_iff hr hs).mp hnonce, if_pos hverify⟩⟩

end Ecdsa

end DidToken.Secp256k1
