import DidToken.Secp256k1.Field
import Mathlib.Data.ZMod.Basic
import Mathlib.FieldTheory.Finite.Basic
/-!
# Residues

Coordinates and scalars are computed with as numbers below a modulus. The residue class of such a number
determines it (`residue_inj`), and classes are added and multiplied as the numbers are, so that what holds in
the ring of residues, which is a field if the modulus is prime, holds of the numbers. The power that squaring
gives is the power of the class (`residue_power`).
-/

namespace DidToken.Secp256k1

variable {n : Nat}

/-- The residue class of a number below the modulus. -/
def residue (x : Fin n) : ZMod n :=
  (x.val : ZMod n)

theorem residue_inj {x y : Fin n} : residue x = residue y ↔ x = y := by
  constructor
  · intro h
    have hval := congrArg ZMod.val h
    rw [residue, residue, ZMod.val_natCast_of_lt x.isLt, ZMod.val_natCast_of_lt y.isLt] at hval
    exact Fin.ext hval
  · rintro rfl
    rfl

/-! ### Sums and products -/

@[simp] theorem residue_add (x y : Fin n) : residue (x + y) = residue x + residue y := by
  rw [residue, Fin.val_add, ZMod.natCast_mod, Nat.cast_add]
  rfl

@[simp] theorem residue_mul (x y : Fin n) : residue (x * y) = residue x * residue y := by
  rw [residue, Fin.val_mul, ZMod.natCast_mod, Nat.cast_mul]
  rfl

@[simp] theorem residue_neg (x : Fin n) : residue (-x) = -residue x := by
  rw [residue, Fin.val_neg', ZMod.natCast_mod, Nat.cast_sub x.isLt.le, ZMod.natCast_self, zero_sub]
  rfl

@[simp] theorem residue_sub (x y : Fin n) : residue (x - y) = residue x - residue y := by
  rw [residue, Fin.sub_def, ZMod.natCast_mod, Nat.cast_add, Nat.cast_sub y.isLt.le, ZMod.natCast_self,
    zero_sub, neg_add_eq_sub]
  rfl

section

variable [NeZero n]

theorem exists_residue_eq (a : ZMod n) : ∃ x : Fin n, residue x = a :=
  ⟨⟨a.val, ZMod.val_lt a⟩, ZMod.natCast_zmod_val a⟩

/-- A number has the class of its remainder. -/
theorem residue_finOfNat (k : Nat) : residue (Fin.ofNat n k) = (k : ZMod n) :=
  ZMod.natCast_mod k n

@[simp] theorem residue_zero : residue (0 : Fin n) = 0 := by
  show residue (Fin.ofNat n 0) = 0
  rw [residue_finOfNat, Nat.cast_zero]

@[simp] theorem residue_one : residue (1 : Fin n) = 1 := by
  show residue (Fin.ofNat n 1) = 1
  rw [residue_finOfNat, Nat.cast_one]

@[simp] theorem residue_ofNat (k : Nat) [k.AtLeastTwo] :
    residue (ofNat(k) : Fin n) = ofNat(k) :=
  residue_finOfNat k

theorem residue_eq_zero_iff {x : Fin n} : residue x = 0 ↔ x = 0 := by
  rw [← residue_zero, residue_inj]

/-! ### Powers -/

/-- Squaring and multiplying gives the power. -/
theorem residue_power (x : Fin n) {width e : Nat} (h : e < 2 ^ width) :
    residue (power x width e) = residue x ^ e := by
  induction width generalizing e with
  | zero =>
    obtain rfl : e = 0 := by omega
    rw [power, residue_one, pow_zero]
  | succ w ih =>
    have hhalf : e / 2 < 2 ^ w := by
      rw [Nat.pow_succ] at h
      omega
    have hsquare : residue (power x w (e / 2) * power x w (e / 2)) = residue x ^ (2 * (e / 2)) := by
      rw [residue_mul, ih hhalf, ← pow_add, two_mul]
    rw [power]
    split
    · rw [residue_mul, hsquare, ← pow_succ]
      congr 1
      omega
    · rw [hsquare]
      congr 1
      omega

end

/-- By the little theorem, the inverse up to a prime modulus is a power. -/
theorem inv_eq_pow_sub_two [Fact n.Prime] (h : 2 < n) (a : ZMod n) : a⁻¹ = a ^ (n - 2) := by
  by_cases ha : a = 0
  · rw [ha, inv_zero, zero_pow (by omega)]
  · refine inv_eq_of_mul_eq_one_right ?_
    have hexponent : n - 2 + 1 = n - 1 := by omega
    rw [← pow_succ', hexponent, ZMod.pow_card_sub_one_eq_one ha]

end DidToken.Secp256k1
