import DidToken.Proofs.Secp256k1.Curve
import Mathlib.Algebra.Module.ZMod
import Mathlib.GroupTheory.OrderOfElement
import Mathlib.GroupTheory.Perm.Cycle.Type
/-!
# The order of the group

The multiple of the generator by the order is zero, as computing it shows, and the order is prime; so it is
the order of the generator and divides the number of points. There are at most two points to each first
coordinate, which leaves one or two times the order; but no point is its own opposite, since seven is not the
opposite of a cube, so that the number of points is odd. Hence every multiple by the order is zero
(`order_nsmul`), and the points are a vector space over the scalars.
-/

namespace DidToken.Secp256k1

open WeierstrassCurve

/-! ### The generator -/

theorem order_nsmul_generator : order • generator.toCurve = 0 := by
  have hdenotes : ((Jacobian.ofPoint generator).multiply 256 order).Denotes (order • generator.toCurve) :=
    (Jacobian.denotes_ofPoint generator).multiply (by decide)
  have hz : ((Jacobian.ofPoint generator).multiply 256 order).z = 0 := by decide +kernel
  exact hdenotes.eq_zero hz

theorem addOrderOf_generator : addOrderOf generator.toCurve = order :=
  addOrderOf_eq_prime order_nsmul_generator generator.toCurve_ne_zero

/-! ### The number of points -/

/-- The exponent that makes all coordinates one makes all cubes one when divided by three, but not the
opposite of seven. -/
theorem cube_add_seven_ne_zero (x : ZMod fieldSize) : x * x * x + 7 ≠ 0 := by
  intro h
  have hseven : residue (7 : Coordinate) ≠ 0 := by
    rw [Ne, residue_eq_zero_iff]
    decide
  have hx : x ≠ 0 := by
    rintro rfl
    rw [residue_ofNat] at hseven
    exact hseven (by linear_combination h)
  have hcube : residue (-7 : Coordinate) = x ^ 3 := by
    rw [residue_neg, residue_ofNat]
    linear_combination -h
  have hthird : 3 * ((fieldSize - 1) / 3) = fieldSize - 1 := by decide
  have hone : residue (power (-7 : Coordinate) 256 ((fieldSize - 1) / 3)) = 1 := by
    rw [residue_power _ (by decide), hcube, ← pow_mul, hthird, ZMod.pow_card_sub_one_eq_one hx]
  rw [← residue_one, residue_inj] at hone
  revert hone
  decide +kernel

theorem two_ne_zero_base : (2 : ZMod fieldSize) ≠ 0 := by
  rw [← residue_ofNat 2, Ne, residue_eq_zero_iff]
  decide

/-- No point is its own opposite. -/
theorem add_self_ne_zero {P : curve.Point} (h : P ≠ 0) : P + P ≠ 0 := by
  cases P with
  | zero => exact absurd rfl h
  | some x y hcurve =>
    intro hsum
    rw [add_eq_zero_iff_eq_neg, Affine.Point.neg_some, Affine.Point.some.injEq, negY_curve] at hsum
    have hy : y = 0 := by
      have htwice : 2 * y = 0 := by linear_combination hsum.2
      exact (mul_eq_zero.mp htwice).resolve_left two_ne_zero_base
    have hequation := curve_equation_iff.mp hcurve.1
    rw [hy, mul_zero] at hequation
    exact cube_add_seven_ne_zero x hequation.symm

/-- A point is known from its first coordinate and the parity of the second one. -/
theorem Point.injective_isOdd : Function.Injective fun a : Point => (a.x, isOdd a.y) := by
  intro a b h
  obtain ⟨hx, hodd⟩ := Prod.mk.inj h
  have hsquare : a.y * a.y = b.y * b.y := by rw [a.onCurve, b.onCurve, hx]
  have hy := eq_of_mul_self_eq hsquare hodd
  cases a
  cases b
  cases hx
  cases hy
  rfl

instance : Finite Point :=
  Finite.of_injective _ Point.injective_isOdd

instance : Finite curve.Point :=
  Finite.of_surjective Point.value Point.exists_value_eq

theorem card_le : Nat.card curve.Point ≤ 2 * fieldSize + 1 := by
  have hpoints : Nat.card Point ≤ Nat.card (Coordinate × Bool) :=
    Nat.card_le_card_of_injective _ Point.injective_isOdd
  have hvalues : Nat.card curve.Point ≤ Nat.card (Option Point) :=
    Nat.card_le_card_of_surjective Point.value Point.exists_value_eq
  have hbool : Nat.card Bool = 2 := by rw [Nat.card_eq_fintype_card, Fintype.card_bool]
  rw [Nat.card_prod, Nat.card_fin, hbool] at hpoints
  rw [Finite.card_option] at hvalues
  omega

theorem card_points : Nat.card curve.Point = order := by
  obtain ⟨m, hm⟩ : order ∣ Nat.card curve.Point := addOrderOf_generator ▸ addOrderOf_dvd_natCard _
  have hpos : 0 < Nat.card curve.Point := Nat.card_pos
  have hle := card_le
  have hbound : 2 * fieldSize + 1 < 3 * order := by decide
  have hm3 : m < 3 := by
    by_contra hge
    have : order * 3 ≤ order * m := Nat.mul_le_mul_left order (by omega)
    omega
  have hm0 : m ≠ 0 := by
    rintro rfl
    omega
  have hm2 : m ≠ 2 := by
    rintro rfl
    -- then some point is its own opposite
    obtain ⟨P, hP⟩ := exists_prime_addOrderOf_dvd_card' 2 (hm ▸ Nat.dvd_mul_left 2 order)
    have hne : P ≠ 0 := by
      rintro rfl
      rw [addOrderOf_zero] at hP
      cases hP
    have htwice := addOrderOf_nsmul_eq_zero P
    rw [hP, two_nsmul] at htwice
    exact add_self_ne_zero hne htwice
  obtain rfl : m = 1 := by omega
  rw [hm, mul_one]

theorem order_nsmul (P : curve.Point) : order • P = 0 := by
  rw [← card_points]
  exact card_nsmul_eq_zero'

/-! ### Multiples by scalars -/

noncomputable instance : Module (ZMod order) curve.Point :=
  AddCommGroup.zmodModule order_nsmul

theorem residue_smul (k : Scalar) (P : curve.Point) : residue k • P = k.val • P :=
  Nat.cast_smul_eq_nsmul (ZMod order) k.val P

theorem Jacobian.denotes_scale (k : Scalar) (a : Point) :
    (Jacobian.scale k a).Denotes (residue k • a.toCurve) := by
  have hk : k.val < 2 ^ 256 := k.isLt.trans (by decide)
  rw [residue_smul]
  exact (Jacobian.denotes_ofPoint a).multiply hk

namespace Point

theorem value_scale (k : Scalar) (a : Point) : value (scale k a) = residue k • a.toCurve :=
  (Jacobian.denotes_scale k a).value_toPoint?

theorem value_combine (j : Scalar) (a : Point) (k : Scalar) (b : Point) :
    value (combine j a k b) = residue j • a.toCurve + residue k • b.toCurve :=
  ((Jacobian.denotes_scale j a).add (Jacobian.denotes_scale k b)).value_toPoint?

theorem toCurve_of_scale {k : Scalar} {a b : Point} (h : scale k a = some b) :
    b.toCurve = residue k • a.toCurve := by
  rw [← value_scale, h]
  rfl

/-- A multiple by a scalar other than zero is finite. -/
theorem exists_scale_eq_some {k : Scalar} (h : k ≠ 0) (a : Point) : ∃ b, scale k a = some b := by
  have hne : value (scale k a) ≠ 0 := by
    rw [value_scale]
    exact smul_ne_zero (fun hzero => h (residue_eq_zero_iff.mp hzero)) a.toCurve_ne_zero
  cases hscale : scale k a with
  | none =>
    rw [hscale] at hne
    exact absurd rfl hne
  | some b => exact ⟨b, rfl⟩

end Point

end DidToken.Secp256k1
