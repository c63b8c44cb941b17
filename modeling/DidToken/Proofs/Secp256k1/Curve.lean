import DidToken.Proofs.Secp256k1.Field
import DidToken.Secp256k1.Point
import Mathlib.AlgebraicGeometry.EllipticCurve.Affine.Point
/-!
# Points and their sums

Points are points of the elliptic curve `y² = x³ + 7` over the field of coordinates, whose points form a
group. Jacobian coordinates denote a point of this group (`Jacobian.Denotes`). Doubling and adding denote the
sum of what is doubled and added (`Denotes.double`, `Denotes.add`), multiplying denotes the multiple
(`Denotes.multiply`), and the point that is read off is the one that is denoted (`Denotes.value_toPoint?`).
-/

namespace DidToken.Secp256k1

open WeierstrassCurve

/-- The curve over the field of coordinates. -/
def curve : Affine (ZMod fieldSize) where
  a₁ := 0
  a₂ := 0
  a₃ := 0
  a₄ := 0
  a₆ := 7

theorem curve_equation_iff {x y : ZMod fieldSize} : curve.Equation x y ↔ y * y = x * x * x + 7 := by
  rw [Affine.equation_iff]
  simp only [curve]
  constructor
  · intro h
    linear_combination h
  · intro h
    linear_combination h

theorem negY_curve (x y : ZMod fieldSize) : curve.negY x y = -y := by
  simp only [Affine.negY, curve]
  ring

theorem addX_curve (x x' ℓ : ZMod fieldSize) : curve.addX x x' ℓ = ℓ ^ 2 - x - x' := by
  simp only [Affine.addX, curve]
  ring

theorem addY_curve (x x' y ℓ : ZMod fieldSize) :
    curve.addY x x' y ℓ = ℓ * (x - curve.addX x x' ℓ) - y := by
  rw [Affine.addY, negY_curve, Affine.negAddY]
  ring

/-- The slope of the tangent. -/
theorem mul_slope_self {x y : ZMod fieldSize} (h : 2 * y ≠ 0) :
    2 * y * curve.slope x x y y = 3 * x ^ 2 := by
  have hdifference : y - curve.negY x y = 2 * y := by
    rw [negY_curve]
    ring
  have hne : y ≠ curve.negY x y := fun heq => h (by rw [← hdifference, sub_eq_zero.mpr heq])
  rw [Affine.slope_of_Y_ne rfl hne, hdifference, mul_div_cancel₀ _ h]
  simp only [curve]
  ring

/-- The slope of the chord. -/
theorem mul_slope {x x' : ZMod fieldSize} (h : x ≠ x') (y y' : ZMod fieldSize) :
    (x' - x) * curve.slope x x' y y' = y' - y := by
  have hne : x - x' ≠ 0 := sub_ne_zero.mpr h
  rw [Affine.slope_of_X_ne h, ← neg_sub x x', neg_mul, mul_div_cancel₀ _ hne, neg_sub]

theorem curve_Δ_ne_zero : curve.Δ ≠ 0 := by
  have hΔ : curve.Δ = residue (-21168 : Coordinate) := by
    simp only [WeierstrassCurve.Δ, WeierstrassCurve.b₂, WeierstrassCurve.b₄, WeierstrassCurve.b₆,
      WeierstrassCurve.b₈, curve, residue_neg, residue_ofNat]
    ring
  rw [hΔ, Ne, residue_eq_zero_iff]
  decide +kernel

theorem curve_nonsingular {x y : ZMod fieldSize} (h : y * y = x * x * x + 7) : curve.Nonsingular x y :=
  (Affine.equation_iff_nonsingular_of_Δ_ne_zero curve_Δ_ne_zero).mp (curve_equation_iff.mpr h)

/-! ### Points -/

namespace Point

theorem residue_onCurve (a : Point) :
    residue a.y * residue a.y = residue a.x * residue a.x * residue a.x + 7 := by
  have h := congrArg residue a.onCurve
  simpa only [residue_add, residue_mul, residue_ofNat] using h

/-- The point as one of the curve. -/
def toCurve (a : Point) : curve.Point :=
  .some (residue a.x) (residue a.y) (curve_nonsingular a.residue_onCurve)

theorem toCurve_ne_zero (a : Point) : a.toCurve ≠ 0 :=
  Affine.Point.some_ne_zero _

theorem toCurve_injective : Function.Injective toCurve := by
  intro a b h
  obtain ⟨hx, hy⟩ := (Affine.Point.some.injEq ..).mp h
  cases a
  cases b
  cases residue_inj.mp hx
  cases residue_inj.mp hy
  rfl

/-- The opposite point. -/
def neg (a : Point) : Point where
  x := a.x
  y := -a.y
  onCurve := by
    rw [← residue_inj]
    simp only [residue_mul, residue_add, residue_ofNat, neg_mul_neg]
    exact a.residue_onCurve

theorem toCurve_neg (a : Point) : a.neg.toCurve = -a.toCurve := by
  simp only [toCurve, neg, residue_neg, Affine.Point.neg_some, negY_curve]

/-- The point of the curve that an optional point stands for. -/
def value : Option Point → curve.Point
  | none => 0
  | some a => a.toCurve

theorem value_injective : Function.Injective value := by
  rintro (_ | a) (_ | b) h
  · rfl
  · exact absurd h.symm b.toCurve_ne_zero
  · exact absurd h a.toCurve_ne_zero
  · rw [toCurve_injective h]

theorem value_ofCoordinates? {x y : Coordinate} (h : curve.Nonsingular (residue x) (residue y)) :
    value (ofCoordinates? x y) = .some (residue x) (residue y) h := by
  have hcurve : y * y = x * x * x + 7 := by
    rw [← residue_inj]
    simp only [residue_mul, residue_add, residue_ofNat]
    exact curve_equation_iff.mp h.1
  rw [ofCoordinates?, dif_pos hcurve]
  rfl

/-- Every point of the curve is one that optional points stand for. -/
theorem exists_value_eq (P : curve.Point) : ∃ a, value a = P := by
  cases P with
  | zero => exact ⟨none, rfl⟩
  | some x y h =>
    obtain ⟨u, rfl⟩ := exists_residue_eq x
    obtain ⟨v, rfl⟩ := exists_residue_eq y
    exact ⟨ofCoordinates? u v, value_ofCoordinates? h⟩

end Point

/-! ### Jacobian coordinates -/

namespace Jacobian

variable {a b : Jacobian} {P Q : curve.Point} {x y x' y' ℓ : ZMod fieldSize}

/-- The coordinates stand for the finite point with these coordinates. -/
structure IsAt (a : Jacobian) (x y : ZMod fieldSize) : Prop where
  z_ne_zero : residue a.z ≠ 0
  x_eq : residue a.x = x * residue a.z ^ 2
  y_eq : residue a.y = y * residue a.z ^ 3

/-- The coordinates stand for the point of the curve. -/
inductive Denotes (a : Jacobian) : curve.Point → Prop
  | zero (hz : a.z = 0) : Denotes a 0
  | finite {x y : ZMod fieldSize} (h : curve.Nonsingular x y) (hat : a.IsAt x y) : Denotes a (.some x y h)

theorem IsAt.ne_zero (h : a.IsAt x y) : a.z ≠ 0 := fun hz =>
  h.z_ne_zero (residue_eq_zero_iff.mpr hz)

theorem Denotes.eq_zero (h : a.Denotes P) (hz : a.z = 0) : P = 0 := by
  cases h with
  | zero _ => rfl
  | finite _ hat => exact absurd hz hat.ne_zero

theorem denotes_ofPoint (a : Point) : (ofPoint a).Denotes a.toCurve := by
  have hz : residue (ofPoint a).z = 1 := residue_one
  refine .finite _ ⟨?_, ?_, ?_⟩
  · rw [hz]
    exact one_ne_zero
  · rw [hz, one_pow, mul_one, ofPoint]
  · rw [hz, one_pow, mul_one, ofPoint]

/-! ### Doubling -/

theorem IsAt.double_z (h : a.IsAt x y) : residue a.double.z = 2 * y * residue a.z ^ 4 := by
  simp only [Jacobian.double, residue_mul, residue_ofNat, h.y_eq]
  ring

/-- Doubling goes along the tangent. -/
theorem IsAt.double (h : a.IsAt x y) (hy : 2 * y ≠ 0) (hslope : 2 * y * ℓ = 3 * x ^ 2) :
    a.double.IsAt (curve.addX x x ℓ) (curve.addY x x y ℓ) := by
  have htangent : 3 * (residue a.x * residue a.x) = 2 * y * ℓ * residue a.z ^ 4 := by
    rw [h.x_eq]
    linear_combination -residue a.z ^ 4 * hslope
  have hx : residue a.double.x = curve.addX x x ℓ * residue a.double.z ^ 2 := by
    rw [h.double_z, addX_curve]
    simp only [Jacobian.double, residue_mul, residue_sub, residue_ofNat]
    rw [htangent, h.x_eq, h.y_eq]
    ring
  have hy' : residue a.double.y = 2 * y * ℓ * residue a.z ^ 4
      * (4 * (residue a.x * (residue a.y * residue a.y)) - residue a.double.x)
        - 8 * (residue a.y * residue a.y * (residue a.y * residue a.y)) := by
    rw [← htangent]
    simp only [Jacobian.double, residue_mul, residue_sub, residue_ofNat]
  refine ⟨?_, hx, ?_⟩
  · rw [h.double_z]
    exact mul_ne_zero hy (pow_ne_zero 4 h.z_ne_zero)
  · rw [hy', hx, h.double_z, addY_curve, h.x_eq, h.y_eq]
    ring

theorem Denotes.double (h : a.Denotes P) : a.double.Denotes (P + P) := by
  cases h with
  | zero hz =>
    rw [add_zero]
    refine .zero ?_
    rw [← residue_eq_zero_iff] at hz ⊢
    simp only [Jacobian.double, residue_mul, hz, mul_zero]
  | @finite x y h hat =>
    have hvertical : y = curve.negY x y ↔ 2 * y = 0 := by
      rw [negY_curve, eq_neg_iff_add_eq_zero, two_mul]
    by_cases htwo : 2 * y = 0
    · rw [Affine.Point.add_self_of_Y_eq (hvertical.mpr htwo)]
      refine .zero (residue_eq_zero_iff.mp ?_)
      rw [hat.double_z, htwo, zero_mul]
    · rw [Affine.Point.add_self_of_Y_ne (fun hy => htwo (hvertical.mp hy))]
      exact .finite _ (hat.double htwo (mul_slope_self htwo))

/-! ### Sums -/

/-- The difference of the first coordinates of two points, over their common denominator. -/
def run (a b : Jacobian) : Coordinate :=
  b.x * (a.z * a.z) - a.x * (b.z * b.z)

/-- The difference of the second coordinates of two points, over their common denominator. -/
def rise (a b : Jacobian) : Coordinate :=
  b.y * (a.z * a.z * a.z) - a.y * (b.z * b.z * b.z)

/-- The sum by the chord. -/
def chord (a b : Jacobian) : Jacobian :=
  let hh := run a b * run a b
  let hhh := hh * run a b
  let v := a.x * (b.z * b.z) * hh
  let x := rise a b * rise a b - hhh - 2 * v
  ⟨x, rise a b * (v - x) - a.y * (b.z * b.z * b.z) * hhh, run a b * (a.z * b.z)⟩

theorem add_eq (a b : Jacobian) :
    a.add b = if a.z = 0 then b else if b.z = 0 then a
      else if run a b = 0 then if rise a b = 0 then a.double else zero else chord a b := rfl

theorem IsAt.residue_run (h : a.IsAt x y) (h' : b.IsAt x' y') :
    residue (run a b) = (x' - x) * (residue a.z * residue b.z) ^ 2 := by
  simp only [run, residue_sub, residue_mul, h.x_eq, h'.x_eq]
  ring

theorem IsAt.residue_rise (h : a.IsAt x y) (h' : b.IsAt x' y') :
    residue (rise a b) = (y' - y) * (residue a.z * residue b.z) ^ 3 := by
  simp only [rise, residue_sub, residue_mul, h.y_eq, h'.y_eq]
  ring

theorem IsAt.run_eq_zero_iff (h : a.IsAt x y) (h' : b.IsAt x' y') : run a b = 0 ↔ x = x' := by
  have hz := mul_ne_zero h.z_ne_zero h'.z_ne_zero
  rw [← residue_eq_zero_iff, h.residue_run h', mul_eq_zero_iff_right (pow_ne_zero 2 hz), sub_eq_zero,
    eq_comm]

theorem IsAt.rise_eq_zero_iff (h : a.IsAt x y) (h' : b.IsAt x' y') : rise a b = 0 ↔ y = y' := by
  have hz := mul_ne_zero h.z_ne_zero h'.z_ne_zero
  rw [← residue_eq_zero_iff, h.residue_rise h', mul_eq_zero_iff_right (pow_ne_zero 3 hz), sub_eq_zero,
    eq_comm]

theorem IsAt.chord (h : a.IsAt x y) (h' : b.IsAt x' y') (hne : x ≠ x') (hslope : (x' - x) * ℓ = y' - y) :
    (chord a b).IsAt (curve.addX x x' ℓ) (curve.addY x x' y ℓ) := by
  have hrun := h.residue_run h'
  -- the rise is the slope times the run
  have hrise : residue (rise a b) = ℓ * residue (run a b) * (residue a.z * residue b.z) := by
    rw [h.residue_rise h', hrun]
    linear_combination -(residue a.z * residue b.z) ^ 3 * hslope
  have hz : residue (Jacobian.chord a b).z = residue (run a b) * (residue a.z * residue b.z) := by
    simp only [Jacobian.chord, residue_mul]
  have hx : residue (Jacobian.chord a b).x = curve.addX x x' ℓ * residue (Jacobian.chord a b).z ^ 2 := by
    simp only [addX_curve, Jacobian.chord, residue_sub, residue_mul, residue_ofNat, hrise, h.x_eq]
    linear_combination -residue (run a b) ^ 2 * hrun
  have hy : residue (Jacobian.chord a b).y = residue (rise a b)
      * (residue a.x * (residue b.z * residue b.z) * (residue (run a b) * residue (run a b))
        - residue (Jacobian.chord a b).x)
        - residue a.y * (residue b.z * residue b.z * residue b.z)
          * (residue (run a b) * residue (run a b) * residue (run a b)) := by
    simp only [Jacobian.chord, residue_sub, residue_mul, residue_ofNat]
  refine ⟨?_, hx, ?_⟩
  · rw [hz]
    refine mul_ne_zero ?_ (mul_ne_zero h.z_ne_zero h'.z_ne_zero)
    exact fun hzero => hne ((h.run_eq_zero_iff h').mp (residue_eq_zero_iff.mp hzero))
  · rw [hy, hrise, hx, hz, addY_curve, h.x_eq, h.y_eq]
    ring

theorem Denotes.add (hP : a.Denotes P) (hQ : b.Denotes Q) : (a.add b).Denotes (P + Q) := by
  rw [add_eq]
  cases hP with
  | zero hz =>
    rw [zero_add, if_pos hz]
    exact hQ
  | @finite x y h hat =>
    rw [if_neg hat.ne_zero]
    cases hQ with
    | zero hz' =>
      rw [add_zero, if_pos hz']
      exact .finite h hat
    | @finite x' y' h' hat' =>
      rw [if_neg hat'.ne_zero]
      by_cases hx : x = x'
      · rw [if_pos ((hat.run_eq_zero_iff hat').mpr hx)]
        subst hx
        by_cases hy : y = y'
        · -- the points are equal
          rw [if_pos ((hat.rise_eq_zero_iff hat').mpr hy)]
          subst hy
          exact Denotes.double (.finite h hat)
        · -- the points are opposite
          rw [if_neg (fun hrise => hy ((hat.rise_eq_zero_iff hat').mp hrise)),
            Affine.Point.add_of_Y_eq rfl ((Affine.Y_eq_of_X_eq h.1 h'.1 rfl).resolve_left hy)]
          exact .zero rfl
      · rw [if_neg (fun hrun => hx ((hat.run_eq_zero_iff hat').mp hrun)), Affine.Point.add_of_X_ne hx]
        exact .finite _ (hat.chord hat' hx (mul_slope hx y y'))

/-! ### Multiples -/

theorem Denotes.multiply (h : a.Denotes P) {width k : Nat} (hk : k < 2 ^ width) :
    (a.multiply width k).Denotes (k • P) := by
  induction width generalizing k with
  | zero =>
    obtain rfl : k = 0 := by omega
    rw [zero_nsmul]
    exact .zero rfl
  | succ w ih =>
    have hhalf : k / 2 < 2 ^ w := by
      rw [Nat.pow_succ] at hk
      omega
    have htwice := (ih hhalf).double
    rw [← add_nsmul] at htwice
    rw [Jacobian.multiply]
    by_cases hodd : k % 2 = 1
    · have hsum := htwice.add h
      have hk' : k / 2 + k / 2 + 1 = k := by omega
      rw [← succ_nsmul, hk'] at hsum
      simpa only [if_pos hodd] using hsum
    · have hk' : k / 2 + k / 2 = k := by omega
      rw [hk'] at htwice
      simpa only [if_neg hodd] using htwice

/-- The point that is read off is the one that the coordinates stand for. -/
theorem Denotes.value_toPoint? (h : a.Denotes P) : Point.value a.toPoint? = P := by
  cases h with
  | zero hz =>
    rw [toPoint?, if_pos hz]
    rfl
  | @finite x y h hat =>
    rw [toPoint?, if_neg hat.ne_zero]
    have hz := hat.z_ne_zero
    have hx' : residue (a.x * (Coordinate.inverse a.z * Coordinate.inverse a.z)) = x := by
      simp only [residue_mul, residue_coordinateInverse, hat.x_eq]
      field_simp
    have hy' : residue (a.y * (Coordinate.inverse a.z * Coordinate.inverse a.z * Coordinate.inverse a.z))
        = y := by
      simp only [residue_mul, residue_coordinateInverse, hat.y_eq]
      field_simp
    subst hx' hy'
    exact Point.value_ofCoordinates? h

end Jacobian

end DidToken.Secp256k1
