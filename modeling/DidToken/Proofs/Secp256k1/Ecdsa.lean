import DidToken.Proofs.Secp256k1.Order
import DidToken.Secp256k1.Ecdsa
/-!
# Signing, verifying and recovering

A signature that was made under a secret names its nonce point and solves the equation of the nonce
(`Ecdsa.Made`). Signing makes such signatures (`made_of_sign?`), and the opposite values of `s` and of the
nonce point make another one (`Made.opposite`), so that lowering `s` keeps this (`Made.lower`). Each such
signature with a low `s` verifies under the public key of the secret, and this is the key that is recovered
from it (`Made.verify`, `Made.recover?`).
-/

namespace DidToken.Secp256k1

open WeierstrassCurve

/-! ### Points by parity -/

namespace Point

theorem y_ne_zero (a : Point) : a.y ≠ 0 := by
  intro hy
  have h := a.residue_onCurve
  rw [hy, residue_zero, mul_zero] at h
  exact cube_add_seven_ne_zero (residue a.x) h.symm

theorem ofCoordinates?_self (a : Point) : ofCoordinates? a.x a.y = some a :=
  dif_pos a.onCurve

theorem eq_of_ofCoordinates? {x y : Coordinate} {a : Point} (h : ofCoordinates? x y = some a) :
    a.x = x ∧ a.y = y := by
  rw [ofCoordinates?] at h
  split at h
  · cases h
    exact ⟨rfl, rfl⟩
  · cases h

/-- Lifting finds the point of a first coordinate and a parity. -/
theorem lift?_eq_some_iff {x : Coordinate} {odd : Bool} {a : Point} :
    lift? x odd = some a ↔ a.x = x ∧ isOdd a.y = odd := by
  constructor
  · intro h
    rw [lift?, Option.bind_eq_bind, Option.bind_eq_some_iff] at h
    obtain ⟨y, -, hy⟩ := h
    obtain ⟨hax, hay⟩ := eq_of_ofCoordinates? hy
    refine ⟨hax, ?_⟩
    by_cases hodd : isOdd y = odd
    · rw [hay, if_pos hodd, hodd]
    · rw [if_neg hodd] at hay
      have hyne : y ≠ 0 := by
        rintro rfl
        exact a.y_ne_zero (hay.trans (by decide))
      rw [hay, isOdd_neg hyne]
      exact Bool.not_eq_eq_eq_not.mpr (Bool.eq_not_of_ne hodd)
  · rintro ⟨rfl, rfl⟩
    obtain ⟨w, hw, hroot⟩ := squareRoot?_mul_self a.y
    have hcubic : cubic a.x = a.y * a.y := a.onCurve.symm
    have hy : (if isOdd w = isOdd a.y then w else -w) = a.y := by
      rcases hroot with rfl | rfl
      · exact if_pos rfl
      · rw [isOdd_neg a.y_ne_zero, if_neg (by simp), ← residue_inj, residue_neg, residue_neg, neg_neg]
    rw [lift?, hcubic, hw]
    show ofCoordinates? a.x (if isOdd w = isOdd a.y then w else -w) = some a
    rw [hy, ofCoordinates?_self]

theorem lift?_not {x : Coordinate} {odd : Bool} {a : Point} (h : lift? x odd = some a) :
    lift? x (!odd) = some a.neg := by
  obtain ⟨hx, hodd⟩ := lift?_eq_some_iff.mp h
  refine lift?_eq_some_iff.mpr ⟨hx, ?_⟩
  rw [← hodd]
  exact isOdd_neg a.y_ne_zero

end Point

/-! ### Low values of `s` -/

theorem Scalar.val_pos {s : Scalar} (h : s ≠ 0) : 0 < s.val :=
  Nat.pos_of_ne_zero fun hval => h (Fin.ext hval)

theorem Scalar.val_neg {s : Scalar} (h : s ≠ 0) : (-s).val = order - s.val := by
  have hpos := Scalar.val_pos h
  rw [Fin.val_neg', Nat.mod_eq_of_lt (by omega)]

theorem Scalar.neg_ne_zero {s : Scalar} (h : s ≠ 0) : -s ≠ 0 := by
  rw [Ne, ← residue_eq_zero_iff, residue_neg, neg_eq_zero, residue_eq_zero_iff]
  exact h

theorem isHigh_neg {s : Scalar} (h : s ≠ 0) : (-s).isHigh = !s.isHigh := by
  have hodd : order % 2 = 1 := by decide
  have hpos := Scalar.val_pos h
  have hlt := s.isLt
  rw [Scalar.isHigh, Scalar.isHigh, Scalar.val_neg h, ← decide_not, decide_eq_decide]
  omega

namespace Ecdsa

theorem isHigh_lower {a : Signed} (h : a.s ≠ 0) : a.lower.s.isHigh = false := by
  rw [Signed.lower]
  split
  · next hhigh =>
    show (-a.s).isHigh = false
    rw [isHigh_neg h, hhigh, Bool.not_true]
  · next hlow => exact Bool.eq_false_of_not_eq_true hlow

/-! ### Signatures made under a secret -/

variable {secret z k : Scalar} {a : Signed} {nonce key : Point}

/-- The signature of `z` was made under the secret with the nonce `k`. It names the nonce point. -/
structure Made (secret z : Scalar) (a : Signed) (k : Scalar) (nonce : Point) : Prop where
  nonce_eq : nonce.toCurve = residue k • generator.toCurve
  named : noncePoint? a.r a.recoveryId = some nonce
  r_eq : a.r = Scalar.ofNat nonce.x.val
  r_ne_zero : a.r ≠ 0
  s_ne_zero : a.s ≠ 0
  equation : residue k * residue a.s = residue z + residue a.r * residue secret

/-- The point whose first coordinate was reduced is named by the id. -/
theorem noncePoint?_ofNat (nonce : Point) :
    noncePoint? (Scalar.ofNat nonce.x.val) ⟨isOdd nonce.y, order ≤ nonce.x.val⟩ = some nonce := by
  have hlt := nonce.x.isLt
  have htwice : fieldSize < 2 * order := by decide
  have hx : (if order ≤ nonce.x.val then (Scalar.ofNat nonce.x.val).val + order
      else (Scalar.ofNat nonce.x.val).val) = nonce.x.val := by
    show (if order ≤ nonce.x.val then nonce.x.val % order + order else nonce.x.val % order) = _
    split
    · rw [Nat.mod_eq_sub_mod ‹_›, Nat.mod_eq_of_lt (by omega)]
      omega
    · exact Nat.mod_eq_of_lt (by omega)
  have hcoordinate : Coordinate.ofNat? nonce.x.val = some nonce.x := dif_pos hlt
  rw [noncePoint?]
  simp only [decide_eq_true_eq, hx, hcoordinate, Option.bind_eq_bind, Option.bind_some]
  exact Point.lift?_eq_some_iff.mpr ⟨rfl, rfl⟩

theorem noncePoint?_opposite {r : Scalar} {id : RecoveryId} (h : noncePoint? r id = some nonce) :
    noncePoint? r id.opposite = some nonce.neg := by
  rw [noncePoint?, Option.bind_eq_bind, Option.bind_eq_some_iff] at h ⊢
  obtain ⟨x, hx, hlift⟩ := h
  exact ⟨x, hx, Point.lift?_not hlift⟩

theorem sign?_eq (hnonce : Point.scale k generator = some nonce) :
    sign? secret z k =
      if Scalar.ofNat nonce.x.val = 0
          ∨ Scalar.inverse k * (z + Scalar.ofNat nonce.x.val * secret) = 0 then none
      else some ⟨Scalar.ofNat nonce.x.val,
        Scalar.inverse k * (z + Scalar.ofNat nonce.x.val * secret),
        ⟨isOdd nonce.y, order ≤ nonce.x.val⟩⟩ := by
  rw [sign?, hnonce]
  simp only [Option.bind_eq_bind, Option.bind_some, Bool.or_eq_true, decide_eq_true_eq]

theorem made_of_sign? (h : sign? secret z k = some a) : ∃ nonce, Made secret z a k nonce := by
  cases hnonce : Point.scale k generator with
  | none =>
    rw [sign?, hnonce] at h
    cases h
  | some nonce =>
    rw [sign?_eq hnonce] at h
    obtain ⟨hne, ha⟩ := Option.ite_none_left_eq_some.mp h
    obtain rfl := Option.some.inj ha
    obtain ⟨hr, hs⟩ := not_or.mp hne
    have hvalue := Point.toCurve_of_scale hnonce
    have hk : residue k ≠ 0 := by
      intro hzero
      rw [residue_smul, residue_eq_zero_iff.mp hzero] at hvalue
      exact nonce.toCurve_ne_zero (hvalue.trans (zero_nsmul _))
    refine ⟨nonce, hvalue, noncePoint?_ofNat nonce, rfl, hr, hs, ?_⟩
    simp only [residue_mul, residue_add, residue_scalarInverse]
    exact mul_inv_cancel_left₀ hk _

/-- The opposite nonce gives the opposite `s` with the opposite nonce point. -/
theorem Made.opposite (h : Made secret z a k nonce) :
    Made secret z ⟨a.r, -a.s, a.recoveryId.opposite⟩ (-k) nonce.neg where
  nonce_eq := by rw [Point.toCurve_neg, h.nonce_eq, residue_neg, neg_smul]
  named := noncePoint?_opposite h.named
  r_eq := h.r_eq
  r_ne_zero := h.r_ne_zero
  s_ne_zero := Scalar.neg_ne_zero h.s_ne_zero
  equation := by
    rw [residue_neg, residue_neg, neg_mul_neg]
    exact h.equation

/-- Lowering `s` leaves a signature under the same secret. -/
theorem Made.lower (h : Made secret z a k nonce) : ∃ k' nonce', Made secret z a.lower k' nonce' := by
  rw [Signed.lower]
  split
  · exact ⟨-k, nonce.neg, h.opposite⟩
  · exact ⟨k, nonce, h⟩

/-- The signature verifies: what is combined is the nonce point. -/
theorem Made.verify (h : Made secret z a k nonce) (hlow : a.s.isHigh = false)
    (hkey : Point.scale secret generator = some key) : verify key z a.r a.s = true := by
  have hs : residue a.s ≠ 0 := fun hzero => h.s_ne_zero (residue_eq_zero_iff.mp hzero)
  have hcombine : Point.combine (z * Scalar.inverse a.s) generator (a.r * Scalar.inverse a.s) key
      = some nonce := by
    refine Point.value_injective ?_
    rw [Point.value_combine, Point.toCurve_of_scale hkey, smul_smul, ← add_smul]
    show _ = nonce.toCurve
    rw [h.nonce_eq]
    congr 1
    simp only [residue_mul, residue_scalarInverse]
    field_simp
    linear_combination -h.equation
  rw [Ecdsa.verify, hlow]
  simp only [hcombine]
  exact decide_eq_true h.r_eq.symm

/-- The key that is recovered is the public key of the secret. -/
theorem Made.recover? (h : Made secret z a k nonce) (hlow : a.s.isHigh = false)
    (hkey : Point.scale secret generator = some key) : recover? z a = some key := by
  have hr : residue a.r ≠ 0 := fun hzero => h.r_ne_zero (residue_eq_zero_iff.mp hzero)
  have hcombine : Point.combine (-(Scalar.inverse a.r * z)) generator (Scalar.inverse a.r * a.s) nonce
      = some key := by
    refine Point.value_injective ?_
    rw [Point.value_combine, h.nonce_eq, smul_smul, ← add_smul, ← hkey, Point.value_scale]
    congr 1
    simp only [residue_neg, residue_mul, residue_scalarInverse]
    field_simp
    linear_combination h.equation
  rw [Ecdsa.recover?, h.named]
  simp only [Option.bind_eq_bind, Option.bind_some, hcombine, h.verify hlow hkey, if_true]

end Ecdsa

end DidToken.Secp256k1
