import DidToken.Proofs.Secp256k1.Primes
/-!
# Inverses and square roots

The powers that stand for inverses are inverses, and the power that stands for a square root is a root of
every square (`squareRoot?_mul_self`). Of two opposite coordinates other than zero, one is odd and the other
one even (`isOdd_neg`), so that a root is known from its parity (`eq_of_mul_self_eq`).
-/

namespace DidToken.Secp256k1

theorem residue_coordinateInverse (x : Coordinate) :
    residue (Coordinate.inverse x) = (residue x)⁻¹ := by
  rw [Coordinate.inverse, residue_power x (by decide), inv_eq_pow_sub_two (by decide)]

theorem residue_scalarInverse (x : Scalar) : residue (Scalar.inverse x) = (residue x)⁻¹ := by
  rw [Scalar.inverse, residue_power x (by decide), inv_eq_pow_sub_two (by decide)]

/-! ### Square roots -/

theorem eq_or_eq_neg_of_mul_self_eq {y w : Coordinate} (h : w * w = y * y) : w = y ∨ w = -y := by
  have hsquare := congrArg residue h
  rw [residue_mul, residue_mul] at hsquare
  rcases mul_self_eq_mul_self_iff.mp hsquare with heq | heq
  · exact Or.inl (residue_inj.mp heq)
  · rw [← residue_neg] at heq
    exact Or.inr (residue_inj.mp heq)

/-- The quarter of the number after the prime, twice doubled, is that number. -/
theorem mul_self_power (y : Coordinate) :
    power (y * y) 256 ((fieldSize + 1) / 4) * power (y * y) 256 ((fieldSize + 1) / 4) = y * y := by
  have hexponent : 2 * (((fieldSize + 1) / 4) * 2) = fieldSize + 1 := by decide
  rw [← residue_inj, residue_mul, residue_power _ (by decide), residue_mul, ← pow_two, ← pow_two,
    ← pow_mul, ← pow_mul, hexponent, pow_succ, ZMod.pow_card, pow_two]

/-- Every square has a root, and the root that is found is the one that was squared or its opposite. -/
theorem squareRoot?_mul_self (y : Coordinate) :
    ∃ w, squareRoot? (y * y) = some w ∧ (w = y ∨ w = -y) := by
  have hroot := mul_self_power y
  rw [squareRoot?]
  generalize power (y * y) 256 ((fieldSize + 1) / 4) = w at hroot
  exact ⟨w, if_pos hroot, eq_or_eq_neg_of_mul_self_eq hroot⟩

/-! ### Parity -/

theorem isOdd_neg {y : Coordinate} (h : y ≠ 0) : isOdd (-y) = !isOdd y := by
  have hodd : fieldSize % 2 = 1 := by decide
  have hpos : 0 < y.val := Nat.pos_of_ne_zero fun hval => h (Fin.ext hval)
  have hlt := y.isLt
  have hval : (-y).val = fieldSize - y.val := by
    rw [Fin.val_neg', Nat.mod_eq_of_lt (by omega)]
  rw [isOdd, isOdd, hval, ← decide_not, decide_eq_decide]
  omega

theorem eq_of_mul_self_eq {y w : Coordinate} (h : w * w = y * y) (hodd : isOdd w = isOdd y) : w = y := by
  rcases eq_or_eq_neg_of_mul_self_eq h with rfl | rfl
  · rfl
  · by_cases hy : y = 0
    · rw [hy]
      decide
    · rw [isOdd_neg hy] at hodd
      exact absurd hodd (by simp)

end DidToken.Secp256k1
