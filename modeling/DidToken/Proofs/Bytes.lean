import Mathlib.Algebra.Group.Nat.Defs
import Mathlib.Data.List.Induction
import DidToken.Bytes
/-!
# Numbers and their bytes

A byte string of some length denotes a number below that power of 256 (`toNat_lt`), and every such number
is denoted by its own bytes of that length (`toNat_ofNat`), and by no others (`ofNat_toNat`). Zeros in front
do not change the number (`toNat_replicate_append`); without them the bytes are found again from the number
alone (`ofNatShort_toNat`). Lengths and bytes are subtracted by `difference?` where it has to be seen that
nothing is taken from less.
-/

namespace DidToken

/-! ### Differences -/

/-- The difference of two numbers, unless the first one is less. -/
def difference? {α : Type} [LE α] [Sub α] [DecidableLE α] (x y : α) : Option α :=
  if y ≤ x then some (x - y) else none

theorem difference?_of_le {α : Type} [LE α] [Sub α] [DecidableLE α] {x y : α} (h : y ≤ x) :
    difference? x y = some (x - y) :=
  if_pos h

namespace Bytes

/-! ### Bytes of a number -/

theorem foldl_lt (b : Bytes) (n : Nat) :
    b.foldl (fun n x => 256 * n + x.toNat) n < 256 ^ b.length * (n + 1) := by
  -- generalized over the start, since each byte moves it
  induction b generalizing n with
  | nil => simp
  | cons x rest ih =>
    have hx : x.toNat < 256 := x.toNat_lt
    calc rest.foldl (fun n x => 256 * n + x.toNat) (256 * n + x.toNat)
        < 256 ^ rest.length * (256 * n + x.toNat + 1) := ih _
      _ ≤ 256 ^ rest.length * (256 * (n + 1)) := Nat.mul_le_mul_left _ (by omega)
      _ = 256 ^ (rest.length + 1) * (n + 1) := by rw [Nat.pow_succ, Nat.mul_assoc]

theorem toNat_lt (b : Bytes) : toNat b < 256 ^ b.length := by
  have h := foldl_lt b 0
  rwa [Nat.mul_one] at h

theorem toNat_ofNat {w n : Nat} (h : n < 256 ^ w) : toNat (ofNat w n) = n := by
  induction w generalizing n with
  | zero =>
    have : n = 0 := by omega
    subst this
    rfl
  | succ w ih =>
    have hdiv : n / 256 < 256 ^ w := by
      rw [Nat.pow_succ, Nat.mul_comm] at h
      exact Nat.div_lt_of_lt_mul h
    rw [ofNat, toNat_append_singleton, ih hdiv, UInt8.toNat_ofNat']
    omega

theorem div_last (n : Nat) (x : UInt8) : (256 * n + x.toNat) / 256 = n := by
  have hx : x.toNat < 256 := x.toNat_lt
  omega

theorem ofNat_last (n : Nat) (x : UInt8) : UInt8.ofNat (256 * n + x.toNat) = x := by
  have hx : x.toNat < 256 := x.toNat_lt
  rw [← UInt8.toNat_inj, UInt8.toNat_ofNat']
  omega

theorem ofNat_toNat (b : Bytes) : ofNat b.length (toNat b) = b := by
  -- the last byte is the one that is split off
  induction b using List.reverseRecOn with
  | nil => rfl
  | append_singleton b x ih =>
    rw [List.length_append, List.length_singleton, toNat_append_singleton, ofNat, div_last, ofNat_last, ih]

/-! ### Leading zeros -/

theorem toNat_replicate_append (k : Nat) (b : Bytes) : toNat (List.replicate k 0 ++ b) = toNat b := by
  induction k with
  | zero => rfl
  | succ k ih => exact ih

theorem toNat_pos {b : Bytes} (hb : b ≠ []) (h : b.head? ≠ some 0) : 0 < toNat b := by
  induction b using List.reverseRecOn with
  | nil => exact absurd rfl hb
  | append_singleton b x ih =>
    rw [toNat_append_singleton]
    cases b with
    | nil =>
      have hx : x.toNat ≠ 0 := fun hzero => h (congrArg some (UInt8.toNat_inj.mp hzero))
      omega
    | cons y rest =>
      have hpos := ih (List.cons_ne_nil _ _) h
      omega

theorem ofNatShort_toNat {b : Bytes} (h : b.head? ≠ some 0) : ofNatShort (toNat b) = b := by
  induction b using List.reverseRecOn with
  | nil =>
    rw [ofNatShort]
    rfl
  | append_singleton b x ih =>
    have hpos := toNat_pos (List.append_ne_nil_of_right_ne_nil b (List.cons_ne_nil x [])) h
    have hrest : b.head? ≠ some 0 := by
      cases b with
      | nil => exact Option.some_ne_none 0 ∘ Eq.symm
      | cons y rest => exact h
    rw [toNat_append_singleton] at hpos ⊢
    rw [ofNatShort, if_neg (Nat.ne_of_gt hpos), div_last, ofNat_last, ih hrest]

end Bytes

end DidToken
