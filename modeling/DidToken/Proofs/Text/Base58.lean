import Mathlib.Data.Nat.Digits.Lemmas
import DidToken.Proofs.Bytes
import DidToken.Proofs.Checks
import DidToken.Proofs.Text.Utf8
import DidToken.Text.Base58
/-!
# Base58 is read as it is written

Bytes are written as the digits of the number they denote, after a digit zero for each zero byte in front
(`encode`). What is written is read as the bytes (`decode_encode`): the number has no zeros in front itself,
neither as digits nor as bytes, so those that are counted are those that were written.
-/

namespace DidToken.Text.Base58

/-! ### Digits of numbers -/

/-- The digits of a number, the most significant one first; none for zero. -/
def digits (n : Nat) : List Nat :=
  (Nat.digits 58 n).reverse

theorem lt_of_mem_digits {n d : Nat} (h : d ∈ digits n) : d < 58 :=
  Nat.digits_lt_base (by decide) (List.mem_reverse.mp h)

theorem head?_digits_ne_zero (n : Nat) : (digits n).head? ≠ some 0 := by
  rw [digits, List.head?_reverse]
  intro h
  have hne : Nat.digits 58 n ≠ [] := List.ne_nil_of_mem (List.mem_of_getLast? h)
  have hlast := (List.getLast_eq_iff_getLast?_eq_some hne).mpr h
  exact Nat.getLast_digit_ne_zero 58 (Nat.digits_ne_nil_iff_ne_zero.mp hne) hlast

theorem foldl_digits (n : Nat) : (digits n).foldl (fun n d => 58 * n + d) 0 = n := by
  have hfoldr := Nat.ofDigits_eq_foldr 58 (Nat.digits 58 n)
  rw [Nat.ofDigits_digits] at hfoldr
  rw [digits, List.foldl_reverse]
  simpa only [Nat.cast_id, Nat.add_comm] using hfoldr.symm

theorem foldl_replicate_append (zeros : Nat) (ds : List Nat) :
    (List.replicate zeros 0 ++ ds).foldl (fun n d => 58 * n + d) 0
      = ds.foldl (fun n d => 58 * n + d) 0 := by
  induction zeros with
  | zero => rfl
  | succ zeros ih => exact ih

/-! ### Digits as text -/

def symbol (d : Nat) : Char :=
  alphabet.getD d '1'

theorem symbol_ascii {d : Nat} (h : d < 58) : (symbol d).toNat < 0x80 := by
  have htable : ∀ d < 58, (symbol d).toNat < 0x80 := by decide
  exact htable d h

def byte (d : Nat) : UInt8 :=
  UInt8.ofNat (symbol d).toNat

theorem digitAt_byte (index : Nat) {d : Nat} (h : d < 58) : digitAt index (byte d) = .ok d := by
  have htable : ∀ d < 58, ¬0x7f < byte d ∧ Char.ofUInt8 (byte d) ∈ alphabet
      ∧ alphabet.idxOf (Char.ofUInt8 (byte d)) = d := by decide
  obtain ⟨hascii, hmem, hindex⟩ := htable d h
  rw [digitAt]
  simp only [if_neg hascii, if_pos hmem, hindex]

theorem byte_eq_one_iff {d : Nat} (h : d < 58) : byte d = 0x31 ↔ d = 0 := by
  have htable : ∀ d < 58, byte d = 0x31 ↔ d = 0 := by decide
  exact htable d h

theorem number_map_byte {ds : List Nat} (h : ∀ d ∈ ds, d < 58) (index n : Nat) :
    number index n (ds.map byte) = .ok (ds.foldl (fun n d => 58 * n + d) n) := by
  induction ds generalizing index n with
  | nil => rfl
  | cons d rest ih =>
    obtain ⟨hd, hrest⟩ := List.forall_mem_cons.mp h
    rw [List.map_cons, number, digitAt_byte index hd, ok_bind]
    exact ih hrest (index + 1) _

/-! ### Leading zeros -/

/-- A run in front is counted if something else comes after it. -/
theorem takeWhile_replicate_append {α : Type} [DecidableEq α] (k : Nat) {x : α} {rest : List α}
    (h : rest.head? ≠ some x) :
    (List.replicate k x ++ rest).takeWhile (· = x) = List.replicate k x := by
  have hrest : rest.takeWhile (· = x) = [] := by
    cases rest with
    | nil => rfl
    | cons y rest => exact List.takeWhile_cons_of_neg (by simpa using h)
  have hrun : ∀ y ∈ List.replicate k x, decide (y = x) = true := fun y hy =>
    decide_eq_true (List.eq_of_mem_replicate hy)
  rw [List.takeWhile_append_of_pos hrun, hrest, List.append_nil]

/-- Every list is such a run and something else. -/
theorem exists_eq_replicate_append {α : Type} [DecidableEq α] (x : α) (xs : List α) :
    ∃ rest : List α, xs = List.replicate (xs.takeWhile (· = x)).length x ++ rest ∧ rest.head? ≠ some x := by
  have hrun : xs.takeWhile (· = x) = List.replicate (xs.takeWhile (· = x)).length x :=
    List.eq_replicate_of_mem fun y hy => of_decide_eq_true (List.all_eq_true.mp List.all_takeWhile y hy)
  refine ⟨xs.dropWhile (· = x), ?_, fun h => ?_⟩
  · rw [← hrun, List.takeWhile_append_dropWhile]
  · have hnot := List.head?_dropWhile_not (· = x) xs
    rw [h] at hnot
    simp at hnot

/-! ### Bytes -/

def leadingZeros (b : Bytes) : Nat :=
  (b.takeWhile (· = 0)).length

/-- The digits of bytes: one for each zero in front, then those of their number. -/
def digitsOf (b : Bytes) : List Nat :=
  List.replicate (leadingZeros b) 0 ++ digits (Bytes.toNat b)

/-- The text of bytes. -/
def encode (b : Bytes) : String :=
  String.ofList ((digitsOf b).map symbol)

theorem lt_of_mem_digitsOf {b : Bytes} {d : Nat} (h : d ∈ digitsOf b) : d < 58 := by
  rw [digitsOf, List.mem_append] at h
  rcases h with h | h
  · exact List.eq_of_mem_replicate h ▸ by decide
  · exact lt_of_mem_digits h

theorem ofString_encode (b : Bytes) : Bytes.ofString (encode b) = (digitsOf b).map byte := by
  rw [encode, Bytes.ofString_ofList_of_ascii, List.map_map]
  · rfl
  · intro c hc
    obtain ⟨d, hd, rfl⟩ := List.mem_map.mp hc
    exact symbol_ascii (lt_of_mem_digitsOf hd)

/-- As many leading zeros are read as were written. -/
theorem takeWhile_ofString_encode (b : Bytes) :
    ((Bytes.ofString (encode b)).takeWhile (· = 0x31)).length = leadingZeros b := by
  have hhead : ((digits (Bytes.toNat b)).map byte).head? ≠ some 0x31 := by
    rw [List.head?_map]
    intro h
    obtain ⟨d, hd, hbyte⟩ := Option.map_eq_some_iff.mp h
    have hzero := (byte_eq_one_iff (lt_of_mem_digits (List.mem_of_head? hd))).mp hbyte
    exact head?_digits_ne_zero _ (hzero ▸ hd)
  have hzero : byte 0 = 0x31 := (byte_eq_one_iff (by decide)).mpr rfl
  rw [ofString_encode, digitsOf, List.map_append, List.map_replicate, hzero,
    takeWhile_replicate_append _ hhead, List.length_replicate]

theorem replicate_append_ofNatShort (b : Bytes) :
    List.replicate (leadingZeros b) 0 ++ Bytes.ofNatShort (Bytes.toNat b) = b := by
  obtain ⟨rest, hb, hrest⟩ := exists_eq_replicate_append 0 b
  change b = List.replicate (leadingZeros b) 0 ++ rest at hb
  have hnumber : Bytes.toNat b = Bytes.toNat rest := by
    rw [hb, Bytes.toNat_replicate_append]
  rw [hnumber, Bytes.ofNatShort_toNat hrest, ← hb]

theorem decode_encode (b : Bytes) : decode (encode b) = .ok b := by
  have hnumber : number 0 0 (Bytes.ofString (encode b)) = .ok (Bytes.toNat b) := by
    rw [ofString_encode, number_map_byte fun d => lt_of_mem_digitsOf, digitsOf,
      foldl_replicate_append, foldl_digits]
  rw [decode]
  simp only [hnumber, ok_bind, takeWhile_ofString_encode, replicate_append_ofNatShort]
  rfl

example : encode [0, 0, 1, 2, 255] = "11LiA" := by decide +kernel

end DidToken.Text.Base58
