import DidToken.Json.Parser
import DidToken.Proofs.Json.Digits
import DidToken.Proofs.Text.Utf8
/-!
# Integers are read as they were written

An integer is written in decimal, without leading zeros and with a sign only if it is negative. Reading
takes as many digits as there are, so what follows must not go on with the number; then the 64 bits
that the integer fits are enough to hold every number met on the way (`absorb_digitsOf`).
-/

namespace DidToken.Json

/-! ### Decimal digits -/

/-- The decimal digits of a number, the most significant one first. -/
def digitsOf (n : Nat) : List Nat :=
  (Nat.toDigits 10 n).map fun c => c.toNat - 0x30

theorem digitsOf_of_lt {n : Nat} (h : n < 10) : digitsOf n = [n] := by
  rw [digitsOf, Nat.toDigits_of_lt_base h, List.map_cons, List.map_nil,
    Nat.toNat_digitChar_sub_48_of_lt_ten h]

theorem digitsOf_append {n d : Nat} (hn : 0 < n) (hd : d < 10) :
    digitsOf (10 * n + d) = digitsOf n ++ [d] := by
  rw [← digitsOf_of_lt hd, digitsOf, ← Nat.toDigits_append_toDigits (by decide) hn hd, List.map_append]
  rfl

theorem lt_of_mem_digitsOf {n d : Nat} (h : d ∈ digitsOf n) : d < 10 := by
  induction n using Nat.base_induction 10 (by decide) with
  | single m hm =>
    rw [digitsOf_of_lt hm, List.mem_singleton] at h
    omega
  | digit m k hk hm ih =>
    rw [digitsOf_append hm hk, List.mem_append, List.mem_singleton] at h
    rcases h with h | h
    · exact ih h
    · omega

theorem digitsOf_ne_nil (n : Nat) : digitsOf n ≠ [] := by
  intro h
  exact Nat.toDigits_ne_nil (List.map_eq_nil_iff.mp h)

/-- A zero only comes first where it stands alone. -/
theorem head?_digitsOf_ne_zero {n : Nat} (h : 0 < n) : (digitsOf n).head? ≠ some 0 := by
  induction n using Nat.base_induction 10 (by decide) with
  | single m hm =>
    rw [digitsOf_of_lt hm]
    intro h0
    cases h0
    exact absurd h (by decide)
  | digit m k hk hm ih =>
    rw [digitsOf_append hm hk, List.head?_append, List.head?_eq_some_head (digitsOf_ne_nil m),
      Option.some_or, ← List.head?_eq_some_head (digitsOf_ne_nil m)]
    exact ih hm

/-- The bytes of a number are those of its digits. -/
theorem ofString_repr (n : Nat) :
    Bytes.ofString n.repr = (digitsOf n).map fun d => UInt8.ofNat (d + 0x30) := by
  have hdigit : ∀ c ∈ Nat.toDigits 10 n, 0x30 ≤ c.toNat ∧ c.toNat ≤ 0x39 := fun c hc => by
    have h := Nat.isDigit_of_mem_toDigits (by decide) (by decide) hc
    rw [Char.isDigit, Bool.and_eq_true, decide_eq_true_eq, decide_eq_true_eq] at h
    exact ⟨UInt32.le_iff_toNat_le.mp h.1, UInt32.le_iff_toNat_le.mp h.2⟩
  rw [Nat.repr_eq_ofList_toDigits, Bytes.ofString_ofList_of_ascii, digitsOf, List.map_map]
  · refine List.map_congr_left fun c hc => ?_
    have := hdigit c hc
    show UInt8.ofNat c.toNat = UInt8.ofNat (c.toNat - 0x30 + 0x30)
    rw [Nat.sub_add_cancel this.1]
  · intro c hc
    have := hdigit c hc
    omega

/-- A number that fits 64 bits is taken in whole. -/
theorem absorb_digitsOf {n : Nat} (h : n < UInt64.size) :
    Literal.absorb 0 (digitsOf n) = (n, []) := by
  -- absorbing goes from the left, digits are added at the right
  have happend : ∀ (ds : List Nat) (m k d : Nat), Literal.absorb m ds = (k, []) →
      10 * k + d < UInt64.size → Literal.absorb m (ds ++ [d]) = (10 * k + d, []) := by
    intro ds
    induction ds with
    | nil =>
      intro m k d hk hlt
      cases hk
      rw [List.nil_append, Literal.absorb, if_pos hlt]
      rfl
    | cons c rest ih =>
      intro m k d hk hlt
      rw [Literal.absorb] at hk
      split at hk
      · next hc =>
        rw [List.cons_append, Literal.absorb, if_pos hc]
        exact ih _ _ _ hk hlt
      · cases hk
  induction n using Nat.base_induction 10 (by decide) with
  | single m hm =>
    have h0 : 10 * 0 + m < UInt64.size := by omega
    rw [digitsOf_of_lt hm, Literal.absorb, if_pos h0, Nat.mul_zero, Nat.zero_add]
    rfl
  | digit m k hk hm ih =>
    rw [digitsOf_append hm hk]
    exact happend _ _ _ _ (ih (by omega)) h

/-! ### The written form -/

namespace Literal

/-- A number begins with a sign or a digit, which is neither a blank nor a bracket. -/
theorem start_spec {x : UInt8} (h : x = 0x2d ∨ ∃ d < 10, x = digitByte d) :
    (x = 0x2d || isDigit x) = true ∧ isBlank x = false ∧ x ≠ 0x5d ∧ x ≠ 0x5b ∧ x ≠ 0x7b := by
  have hdigit : ∀ d < 10, (digitByte d = 0x2d || isDigit (digitByte d)) = true
      ∧ isBlank (digitByte d) = false ∧ digitByte d ≠ 0x5d ∧ digitByte d ≠ 0x5b
      ∧ digitByte d ≠ 0x7b := by decide
  rcases h with rfl | ⟨d, hd, rfl⟩
  · decide
  · exact hdigit d hd

theorem isDigits_digitsOf (n : Nat) : IsDigits ((digitsOf n).map digitByte) where
  ne_nil h := digitsOf_ne_nil n (List.map_eq_nil_iff.mp h)
  digit x hx := by
    obtain ⟨d, hd, rfl⟩ := List.mem_map.mp hx
    exact (digitByte_spec d (lt_of_mem_digitsOf hd)).1

theorem map_digitByte_digitsOf (n : Nat) :
    ((digitsOf n).map digitByte).map (fun x => x.toNat - 0x30) = digitsOf n := by
  rw [List.map_map]
  refine (List.map_congr_left fun d hd => ?_).trans (List.map_id _)
  exact (digitByte_spec d (lt_of_mem_digitsOf hd)).2

theorem wholeDigits_digitsOf (atEnd : Fault) (n : Nat) {rest : Bytes} (hrest : Follows rest) :
    wholeDigits atEnd ((digitsOf n).map digitByte ++ rest) = .ok (digitsOf n, rest) := by
  -- a zero in front is alone, because only zero has it
  have halone : ((digitsOf n).map digitByte).head? = some 0x30 → (digitsOf n).map digitByte = [0x30] := by
    intro h0
    cases n with
    | zero => rw [digitsOf_of_lt (by decide)]; rfl
    | succ n =>
      rw [List.head?_map, Option.map_eq_some_iff] at h0
      obtain ⟨d, hd, hbyte⟩ := h0
      have hzero := (digitByte_spec d (lt_of_mem_digitsOf (List.mem_of_mem_head? hd))).2
      rw [hbyte] at hzero
      exact absurd (hd.trans (congrArg some hzero.symm)) (head?_digitsOf_ne_zero (Nat.succ_pos n))
  rw [wholeDigits_of_isDigits atEnd (isDigits_digitsOf n) halone fun x hx => (hrest.stops.head x hx).1,
    map_digitByte_digitsOf]

/-- The literal of a number with or without a sign. -/
theorem read_digitsOf (atEnd : Fault) (isNegative : Bool) (n : Nat) {rest : Bytes}
    (hrest : Follows rest) :
    read atEnd ((if isNegative then [0x2d] else []) ++ (digitsOf n).map digitByte ++ rest)
      = .ok (⟨isNegative, digitsOf n, [], none⟩, rest) := by
  have hsign : takes [0x2d] ((if isNegative then [0x2d] else []) ++ (digitsOf n).map digitByte ++ rest)
      = .ok (isNegative, (digitsOf n).map digitByte ++ rest) := by
    cases isNegative with
    | true => rfl
    | false =>
      exact takes_of_head fun x hx => (isDigit_spec (head_isDigits (isDigits_digitsOf n) rest x hx)).1
  -- neither a point nor an exponent follows
  have hpoint : takes [0x2e] rest = .ok (false, rest) :=
    takes_of_head fun x hx => (hrest.stops.head x hx).2.1
  have hletter : takes [0x65, 0x45] rest = .ok (false, rest) :=
    takes_of_head fun x hx => (hrest.stops.head x hx).2.2
  rw [read, bind_apply_of_ok hsign, bind_apply_of_ok (wholeDigits_digitsOf atEnd n hrest),
    bind_apply_of_ok hpoint, if_neg Bool.false_ne_true, bind_apply_of_ok (pure_apply [] rest)]
  exact bind_apply_of_ok hletter

end Literal

/-! ### Integers -/

namespace Integer

theorem ofInt?_val (n : Integer) : ofInt? n.val = some n := by
  rw [ofInt?, dif_pos ⟨n.min_le, n.lt_max⟩]

/-- The sign and the digits of an integer. -/
theorem ofString_toString (n : Integer) :
    Bytes.ofString (toString n.val)
      = (if decide (n.val < 0) then [0x2d] else []) ++ (digitsOf n.val.natAbs).map Literal.digitByte := by
  rw [Int.toString_eq_repr, Int.repr_eq_if]
  by_cases h : n.val < 0
  · have habs : (-n.val).toNat = n.val.natAbs := by omega
    rw [if_neg (by omega), Bytes.ofString_append, ofString_repr, habs, decide_eq_true h, if_pos rfl]
    rfl
  · have habs : n.val.toNat = n.val.natAbs := by omega
    rw [if_pos (by omega), ofString_repr, habs, decide_eq_false h, if_neg Bool.false_ne_true]
    rfl

/-- The literal that an integer is written as denotes the integer. -/
theorem value?_literal (n : Integer) :
    Literal.value? ⟨decide (n.val < 0), digitsOf n.val.natAbs, [], none⟩ = some (.int n) := by
  have hmin := n.min_le
  have hmax := n.lt_max
  have hfits : n.val.natAbs < UInt64.size := by
    show n.val.natAbs < 18446744073709551616
    omega
  have hint : Literal.integer? ⟨decide (n.val < 0), digitsOf n.val.natAbs, [], none⟩ = some n := by
    simp only [Literal.integer?, absorb_digitsOf hfits]
    by_cases h : n.val < 0
    · have hval : -(n.val.natAbs : Int) = n.val := by omega
      rw [decide_eq_true h, if_pos rfl, if_neg (by omega), hval, ofInt?_val]
    · have hval : (n.val.natAbs : Int) = n.val := by omega
      rw [decide_eq_false h, if_neg Bool.false_ne_true, hval, ofInt?_val]
  rw [Literal.value?, hint]

end Integer

/-- An integer is read back. -/
theorem takes_number (n : Integer) :
    Takes number (Bytes.ofString (toString n.val)) (.ok (.int n)) := by
  intro rest hrest
  rw [Integer.ofString_toString, number,
    bind_apply_of_ok (Literal.read_digitsOf .truncated _ _ hrest)]
  simp only [Integer.value?_literal]
  rfl

end DidToken.Json
