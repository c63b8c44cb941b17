import DidToken.Proofs.Bytes
import DidToken.Proofs.Text.Hex
/-!
# Hexadecimal digits as a number

A row of hexadecimal digits, in either case, denotes a number (`Denotes`). Read as bytes, two digits each, a
row of even length is exactly the bytes of its number (`decode_of_denotes`), and nothing but such a row is read
(`denotes_of_decode`). A zero in front makes an odd row even and does not change the number
(`denotes_zero_cons_iff`).
-/

namespace DidToken.Text.Hex

/-- A row of digits in either case, the highest first, denotes a number. -/
inductive Denotes : List Char → Nat → Prop
  | nil : Denotes [] 0
  | concat {cs : List Char} {n : Nat} {c : Char} {d : Nat} (row : Denotes cs n) (lt : d < 16)
      (digit : c.toLower = Nat.digitChar d) : Denotes (cs ++ [c]) (16 * n + d)

theorem denotes_concat_iff {cs : List Char} {c : Char} {n : Nat} :
    Denotes (cs ++ [c]) n
      ↔ ∃ m d, Denotes cs m ∧ d < 16 ∧ c.toLower = Nat.digitChar d ∧ n = 16 * m + d := by
  constructor
  · intro h
    generalize hrow : cs ++ [c] = row at h
    cases h with
    | nil => exact absurd hrow (List.append_ne_nil_of_right_ne_nil cs (List.cons_ne_nil c []))
    | concat row lt digit =>
      obtain ⟨rfl, hc⟩ := List.append_inj' hrow rfl
      cases hc
      exact ⟨_, _, row, lt, digit, rfl⟩
  · rintro ⟨m, d, row, lt, digit, rfl⟩
    exact .concat row lt digit

theorem Denotes.eq_zero {n : Nat} (h : Denotes [] n) : n = 0 := by
  generalize hrow : ([] : List Char) = row at h
  cases h with
  | nil => rfl
  | concat => exact absurd hrow.symm (List.append_ne_nil_of_right_ne_nil _ (List.cons_ne_nil _ []))

theorem Denotes.lt {cs : List Char} {n : Nat} (h : Denotes cs n) : n < 16 ^ cs.length := by
  induction h with
  | nil => exact Nat.one_pos
  | concat row lt digit ih =>
    rw [List.length_append, List.length_singleton, Nat.pow_succ]
    omega

/-- A row that denotes a number begins with a zero as well as not. -/
theorem denotes_zero_cons_iff {cs : List Char} {n : Nat} : Denotes ('0' :: cs) n ↔ Denotes cs n := by
  -- the digits after the zero are taken off from the end
  induction cs using List.reverseRecOn generalizing n with
  | nil =>
    rw [← List.nil_append ['0'], denotes_concat_iff]
    constructor
    · rintro ⟨m, d, row, lt, digit, rfl⟩
      have hdigit : ∀ d < 16, '0'.toLower = Nat.digitChar d → d = 0 := by decide
      rw [row.eq_zero, hdigit d lt digit]
      exact .nil
    · intro h
      exact ⟨0, 0, .nil, by decide, rfl, h.eq_zero⟩
  | append_singleton cs c ih =>
    rw [← List.cons_append, denotes_concat_iff, denotes_concat_iff]
    simp only [ih]

/-! ### Digits and bytes -/

/-- The digits of a number are those of its bytes, up to case. -/
theorem Denotes.map_toLower {w : Nat} {cs : List Char} {n : Nat} (h : Denotes cs n)
    (hlength : cs.length = 2 * w) : cs.map Char.toLower = (Bytes.ofNat w n).flatMap digits := by
  induction w generalizing cs n with
  | zero =>
    rw [List.eq_nil_of_length_eq_zero hlength]
    rfl
  | succ w ih =>
    -- the last byte stands for the last two digits
    cases h with
    | nil => cases hlength
    | concat row lt digit =>
      cases row with
      | nil =>
        simp only [List.nil_append, List.length_singleton] at hlength
        omega
      | @concat cs n high dHigh row ltHigh digitHigh =>
        next low dLow =>
        simp only [List.length_append, List.length_singleton] at hlength
        have hbyte : digits (UInt8.ofNat (16 * (16 * n + dHigh) + dLow)) = [high.toLower, low.toLower] := by
          have hvalue : (UInt8.ofNat (16 * (16 * n + dHigh) + dLow)).toNat = 16 * dHigh + dLow := by
            rw [UInt8.toNat_ofNat']
            omega
          have hdiv : (16 * dHigh + dLow) / 16 = dHigh := by omega
          have hmod : (16 * dHigh + dLow) % 16 = dLow := by omega
          rw [digits, hvalue, hdiv, hmod, digitHigh, digit]
        have hrest : (16 * (16 * n + dHigh) + dLow) / 256 = n := by omega
        rw [Bytes.ofNat, List.flatMap_append, List.flatMap_singleton, hbyte, hrest, ← ih row (by omega)]
        simp only [List.map_append, List.map_cons, List.map_nil, List.append_assoc, List.singleton_append]

/-- A row of even length is read as the bytes of its number. -/
theorem decode_of_denotes {text : String} {w n : Nat} (h : Denotes text.toList n)
    (hlength : text.toList.length = 2 * w) : decode text = .ok (Bytes.ofNat w n) :=
  decode_of_toLower (by
    rw [encode, ← h.map_toLower hlength]
    exact String.toList_inj.mp (by rw [String.toList_ofList]; exact String.toList_map))

/-- A byte that is read as a digit is one. -/
theorem of_value? {x : UInt8} {d : Nat} (h : value? x = some d) :
    x < 0x80 ∧ d < 16 ∧ (Char.ofUInt8 x).toLower = Nat.digitChar d := by
  have hall : ∀ k < 256, ∀ d ∈ value? (UInt8.ofNat k), UInt8.ofNat k < 0x80 ∧ d < 16
      ∧ (Char.ofUInt8 (UInt8.ofNat k)).toLower = Nat.digitChar d := by decide +kernel
  have hx := hall x.toNat x.toNat_lt
  rw [UInt8.ofNat_toNat] at hx
  exact hx d h

theorem of_digitAt {index : Nat} {x : UInt8} {d : Nat} (h : digitAt index x = .ok d) :
    x < 0x80 ∧ d < 16 ∧ (Char.ofUInt8 x).toLower = Nat.digitChar d := by
  rw [digitAt] at h
  split at h
  · next hvalue =>
    cases h
    exact of_value? hvalue
  · cases h

/-- Pairs of digits that are read go on with a row as their bytes go on with its number. -/
theorem denotes_of_pairs {index : Nat} {w b : Bytes} (h : pairs index w = .ok b) {cs : List Char} {n : Nat}
    (hrow : Denotes cs n) :
    (∀ x ∈ w, x < 0x80) ∧ w.length = 2 * b.length
      ∧ Denotes (cs ++ w.map Char.ofUInt8) (b.foldl (fun n x => 256 * n + x.toNat) n) := by
  -- for every row in front, since each pair makes it longer
  fun_induction pairs index w generalizing b cs n with
  | case1 =>
    cases h
    exact ⟨List.forall_mem_nil _, rfl, by rwa [List.map_nil, List.append_nil]⟩
  | case2 => cases h
  | case3 index x y rest ih =>
    obtain ⟨high, hhigh, h⟩ := bind_eq_ok_iff.mp h
    obtain ⟨low, hlow, h⟩ := bind_eq_ok_iff.mp h
    obtain ⟨tail, htail, h⟩ := bind_eq_ok_iff.mp h
    cases h
    obtain ⟨hx, hhighLt, hhighDigit⟩ := of_digitAt hhigh
    obtain ⟨hy, hlowLt, hlowDigit⟩ := of_digitAt hlow
    obtain ⟨hascii, hlength, hdenotes⟩ := ih htail ((hrow.concat hhighLt hhighDigit).concat hlowLt hlowDigit)
    refine ⟨List.forall_mem_cons.mpr ⟨hx, List.forall_mem_cons.mpr ⟨hy, hascii⟩⟩, ?_, ?_⟩
    · simp only [List.length_cons, hlength]
      omega
    · have hbyte : (UInt8.ofNat (16 * high + low)).toNat = 16 * high + low := by
        rw [UInt8.toNat_ofNat']
        omega
      have hnumber : 256 * n + (16 * high + low) = 16 * (16 * n + high) + low := by omega
      rw [List.foldl_cons, hbyte, hnumber]
      simpa only [List.map_cons, List.append_assoc, List.singleton_append, List.cons_append,
        List.nil_append] using hdenotes

/-- Whatever is read is a row of digits of the number of its bytes. -/
theorem denotes_of_decode {text : String} {b : Bytes} (h : decode text = .ok b) :
    Denotes text.toList (Bytes.toNat b) ∧ text.toList.length = 2 * b.length := by
  rw [decode] at h
  split at h
  · cases h
  · obtain ⟨hascii, hlength, hdenotes⟩ := denotes_of_pairs h .nil
    -- the text is ASCII, so its characters are its bytes
    have htext := congrArg String.toList (Bytes.ofString_injective (Bytes.ofString_ofList_ofUInt8 hascii))
    rw [String.toList_ofList] at htext
    rw [← htext, List.length_map]
    exact ⟨hdenotes, hlength⟩

end DidToken.Text.Hex
