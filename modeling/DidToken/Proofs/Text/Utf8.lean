import DidToken.Bytes
/-!
# The bytes of texts

Readers work on the UTF-8 bytes of a text. This module breaks these bytes up character by character:
the bytes of a text are those of its characters (`ofString_ofList`), an ASCII character is one byte
(`utf8_of_lt`), and every other character consists of bytes from `0x80` up (`le_of_mem_utf8`), so that
no byte of it is mistaken for an ASCII character.
-/

namespace DidToken.Bytes

/-- The bytes of a character. -/
abbrev utf8 (c : Char) : Bytes :=
  String.utf8EncodeChar c

theorem ofString_ofList (cs : List Char) : ofString (String.ofList cs) = cs.flatMap utf8 := by
  rw [ofString, String.toByteArray_ofList, List.utf8Encode, List.data_toByteArray]

theorem ofString_eq_flatMap (s : String) : ofString s = s.toList.flatMap utf8 := by
  rw [← ofString_ofList, String.ofList_toList]

theorem ofString_toString (c : Char) : ofString c.toString = utf8 c := by
  have h : c.toString = String.ofList [c] := rfl
  rw [h, ofString_ofList, List.flatMap_cons, List.flatMap_nil, List.append_nil]

/-- An ASCII character is the byte of its number. -/
theorem utf8_of_lt {c : Char} (h : c.toNat < 0x80) : utf8 c = [UInt8.ofNat c.toNat] := by
  have hle : c.val.toNat ≤ 0x7f := by
    have : c.val.toNat = c.toNat := rfl
    omega
  show String.utf8EncodeChar c = _
  rw [String.utf8EncodeChar, if_pos hle]
  rfl

/-- A byte that is made by adding to a high start stays high. -/
theorem le_ofNat_add {n start bound : Nat} (hn : n < bound) (hs : 0x80 ≤ start)
    (hb : bound + start ≤ 256) : 0x80 ≤ UInt8.ofNat (n + start) := by
  rw [UInt8.le_iff_toNat_le, UInt8.toNat_ofNat', Nat.mod_eq_of_lt (by omega)]
  show 128 ≤ n + start
  omega

/-- No byte of a character beyond ASCII is an ASCII character. -/
theorem le_of_mem_utf8 {c : Char} (h : 0x80 ≤ c.toNat) {x : UInt8} (hx : x ∈ utf8 c) : 0x80 ≤ x := by
  have hlt : ¬c.val.toNat ≤ 0x7f := by
    have : c.val.toNat = c.toNat := rfl
    omega
  have hcont : ∀ n : Nat, 0x80 ≤ UInt8.ofNat (n % 0x40 + 0x80) := fun n =>
    le_ofNat_add (Nat.mod_lt n (by decide)) (by decide) (by decide)
  change x ∈ String.utf8EncodeChar c at hx
  rw [String.utf8EncodeChar, if_neg hlt] at hx
  -- one case for each length: a leading byte, then continuation bytes
  split at hx
  · simp only [List.mem_cons, List.not_mem_nil, or_false] at hx
    rcases hx with rfl | rfl
    · exact le_ofNat_add (Nat.mod_lt _ (by decide)) (by decide) (by decide)
    · exact hcont _
  · split at hx
    · simp only [List.mem_cons, List.not_mem_nil, or_false] at hx
      rcases hx with rfl | rfl | rfl
      · exact le_ofNat_add (Nat.mod_lt _ (by decide)) (by decide) (by decide)
      · exact hcont _
      · exact hcont _
    · simp only [List.mem_cons, List.not_mem_nil, or_false] at hx
      rcases hx with rfl | rfl | rfl | rfl
      · exact le_ofNat_add (Nat.mod_lt _ (by decide)) (by decide) (by decide)
      · exact hcont _
      · exact hcont _
      · exact hcont _

/-! ### Texts in ASCII -/

/-- The bytes of an ASCII text are the numbers of its characters. -/
theorem ofString_ofList_of_ascii {cs : List Char} (h : ∀ c ∈ cs, c.toNat < 0x80) :
    ofString (String.ofList cs) = cs.map fun c => UInt8.ofNat c.toNat := by
  rw [ofString_ofList]
  induction cs with
  | nil => rfl
  | cons c rest ih =>
    rw [List.flatMap_cons, List.map_cons, utf8_of_lt (h c (List.mem_cons_self ..)),
      ih fun d hd => h d (List.mem_cons_of_mem _ hd)]
    rfl

theorem lt_of_mem_ofString {s : String} (h : ∀ c ∈ s.toList, c.toNat < 0x80) {x : UInt8}
    (hx : x ∈ ofString s) : x < 0x80 := by
  rw [← s.ofList_toList, ofString_ofList_of_ascii h] at hx
  obtain ⟨c, hc, rfl⟩ := List.mem_map.mp hx
  have hlt := h c hc
  rw [UInt8.lt_iff_toNat_lt, UInt8.toNat_ofNat', Nat.mod_eq_of_lt (by omega)]
  exact hlt

/-- A text that is written byte by byte has these bytes, if all are ASCII. -/
theorem ofString_ofList_ofUInt8 {b : Bytes} (h : ∀ x ∈ b, x < 0x80) :
    ofString (String.ofList (b.map Char.ofUInt8)) = b := by
  have hto : ∀ x : UInt8, (Char.ofUInt8 x).toNat = x.toNat := fun x => by
    show (x.toUInt32).toNat = _
    simp
  rw [ofString_ofList_of_ascii, List.map_map]
  · refine (List.map_congr_left fun x _ => ?_).trans (List.map_id b)
    show UInt8.ofNat (Char.ofUInt8 x).toNat = x
    rw [hto, UInt8.ofNat_toNat]
  · intro c hc
    obtain ⟨x, hx, rfl⟩ := List.mem_map.mp hc
    rw [hto]
    exact UInt8.lt_iff_toNat_lt.mp (h x hx)

end DidToken.Bytes
