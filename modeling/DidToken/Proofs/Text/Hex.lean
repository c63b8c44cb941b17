import DidToken.Proofs.Checks
import DidToken.Proofs.Text.Utf8
import DidToken.Text.Hex
/-!
# Hexadecimal is read in every spelling

Bytes have one text in lower-case digits and many more, with upper-case digits or with a marker in front
(`Spells`). All of them are read as the bytes (`decode_of_spells`). Text of the digits alone is never taken
for marked text, since the letter of the marker is no digit.
-/

namespace DidToken.Text.Hex

/-! ### Digits -/

theorem toLower_of_le {c : Char} (h : 0x80 ≤ c.toNat) : c.toLower = c := by
  refine dif_neg fun hupper => ?_
  have hle : c.toNat ≤ 90 := UInt32.le_iff_toNat_le.mp hupper.2
  omega

/-- A digit in either case is ASCII and has the value of the digit in lower case. -/
theorem value?_of_toLower {c : Char} {n : Nat} (hn : n < 16) (h : c.toLower = Nat.digitChar n) :
    c.toNat < 0x80 ∧ value? (UInt8.ofNat c.toNat) = some n := by
  have hdigit : ∀ n < 16, (Nat.digitChar n).toNat < 0x80 := by decide
  have hvalue : ∀ n < 16, ∀ m < 0x80, (Char.ofNat m).toLower = Nat.digitChar n →
      value? (UInt8.ofNat m) = some n := by decide
  have hascii : c.toNat < 0x80 := by
    rcases Nat.lt_or_ge c.toNat 0x80 with hlt | hle
    · exact hlt
    · rw [toLower_of_le hle] at h
      exact h ▸ hdigit n hn
  refine ⟨hascii, hvalue n hn c.toNat hascii ?_⟩
  rwa [Char.ofNat_toNat]

/-- Texts whose digits are those of some bytes, whatever their case. -/
theorem pairs_of_toLower {cs : List Char} {b : Bytes} (h : cs.map Char.toLower = b.flatMap digits)
    (index : Nat) :
    (∀ c ∈ cs, c.toNat < 0x80) ∧ cs.length = 2 * b.length
      ∧ pairs index (cs.map fun c => UInt8.ofNat c.toNat) = .ok b := by
  induction b generalizing cs index with
  | nil =>
    obtain rfl := List.map_eq_nil_iff.mp h
    exact ⟨List.forall_mem_nil _, rfl, rfl⟩
  | cons x rest ih =>
    have hx := x.toNat_lt
    rw [List.flatMap_cons, digits, List.cons_append, List.singleton_append] at h
    obtain ⟨high, cs, rfl, hhigh, h⟩ := List.map_eq_cons_iff.mp h
    obtain ⟨low, cs, rfl, hlow, h⟩ := List.map_eq_cons_iff.mp h
    obtain ⟨hascii, hlength, hpairs⟩ := ih h (index + 2)
    obtain ⟨hhighAscii, hhigh⟩ := value?_of_toLower (by omega) hhigh
    obtain ⟨hlowAscii, hlow⟩ := value?_of_toLower (by omega) hlow
    refine ⟨List.forall_mem_cons.mpr ⟨hhighAscii, List.forall_mem_cons.mpr ⟨hlowAscii, hascii⟩⟩, ?_, ?_⟩
    · simp only [List.length_cons, hlength]
      omega
    · have hbyte : UInt8.ofNat (16 * (x.toNat / 16) + x.toNat % 16) = x := by
        rw [Nat.div_add_mod, UInt8.ofNat_toNat]
      simp only [List.map_cons, pairs, digitAt, hhigh, hlow, ok_bind, hpairs, hbyte]
      rfl

theorem map_toLower_of_toLower {text : String} {b : Bytes} (h : text.toLower = encode b) :
    text.toList.map Char.toLower = b.flatMap digits := by
  rw [← String.toList_map, ← String.toList_ofList (l := b.flatMap digits)]
  exact congrArg String.toList h

theorem decode_of_toLower {text : String} {b : Bytes} (h : text.toLower = encode b) :
    decode text = .ok b := by
  obtain ⟨hascii, hlength, hpairs⟩ := pairs_of_toLower (map_toLower_of_toLower h) 0
  have hbytes := Bytes.ofString_ofList_of_ascii hascii
  rw [String.ofList_toList] at hbytes
  have heven : ¬(Bytes.ofString text).length % 2 = 1 := by
    rw [hbytes, List.length_map, hlength]
    omega
  rw [decode]
  simp only [if_neg heven]
  rw [hbytes, hpairs]

/-! ### Markers -/

theorem stripMarker_lower (text : String) : stripMarker ("0x" ++ text) = text := by
  have hmarker : "0x".toList = ['0', 'x'] := by decide
  rw [stripMarker, String.toList_append, hmarker]
  exact String.ofList_toList

theorem stripMarker_upper (text : String) : stripMarker ("0X" ++ text) = text := by
  have hmarker : "0X".toList = ['0', 'X'] := by decide
  rw [stripMarker, String.toList_append, hmarker]
  exact String.ofList_toList

/-- A text without the letter of a marker has no marker. -/
theorem stripMarker_of_forall {text : String} (h : ∀ c ∈ text.toList, c ≠ 'x' ∧ c ≠ 'X') :
    stripMarker text = text := by
  rw [stripMarker]
  split
  · next rest hmarked =>
    rw [hmarked] at h
    exact absurd rfl (h 'x' (List.mem_cons_of_mem _ (List.mem_cons_self ..))).1
  · next rest hmarked =>
    rw [hmarked] at h
    exact absurd rfl (h 'X' (List.mem_cons_of_mem _ (List.mem_cons_self ..))).2
  · rfl

/-! ### Spellings -/

/-- The texts of some bytes: their digits in either case, alone or after a marker. -/
inductive Spells (b : Bytes) : String → Prop
  | plain {text : String} (h : text.toLower = encode b) : Spells b text
  | lower {text : String} (h : text.toLower = encode b) : Spells b ("0x" ++ text)
  | upper {text : String} (h : text.toLower = encode b) : Spells b ("0X" ++ text)

theorem ne_marker_of_toLower {text : String} {b : Bytes} (h : text.toLower = encode b) :
    ∀ c ∈ text.toList, c ≠ 'x' ∧ c ≠ 'X' := by
  have hdigit : ∀ n < 16, Nat.digitChar n ≠ 'x' := by decide
  intro c hc
  have hlower : c.toLower ∈ b.flatMap digits := map_toLower_of_toLower h ▸ List.mem_map_of_mem hc
  obtain ⟨x, -, hx⟩ := List.mem_flatMap.mp hlower
  have hlt := x.toNat_lt
  -- both letters are `x` in lower case
  have hne : c.toLower ≠ 'x' := by
    rw [digits, List.mem_cons, List.mem_singleton] at hx
    rcases hx with hx | hx
    · exact hx ▸ hdigit _ (by omega)
    · exact hx ▸ hdigit _ (by omega)
  constructor
  · rintro rfl
    exact hne rfl
  · rintro rfl
    exact hne rfl

/-- The bytes are read from each of their texts, once it is freed of a marker. -/
theorem decode_of_spells {text : String} {b : Bytes} (h : Spells b text) :
    decode (stripMarker text) = .ok b := by
  cases h with
  | plain h => rw [stripMarker_of_forall (ne_marker_of_toLower h), decode_of_toLower h]
  | lower h => rw [stripMarker_lower, decode_of_toLower h]
  | upper h => rw [stripMarker_upper, decode_of_toLower h]

end DidToken.Text.Hex
