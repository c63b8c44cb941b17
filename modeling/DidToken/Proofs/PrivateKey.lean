import DidToken.KeyPair
import DidToken.Proofs.Text.Numeral
/-!
# Private keys as texts

A private key is a number in hexadecimal: at most 64 digits in either case, alone or after a marker
(`IsKeyText`). Every such text makes the key pair of its number, if the number is in range, and no other text
makes one (`ofHex_denotes`). The number is also reached by copying the bytes of the text to the end of an array
of zeros as long as a key, which never leaves the array (`ofHexInArray`).
-/

namespace DidToken

namespace Text.Hex

/-! ### Rows of digits in texts -/

theorem Denotes.of_mem {cs : List Char} {n : Nat} (h : Denotes cs n) {c : Char} (hc : c ∈ cs) :
    c.toNat < 0x80 ∧ c ≠ 'x' ∧ c ≠ 'X' := by
  have hmarker : ∀ d < 16, 'x'.toLower ≠ Nat.digitChar d ∧ 'X'.toLower ≠ Nat.digitChar d := by decide
  induction h with
  | nil => cases hc
  | concat row lt digit ih =>
    rcases List.mem_append.mp hc with hc | hc
    · exact ih hc
    · obtain rfl := List.mem_singleton.mp hc
      refine ⟨(value?_of_toLower lt digit).1, ?_, ?_⟩
      · rintro rfl
        exact (hmarker _ lt).1 digit
      · rintro rfl
        exact (hmarker _ lt).2 digit

theorem Denotes.utf8ByteSize {digits : String} {n : Nat} (h : Denotes digits.toList n) :
    digits.utf8ByteSize = digits.toList.length := by
  have hbytes := Bytes.ofString_ofList_of_ascii fun c hc => (h.of_mem hc).1
  rw [String.ofList_toList] at hbytes
  have hlength := congrArg List.length hbytes
  rwa [List.length_map, Bytes.ofString, Array.length_toList] at hlength

end Text.Hex

namespace KeyPair

open Text.Hex (Denotes stripMarker)

/-- The texts of a number of at most 64 digits: in either case, alone or after a marker. -/
def IsKeyText (text : String) (n : Nat) : Prop :=
  ∃ digits : String, (text = digits ∨ text = "0x" ++ digits ∨ text = "0X" ++ digits)
    ∧ digits.toList.length ≤ 64 ∧ Denotes digits.toList n

/-- The key pair of a number in range. -/
def ofNumber (n : Nat) : Except Fault KeyPair :=
  match ofNat? n with
  | some pair => .ok pair
  | none => .error .invalid

theorem ofNumber_eq_ok_iff {n : Nat} {pair : KeyPair} :
    ofNumber n = .ok pair ↔ 1 ≤ n ∧ n < Secp256k1.order ∧ pair.secret.val = n := by
  obtain ⟨secret, hne⟩ := pair
  rw [ofNumber, ofNat?]
  by_cases hpos : 0 < n
  · by_cases hlt : n < Secp256k1.order
    · simp only [dif_pos hpos, dif_pos hlt, Except.ok.injEq, mk.injEq, Fin.ext_iff]
      exact ⟨fun h => ⟨hpos, hlt, h.symm⟩, fun h => h.2.2.symm⟩
    · simp [hpos, hlt]
  · have hzero : ¬1 ≤ n := hpos
    simp [hpos, hzero]

/-! ### Reading -/

/-- What is left of a text without its marker, and what it was. -/
theorem eq_of_stripMarker (text : String) :
    text = stripMarker text ∨ text = "0x" ++ stripMarker text ∨ text = "0X" ++ stripMarker text := by
  rw [stripMarker]
  split
  · next rest h =>
    have hmarker : "0x".toList = ['0', 'x'] := by decide
    refine .inr (.inl (String.toList_inj.mp ?_))
    rw [h, String.toList_append, hmarker, String.toList_ofList]
    rfl
  · next rest h =>
    have hmarker : "0X".toList = ['0', 'X'] := by decide
    refine .inr (.inr (String.toList_inj.mp ?_))
    rw [h, String.toList_append, hmarker, String.toList_ofList]
    rfl
  · exact .inl rfl

theorem toList_zero_append (digits : String) : ("0" ++ digits).toList = '0' :: digits.toList := by
  rw [String.toList_append]
  rfl

/-- The digits of a key are made even in number, which does not change what they denote. -/
theorem denotes_evenDigits {digits : String} {n : Nat} (h : Denotes digits.toList n) :
    ∃ w, Denotes (evenDigits digits).toList n ∧ (evenDigits digits).toList.length = 2 * w
      ∧ w = (digits.toList.length + 1) / 2 := by
  rw [evenDigits, h.utf8ByteSize]
  split
  · next hodd =>
    rw [toList_zero_append]
    exact ⟨_, Text.Hex.denotes_zero_cons_iff.mpr h, by rw [List.length_cons]; omega, rfl⟩
  · next heven =>
    exact ⟨_, h, by omega, rfl⟩

theorem of_denotes_evenDigits {digits : String} {n : Nat} (h : Denotes (evenDigits digits).toList n) :
    Denotes digits.toList n ∧ digits.toList.length ≤ (evenDigits digits).toList.length := by
  rw [evenDigits] at h ⊢
  split at h
  · next hodd =>
    rw [toList_zero_append] at h
    rw [if_pos hodd, toList_zero_append]
    exact ⟨Text.Hex.denotes_zero_cons_iff.mp h, Nat.le_succ _⟩
  · next heven =>
    rw [if_neg heven]
    exact ⟨h, Nat.le_refl _⟩

theorem ofHex_of_decode {text : String} {b : Bytes}
    (h : Text.Hex.decode (evenDigits (stripMarker text)) = .ok b) :
    KeyPair.ofHex text = if size < b.length then .error (.length b.length) else ofNumber (Bytes.toNat b) := by
  rw [KeyPair.ofHex, h]
  rfl

/-- A text of a number makes the key pair of the number. -/
theorem IsKeyText.ofHex {text : String} {n : Nat} (h : IsKeyText text n) : ofHex text = ofNumber n := by
  obtain ⟨digits, htext, hlength, hdenotes⟩ := h
  have hmarker : stripMarker text = digits := by
    rcases htext with rfl | rfl | rfl
    · exact Text.Hex.stripMarker_of_forall fun c hc => (hdenotes.of_mem hc).2
    · exact Text.Hex.stripMarker_lower digits
    · exact Text.Hex.stripMarker_upper digits
  obtain ⟨w, heven, hwidth, hw⟩ := denotes_evenDigits hdenotes
  -- at most 64 digits are at most 32 bytes, and the number fits into them
  have hsize : ¬size < w := by
    rw [size]
    omega
  have hlt : n < 256 ^ w := by
    have := heven.lt
    rwa [hwidth, Nat.pow_mul] at this
  rw [ofHex_of_decode (hmarker ▸ Text.Hex.decode_of_denotes heven hwidth), Bytes.length_ofNat, if_neg hsize,
    Bytes.toNat_ofNat hlt]

/-- What makes a key pair is a text of its number. -/
theorem exists_isKeyText {text : String} {pair : KeyPair} (h : KeyPair.ofHex text = .ok pair) :
    ∃ n, IsKeyText text n ∧ ofNumber n = .ok pair := by
  cases hb : Text.Hex.decode (evenDigits (stripMarker text)) with
  | error cause =>
    rw [KeyPair.ofHex, hb] at h
    cases h
  | ok b =>
    rw [ofHex_of_decode hb] at h
    split at h
    · cases h
    · next hsize =>
      obtain ⟨heven, hwidth⟩ := Text.Hex.denotes_of_decode hb
      obtain ⟨hdenotes, hlength⟩ := of_denotes_evenDigits heven
      rw [size] at hsize
      exact ⟨Bytes.toNat b, ⟨_, eq_of_stripMarker text, by omega, hdenotes⟩, h⟩

/-! ### In an array of the size of a key -/

/-- An array with its bytes from `start` on replaced; none if `start` is behind its end, or if there are not
as many bytes as are replaced. -/
def replaceFrom? (array : Bytes) (start : Nat) (b : Bytes) : Option Bytes :=
  if start ≤ array.length ∧ array.length - start = b.length then some (array.take start ++ b) else none

/-- The bytes of a key at the end of an array of zeros. -/
def padded? (b : Bytes) : Option Bytes := do
  let start ← difference? size b.length
  replaceFrom? (List.replicate size 0) start b

/-- The key pair of a private key in hexadecimal, by way of an array of the size of a key; none if that is
used out of its range. -/
def ofHexInArray (text : String) : Option (Except Fault KeyPair) :=
  match Text.Hex.decode (evenDigits (stripMarker text)) with
  | .error cause => some (.error (.hex cause))
  | .ok b =>
    if size < b.length then some (.error (.length b.length))
    else (padded? b).map fun key => ofNumber (Bytes.toNat key)

theorem padded?_eq_some {b : Bytes} (h : b.length ≤ size) :
    padded? b = some (List.replicate (size - b.length) 0 ++ b) := by
  have hrange : size - b.length ≤ (List.replicate size (0 : UInt8)).length
      ∧ (List.replicate size (0 : UInt8)).length - (size - b.length) = b.length := by
    rw [List.length_replicate]
    omega
  rw [padded?, difference?_of_le h, Option.bind_eq_bind, Option.bind_some, replaceFrom?, if_pos hrange,
    List.take_replicate, Nat.min_eq_left (Nat.sub_le _ _)]

/-- The array is never used out of its range, and makes no difference. -/
theorem ofHexInArray_eq (text : String) : ofHexInArray text = some (KeyPair.ofHex text) := by
  cases hb : Text.Hex.decode (evenDigits (stripMarker text)) with
  | error cause => rw [ofHexInArray, KeyPair.ofHex, hb]
  | ok b =>
    rw [ofHexInArray, ofHex_of_decode hb, hb]
    simp only
    split
    · rfl
    · next hsize =>
      rw [padded?_eq_some (Nat.le_of_not_lt hsize), Option.map_some, Bytes.toNat_replicate_append]

/-! ### Texts and key pairs -/

/-- A text makes a key pair exactly if it is the text of a number from one up and below the order, and then
the number is the secret. Any two texts of a number come to the same, be it a key pair or a fault. Reading never
leaves the array that a key is put into. -/
theorem ofHex_denotes :
    (∀ text pair, KeyPair.ofHex text = .ok pair
      ↔ ∃ n, IsKeyText text n ∧ 1 ≤ n ∧ n < Secp256k1.order ∧ pair.secret.val = n)
    ∧ (∀ text other n, IsKeyText text n → IsKeyText other n → KeyPair.ofHex text = KeyPair.ofHex other)
    ∧ ∀ text, ofHexInArray text = some (KeyPair.ofHex text) := by
  refine ⟨fun text pair => ⟨fun h => ?_, ?_⟩, fun text other n h h' => ?_, ofHexInArray_eq⟩
  · obtain ⟨n, htext, hpair⟩ := exists_isKeyText h
    exact ⟨n, htext, ofNumber_eq_ok_iff.mp hpair⟩
  · rintro ⟨n, htext, hnumber⟩
    exact htext.ofHex.trans (ofNumber_eq_ok_iff.mpr hnumber)
  · exact h.ofHex.trans h'.ofHex.symm

/-- One number in an odd number of digits after a marker, and with a zero in front. -/
theorem ofHex_denotes_odd :
    ∃ pair, KeyPair.ofHex "0Xa3F" = .ok pair ∧ pair.secret.val = 0xa3f
      ∧ KeyPair.ofHex "0Xa3F" = KeyPair.ofHex "0A3f" := by
  have hrow : ∀ {f : Char}, f.toLower = 'f' → ∀ {a : Char}, a.toLower = 'a' → Denotes [a, '3', f] 0xa3f :=
    fun hf _ ha => ((Denotes.nil.concat (d := 10) (by decide) ha).concat (d := 3) (by decide)
      (by decide : '3'.toLower = '3')).concat (d := 15) (by decide) hf
  have hodd : IsKeyText "0Xa3F" 0xa3f :=
    ⟨"a3F", .inr (.inr (by decide)), by decide, hrow (by decide) (by decide)⟩
  have hzero : IsKeyText "0A3f" 0xa3f :=
    ⟨"0A3f", .inl rfl, by decide, Text.Hex.denotes_zero_cons_iff.mpr (hrow (by decide) (by decide))⟩
  obtain ⟨pair, hpair⟩ : ∃ pair, ofNumber 0xa3f = .ok pair := ⟨_, rfl⟩
  have hnumber := ofNumber_eq_ok_iff.mp hpair
  exact ⟨pair, (ofHex_denotes.1 "0Xa3F" pair).mpr ⟨_, hodd, hnumber⟩, hnumber.2.2,
    ofHex_denotes.2.1 _ _ _ hodd hzero⟩

end KeyPair

end DidToken
