/-!
# Byte strings

Tokens, keys and digests are lists of bytes. This module relates byte strings to text (by UTF-8) and
to numbers (most significant byte first). Text survives the trip through bytes
(`toString?_ofString`).
-/

namespace DidToken

abbrev Bytes := List UInt8

namespace Bytes

/-! ### Text -/

def ofString (s : String) : Bytes :=
  s.toByteArray.data.toList

/-- The text that a byte string encodes, if it is well-formed UTF-8. -/
def toString? (b : Bytes) : Option String :=
  String.fromUTF8? ⟨b.toArray⟩

theorem toString?_ofString (s : String) : toString? (ofString s) = some s := by
  have h : (⟨(ofString s).toArray⟩ : ByteArray) = s.toByteArray := by
    simp [ofString]
  simp only [toString?, h, String.fromUTF8?, dif_pos s.isValidUTF8]
  rfl

theorem ofString_injective {s t : String} (h : ofString s = ofString t) : s = t := by
  have := congrArg toString? h
  simpa [toString?_ofString] using this

theorem ofString_append (s t : String) : ofString (s ++ t) = ofString s ++ ofString t := by
  simp [ofString, String.toByteArray_append]

/-! ### Numbers -/

/-- The number that a byte string denotes, most significant byte first. -/
def toNat (b : Bytes) : Nat :=
  b.foldl (fun n x => 256 * n + x.toNat) 0

/-- The `width` low bytes of a number, most significant byte first. -/
def ofNat : (width : Nat) → Nat → Bytes
  | 0, _ => []
  | w + 1, n => ofNat w (n / 256) ++ [UInt8.ofNat n]

/-- The bytes of a number without leading zeros, most significant byte first; none for zero. -/
def ofNatShort (n : Nat) : Bytes :=
  if n = 0 then [] else ofNatShort (n / 256) ++ [UInt8.ofNat n]
termination_by n
decreasing_by omega

@[simp] theorem length_ofNat (w n : Nat) : (ofNat w n).length = w := by
  induction w generalizing n with
  | zero => rfl
  | succ w ih => simp [ofNat, ih]

@[simp] theorem toNat_append_singleton (b : Bytes) (x : UInt8) :
    toNat (b ++ [x]) = 256 * toNat b + x.toNat := by
  simp [toNat]

end Bytes

end DidToken
