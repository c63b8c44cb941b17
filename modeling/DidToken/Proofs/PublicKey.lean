import DidToken.Proofs.Bytes
import DidToken.Proofs.Secp256k1.Ecdsa
import DidToken.PublicKey
/-!
# Public keys are read from each of their encodings

A key may be given by both coordinates, with a tag or without, or by the first one alone with a tag for the
parity of the second (`IsEncoding`). It is read from each of these (`ofBytes_of_isEncoding`): their lengths
tell the coordinates without a tag from the others, and of the points with one first coordinate only the key
has that parity.
-/

namespace DidToken

open Secp256k1

theorem Secp256k1.Coordinate.ofNat?_val (x : Coordinate) : Coordinate.ofNat? x.val = some x :=
  dif_pos x.isLt

namespace PublicKey

/-- The bytes that stand for a key. -/
inductive IsEncoding (key : PublicKey) : Bytes → Prop
  | uncompressed : IsEncoding key key.uncompressed
  | coordinates : IsEncoding key key.coordinates
  | compressed : IsEncoding key key.compressed

theorem coordinate?_ofNat (x : Coordinate) : coordinate? (Bytes.ofNat 32 x.val) = some x := by
  have hlt : x.val < 256 ^ 32 := x.isLt.trans (by decide)
  rw [coordinate?, if_pos (Bytes.length_ofNat 32 x.val), Bytes.toNat_ofNat hlt, Coordinate.ofNat?_val]

variable (key : PublicKey)

theorem length_coordinates : key.coordinates.length = 64 := by
  rw [coordinates, List.length_append, Bytes.length_ofNat, Bytes.length_ofNat]

theorem ofTagged?_uncompressed : ofTagged? key.uncompressed = some key := by
  have htake : key.coordinates.take 32 = Bytes.ofNat 32 key.x.val :=
    List.take_left' (Bytes.length_ofNat 32 key.x.val)
  have hdrop : key.coordinates.drop 32 = Bytes.ofNat 32 key.y.val :=
    List.drop_left' (Bytes.length_ofNat 32 key.x.val)
  rw [uncompressed, ofTagged?, htake, hdrop, coordinate?_ofNat, coordinate?_ofNat]
  exact Point.ofCoordinates?_self key

theorem ofTagged?_compressed : ofTagged? key.compressed = some key := by
  have hlift : Point.lift? key.x (isOdd key.y) = some key := Point.lift?_eq_some_iff.mpr ⟨rfl, rfl⟩
  rw [compressed]
  cases hodd : isOdd key.y with
  | false =>
    rw [hodd] at hlift
    rw [if_neg Bool.false_ne_true, ofTagged?, coordinate?_ofNat, Option.bind_eq_bind, Option.bind_some, hlift]
  | true =>
    rw [hodd] at hlift
    rw [if_pos rfl, ofTagged?, coordinate?_ofNat, Option.bind_eq_bind, Option.bind_some, hlift]

variable {key} {b : Bytes}

theorem ofBytes?_of_isEncoding (h : IsEncoding key b) : ofBytes? b = some key := by
  rw [ofBytes?]
  cases h with
  | uncompressed =>
    have hlength : key.uncompressed.length ≠ 64 := by
      rw [uncompressed, List.length_cons, length_coordinates]
      decide
    rw [if_neg hlength, ofTagged?_uncompressed]
  | coordinates => rw [if_pos (length_coordinates key), ← uncompressed, ofTagged?_uncompressed]
  | compressed =>
    have hlength : key.compressed.length ≠ 64 := by
      rw [compressed, List.length_cons, Bytes.length_ofNat]
      decide
    rw [if_neg hlength, ofTagged?_compressed]

theorem ofBytes_of_isEncoding (h : IsEncoding key b) : ofBytes b = .ok key := by
  rw [ofBytes, ofBytes?_of_isEncoding h]

set_option maxRecDepth 100000 in
/-- The address of the key whose secret is one. -/
theorem address_generator : address generator = "0x7e5f4552091a69125d5dfcb7b8c2659029395bdf" := by
  decide +kernel

end PublicKey

end DidToken
