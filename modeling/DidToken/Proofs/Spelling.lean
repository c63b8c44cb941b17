import DidToken.Proofs.KeyPair
import DidToken.Proofs.Materials
import DidToken.Proofs.PublicKey
import DidToken.Proofs.Text.Base58
import DidToken.Proofs.Text.Base64
import DidToken.Proofs.Text.Hex
/-!
# The spelling of a key does not matter

An entry that names no address gives its key as a text, in one of three notations for one of three encodings
(`KeyEntry.Gives`). Whatever the notation, the key is read from it, and its address with it, so that entries
that give one key are alike (`KeyEntry.Alike`). No signature tells alike entries apart
(`Signature.comesFrom_of_alike`), and keys may be respelled wherever they are listed
(`Signature.comesFrom_respelled`).
-/

namespace DidToken

open Secp256k1 (generator)

/-! ### Notations -/

namespace KeyEntry

open Text

/-- The bytes of an entry, in the notation that is looked at first of those it has. -/
inductive Holds (entry : KeyEntry) (b : Bytes) : Prop
  | hex {text : String} (h : entry.hex = some text) (htext : Hex.Spells b text)
  | base64 (hex : entry.hex = none)
      (h : entry.base64 = some (Base64.encode Base64.standard b ++ Base64.pads (Base64.padLength b)))
  | base58 (hex : entry.hex = none) (base64 : entry.base64 = none)
      (h : entry.base58 = some (Base58.encode b))

/-- An entry that names no address holds an encoding of a key. -/
structure Gives (entry : KeyEntry) (key : PublicKey) : Prop where
  ethereumAddress : entry.ethereumAddress = none
  holds : ∃ b, key.IsEncoding b ∧ entry.Holds b

variable {entry other : KeyEntry} {key : PublicKey} {b : Bytes}

theorem Holds.bytes (h : entry.Holds b) : entry.bytes = some (.ok b) := by
  rw [KeyEntry.bytes]
  cases h with
  | hex h htext =>
    simp only [h, Hex.decode_of_spells htext]
    rfl
  | base64 hex h =>
    have hread := Base64.decode_encode_pads Base64.standard_isProper .required
      (Nat.le_refl (Base64.padLength b)) fun _ => rfl
    simp only [hex, h, hread]
    rfl
  | base58 hex base64 h =>
    simp only [hex, base64, h, Base58.decode_encode]
    rfl

theorem Gives.bytes (h : entry.Gives key) :
    ∃ b, entry.bytes = some (.ok b) ∧ PublicKey.ofBytes b = .ok key := by
  obtain ⟨b, hencoding, hholds⟩ := h.holds
  exact ⟨b, hholds.bytes, PublicKey.ofBytes_of_isEncoding hencoding⟩

theorem Gives.publicKey? (h : entry.Gives key) : entry.publicKey? = some key := by
  obtain ⟨b, hencoding, hholds⟩ := h.holds
  rw [KeyEntry.publicKey?, hholds.bytes]
  exact PublicKey.ofBytes?_of_isEncoding hencoding

theorem Gives.address? (h : entry.Gives key) :
    ∃ digits, entry.address? = some digits ∧ PublicKey.address key = "0x" ++ digits := by
  refine ⟨_, ?_, rfl⟩
  rw [KeyEntry.address?, h.ethereumAddress, h.publicKey?, ← Address.canonical_address]
  rfl

/-! ### Alike entries -/

/-- Entries that name the same address and have the same public key, if any. -/
structure Alike (entry other : KeyEntry) : Prop where
  ethereumAddress : entry.ethereumAddress = other.ethereumAddress
  publicKey? : entry.publicKey? = other.publicKey?

theorem Alike.address? (h : entry.Alike other) : entry.address? = other.address? := by
  rw [KeyEntry.address?, KeyEntry.address?, h.ethereumAddress, h.publicKey?]

theorem Gives.alike (h : entry.Gives key) (hother : other.Gives key) : entry.Alike other :=
  ⟨h.ethereumAddress.trans hother.ethereumAddress.symm, h.publicKey?.trans hother.publicKey?.symm⟩

/-- What alike entries agree on is found in both lists. -/
theorem filterMap_of_alike {α : Type} {keys others : List KeyEntry} {f : KeyEntry → Option α}
    (hf : ∀ {entry other : KeyEntry}, entry.Alike other → f entry = f other)
    (h : List.Forall₂ Alike keys others) : keys.filterMap f = others.filterMap f := by
  induction h with
  | nil => rfl
  | cons halike _ ih => rw [List.filterMap_cons, List.filterMap_cons, hf halike, ih]

theorem any_isSome_of_alike {keys others : List KeyEntry} (h : List.Forall₂ Alike keys others) :
    keys.any (fun key => key.ethereumAddress.isSome)
      = others.any (fun key => key.ethereumAddress.isSome) := by
  induction h with
  | nil => rfl
  | cons halike _ ih => rw [List.any_cons, List.any_cons, halike.ethereumAddress, ih]

/-- The same entry, or one that gives the same key. -/
def IsSpellingOf (entry other : KeyEntry) : Prop :=
  entry = other ∨ ∃ key, entry.Gives key ∧ other.Gives key

theorem IsSpellingOf.alike (h : entry.IsSpellingOf other) : entry.Alike other := by
  rcases h with rfl | ⟨key, hentry, hother⟩
  · exact ⟨rfl, rfl⟩
  · exact hentry.alike hother

end KeyEntry

/-! ### Attribution -/

namespace Signature

variable {algorithm : Algorithm} {keys others : List KeyEntry} {b message : Bytes}

theorem comesFrom_of_alike (h : List.Forall₂ KeyEntry.Alike keys others) :
    comesFrom algorithm keys b message = comesFrom algorithm others b message := by
  have hrecovers (candidates : List Signature) :
      recoversTo keys candidates message = recoversTo others candidates message := by
    rw [recoversTo, recoversTo, KeyEntry.filterMap_of_alike KeyEntry.Alike.address? h]
  have hverifies (candidates : List Signature) :
      verifiesUnder keys candidates message = verifiesUnder others candidates message := by
    rw [verifiesUnder.eq_def, verifiesUnder.eq_def, KeyEntry.filterMap_of_alike KeyEntry.Alike.publicKey? h]
  have hattributes : attributes algorithm keys message = attributes algorithm others message := by
    funext candidates
    rw [attributes.eq_def, attributes.eq_def, KeyEntry.any_isSome_of_alike h, hrecovers, hverifies]
  rw [comesFrom_eq, comesFrom_eq, hattributes]

end Signature

/-! ### Public keys of key pairs -/

theorem PublicKey.ofHex_of_spells {key : PublicKey} {b : Bytes} {text : String} (h : key.IsEncoding b)
    (htext : Text.Hex.Spells b text) : PublicKey.ofHex text = .ok key := by
  simp only [PublicKey.ofHex, Text.Hex.decode_of_spells htext, PublicKey.ofBytes_of_isEncoding h]

theorem KeyPair.ofHex_publicKeyHex (pair : KeyPair) :
    PublicKey.ofHex pair.publicKeyHex = .ok pair.publicKey :=
  PublicKey.ofHex_of_spells .uncompressed (.lower (Address.toLower_of_isLower (Address.isLower_encode _)))

/-- An entry that gives a key in any spelling is read as that key, and its address is that of the key without
the marker. Signatures come from keys just as they do from the same keys in other spellings. Of the spellings
of its public key, a key pair shows one that is read as that key. -/
theorem Signature.comesFrom_respelled :
    (∀ (key : PublicKey) (entry : KeyEntry), entry.Gives key →
      (∃ b, entry.bytes = some (.ok b) ∧ PublicKey.ofBytes b = .ok key)
      ∧ ∃ digits, entry.address? = some digits ∧ PublicKey.address key = "0x" ++ digits)
    ∧ (∀ (algorithm : Algorithm) (keys others : List KeyEntry) (b message : Bytes),
      List.Forall₂ KeyEntry.IsSpellingOf keys others →
        comesFrom algorithm keys b message = comesFrom algorithm others b message)
    ∧ ∀ pair : KeyPair, PublicKey.ofHex pair.publicKeyHex = .ok pair.publicKey := by
  refine ⟨fun key entry h => ⟨h.bytes, h.address?⟩, fun algorithm keys others b message h => ?_,
    KeyPair.ofHex_publicKeyHex⟩
  exact comesFrom_of_alike (h.imp fun _ _ => KeyEntry.IsSpellingOf.alike)

/-- The generator as a marked compressed point in upper case, and in base64 with its tag. -/
theorem Signature.comesFrom_respelled_generator :
    let plain : KeyEntry :=
      { id := "", keyType := "", owner := "", ethereumAddress := none, hex := none, base64 := none,
        base58 := none, value := none }
    let marked : KeyEntry :=
      { plain with
        hex := some ("0X" ++ "0279BE667EF9DCBBAC55A06295CE870B07029BFCDB2DCE28D959F2815B16F81798") }
    let padded : KeyEntry :=
      { plain with
        base64 := some
          "BHm+Zn753LusVaBilc6HCwcCm/zbLc4o2VnygVsW+BeYSDradyajxGVdpPv8DhEIqP0XtEimhVQZnEfQj/sQ1Lg=" }
    (∃ b, marked.bytes = some (.ok b) ∧ PublicKey.ofBytes b = .ok generator)
    ∧ (∀ algorithm b message,
      comesFrom algorithm [marked] b message = comesFrom algorithm [padded] b message)
    ∧ PublicKey.ofHex (KeyPair.publicKeyHex ⟨1, by decide⟩) = .ok (KeyPair.publicKey ⟨1, by decide⟩) := by
  intro plain marked padded
  have hmarked : marked.Gives generator := by
    refine ⟨rfl, _, .compressed, .hex rfl (.upper ?_)⟩
    decide +kernel
  have hpadded : padded.Gives generator := by
    refine ⟨rfl, _, .uncompressed, .base64 rfl (congrArg some ?_)⟩
    decide +kernel
  obtain ⟨hread, hreplace, hpair⟩ := comesFrom_respelled
  refine ⟨(hread generator marked hmarked).1, fun algorithm b message => ?_, hpair _⟩
  exact hreplace algorithm _ _ b message (.cons (.inr ⟨generator, hmarked, hpadded⟩) .nil)

end DidToken
