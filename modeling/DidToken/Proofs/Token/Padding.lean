import DidToken.Proofs.Token.Compact
/-!
# Segments have one spelling up to padding

The text of a segment determines its bytes, and the bytes determine the text up to equals signs that fill up
the last group of four (`decodeBytes_eq_ok_iff`). So nothing can be put into a segment beside what its bytes
are written as: no other characters, no more padding, and no bits that belong to no byte
(`decodeBytes_canonical`).
-/

namespace DidToken.Token

open Text

/-! ### Characters -/

/-- The characters of segments: letters and digits, the hyphen and the low line. -/
def IsSymbol (c : Char) : Prop :=
  c.isAlphanum = true ∨ c = '-' ∨ c = '_'

instance (c : Char) : Decidable (IsSymbol c) :=
  inferInstanceAs (Decidable (_ ∨ _))

theorem isSymbol_of_mem_encodeBytes {b : Bytes} {c : Char} (h : c ∈ (encodeBytes b).toList) : IsSymbol c := by
  have hsymbol : ∀ n < 64, IsSymbol (Char.ofUInt8 (Base64.urlSafe.symbol n)) := by decide
  obtain ⟨n, hn, rfl⟩ := Base64.mem_encode h
  exact hsymbol n hn

/-! ### Spellings -/

theorem decodeBytes_eq_ok_iff {segment : Segment} {text : String} {b : Bytes} :
    decodeBytes segment text = .ok b ↔ ∃ k ≤ Base64.padLength b, text = encodeBytes b ++ Base64.pads k := by
  rw [decodeBytes, mapError_eq_ok_iff, Base64.decode_eq_ok_iff Base64.urlSafe_isProper]
  constructor
  · rintro ⟨k, hk, -, h⟩
    exact ⟨k, hk, h⟩
  · rintro ⟨k, hk, h⟩
    refine ⟨k, hk, fun hrequired => ?_, h⟩
    cases hrequired

theorem encodeBytes_injective : Function.Injective encodeBytes := by
  intro b b' h
  have hread := decodeBytes_encodeBytes .signature b
  rw [h, decodeBytes_encodeBytes] at hread
  exact (Except.ok.inj hread).symm

theorem length_encodeBytes (b : Bytes) : (encodeBytes b).length = (Base64.sextets b).length := by
  rw [encodeBytes, Base64.encode, String.length_ofList, List.length_map]

section

variable {segment : Segment} {text : String} {b : Bytes} (h : decodeBytes segment text = .ok b)
include h

/-- A segment that is read consists of symbols and equals signs. -/
theorem isSymbol_or_eq_of_decodeBytes {c : Char} (hc : c ∈ text.toList) : IsSymbol c ∨ c = '=' := by
  obtain ⟨k, -, rfl⟩ := decodeBytes_eq_ok_iff.mp h
  rw [String.toList_append, Base64.pads, String.toList_ofList] at hc
  rcases List.mem_append.mp hc with hc | hc
  · exact .inl (isSymbol_of_mem_encodeBytes hc)
  · exact .inr (List.mem_replicate.mp hc).2

theorem length_mod_of_decodeBytes : text.length % 4 ≠ 1 := by
  obtain ⟨k, hk, rfl⟩ := decodeBytes_eq_ok_iff.mp h
  have hmod := Base64.length_sextets_mod b
  rw [Base64.padLength_eq] at hk
  rw [String.length_append, length_encodeBytes, Base64.pads, String.length_ofList, List.length_replicate]
  omega

end

/-- Symbols and padding that are read leave no unused bits and go no further than the last group. -/
theorem of_decodeBytes_write {segment : Segment} {ns : List Nat} {k : Nat} {b : Bytes}
    (hlt : ∀ n ∈ ns, n < 64)
    (h : decodeBytes segment (Base64.write Base64.urlSafe ns ++ Base64.pads k) = .ok b) :
    k ≤ (4 - ns.length % 4) % 4 ∧ ∀ n, ns.getLast? = some n → Base64.unusedBits ns.length n = 0 := by
  obtain ⟨rfl, hk⟩ :=
    Base64.sextets_of_decode_write Base64.urlSafe_isProper hlt (mapError_eq_ok_iff.mp h)
  exact ⟨Base64.padLength_eq b ▸ hk, fun n => Base64.unusedBits_sextets⟩

/-- A segment is read as bytes exactly if it is the text of the bytes, followed by as many equals signs as
fill up its last group of four, or fewer. So what is written is read back, different bytes are written
differently, and only symbols are written. A text with any other character is not read, nor is one that is a
single character longer than whole groups, has more padding than fills up its last group, or has bits that
belong to no byte and are not zero. -/
theorem decodeBytes_canonical (segment : Segment) :
    (∀ text b, decodeBytes segment text = .ok b
      ↔ ∃ k ≤ Base64.padLength b, text = encodeBytes b ++ Base64.pads k)
    ∧ (∀ b, decodeBytes segment (encodeBytes b) = .ok b)
    ∧ Function.Injective encodeBytes
    ∧ (∀ b, ∀ c ∈ (encodeBytes b).toList, IsSymbol c)
    ∧ (∀ text, (∃ c ∈ text.toList, ¬IsSymbol c ∧ c ≠ '=') ∨ text.length % 4 = 1 →
      ¬∃ b, decodeBytes segment text = .ok b)
    ∧ ∀ ns k, (∀ n ∈ ns, n < 64) →
      (4 - ns.length % 4) % 4 < k ∨ (∃ n, ns.getLast? = some n ∧ Base64.unusedBits ns.length n ≠ 0) →
        ¬∃ b, decodeBytes segment (Base64.write Base64.urlSafe ns ++ Base64.pads k) = .ok b := by
  refine ⟨fun text b => decodeBytes_eq_ok_iff, decodeBytes_encodeBytes segment, encodeBytes_injective,
    fun b c => isSymbol_of_mem_encodeBytes, ?_, ?_⟩
  · rintro text (⟨c, hc, hsymbol, heq⟩ | hlength) ⟨b, hb⟩
    · exact (isSymbol_or_eq_of_decodeBytes hb hc).elim hsymbol heq
    · exact length_mod_of_decodeBytes hb hlength
  · rintro ns k hlt hwrong ⟨b, hb⟩
    obtain ⟨hk, hunused⟩ := of_decodeBytes_write hlt hb
    rcases hwrong with hpads | ⟨n, hn, hne⟩
    · exact absurd hk (Nat.not_le.mpr hpads)
    · exact hne (hunused n hn)

/-- A segment with half of its padding, and texts with a character of another alphabet, with a lone symbol
at the end, with padding behind a full group, and with an unused bit that is set. -/
theorem decodeBytes_canonical_partial :
    decodeBytes .signature "AQ=" = .ok [1]
      ∧ (¬∃ b, decodeBytes .signature "AQ+=" = .ok b)
      ∧ (¬∃ b, decodeBytes .signature "AQABA" = .ok b)
      ∧ (¬∃ b, decodeBytes .signature "AQAB=" = .ok b)
      ∧ ¬∃ b, decodeBytes .signature "AR==" = .ok b := by
  obtain ⟨hspelling, -, -, -, hforeign, hwrong⟩ := decodeBytes_canonical .signature
  have hfull := hwrong [0, 16, 0, 1] 1 (by decide) (.inl (by decide))
  have hunused := hwrong [0, 17] 2 (by decide) (.inr ⟨17, rfl, by decide⟩)
  exact ⟨(hspelling _ _).mpr ⟨1, by decide, by decide⟩, hforeign _ (.inl ⟨'+', by decide, by decide⟩),
    hforeign _ (.inr (by decide)), hfull, hunused⟩

end DidToken.Token
