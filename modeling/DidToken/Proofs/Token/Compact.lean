import DidToken.Proofs.Checks
import DidToken.Proofs.Json.Records
import DidToken.Proofs.Text.Base64
import DidToken.Token.Compact
/-!
# Splitting and decoding compact tokens

A token splits into three segments exactly if it is the text of three segments without dots, none of
them empty (`split_eq_ok_iff`). What is written into a segment consists of base64 symbols, so it has no
dots, and is decoded to what the reader makes of it (`decodeSegment_encodeObject`).
-/

namespace DidToken.Token

open Json Text

/-! ### Splitting at dots -/

theorem pieces_of_not_mem {cs : List Char} (h : '.' ∉ cs) : pieces cs = [cs] := by
  induction cs with
  | nil => rfl
  | cons c rest ih =>
    rw [List.mem_cons, not_or] at h
    rw [pieces, if_neg (Ne.symm h.1), ih h.2]

theorem pieces_append {cs : List Char} (h : '.' ∉ cs) (rest : List Char) :
    pieces (cs ++ '.' :: rest) = cs :: pieces rest := by
  induction cs with
  | nil => rw [List.nil_append, pieces, if_pos rfl]
  | cons c cs ih =>
    rw [List.mem_cons, not_or] at h
    rw [List.cons_append, pieces, if_neg (Ne.symm h.1), ih h.2]

/-- The pieces have no dots, and with dots between them they are the text again. -/
theorem pieces_spec (cs : List Char) :
    pieces cs ≠ [] ∧ ['.'].intercalate (pieces cs) = cs ∧ ∀ piece ∈ pieces cs, '.' ∉ piece := by
  -- the three facts go together: the first keeps the case without pieces out of the others
  induction cs with
  | nil => exact ⟨by decide, rfl, by simp [pieces]⟩
  | cons c rest ih =>
    obtain ⟨hne, hjoin, hdots⟩ := ih
    rw [pieces]
    by_cases hc : c = '.'
    · rw [if_pos hc, List.intercalate_cons_of_ne_nil hne, hjoin, hc]
      refine ⟨List.cons_ne_nil _ _, rfl, fun piece hp => ?_⟩
      rcases List.mem_cons.mp hp with rfl | hp
      · exact List.not_mem_nil
      · exact hdots piece hp
    · rw [if_neg hc]
      cases hp : pieces rest with
      | nil => exact absurd hp hne
      | cons piece more =>
        rw [hp] at hjoin hdots
        refine ⟨List.cons_ne_nil _ _, ?_, fun q hq => ?_⟩
        · rw [List.intercalate_cons_cons_left, hjoin]
        · rcases List.mem_cons.mp hq with rfl | hq
          · rw [List.mem_cons, not_or]
            exact ⟨Ne.symm hc, hdots piece (List.mem_cons_self ..)⟩
          · exact hdots q (List.mem_cons_of_mem _ hq)

/-- A text that can be a segment: it is not empty and has no dots. -/
def IsSegment (text : String) : Prop :=
  text ≠ "" ∧ '.' ∉ text.toList

/-- Three texts that can be segments. -/
structure Segments.IsProper (s : Segments) : Prop where
  header : IsSegment s.header
  payload : IsSegment s.payload
  signature : IsSegment s.signature

theorem Segments.toList_text (s : Segments) :
    s.text.toList = s.header.toList ++ '.' :: (s.payload.toList ++ '.' :: s.signature.toList) := by
  have hdot : ".".toList = ['.'] := by decide
  simp only [Segments.text, Segments.signingInput, String.toList_append, hdot, List.append_assoc,
    List.cons_append, List.nil_append]

theorem isSegment_ofList {cs : List Char} : IsSegment (String.ofList cs) ↔ cs ≠ [] ∧ '.' ∉ cs := by
  rw [IsSegment, ← String.ofList_nil, Ne, String.ofList_inj, String.toList_ofList]

theorem isSegment_iff {text : String} : IsSegment text ↔ text.toList ≠ [] ∧ '.' ∉ text.toList := by
  rw [← isSegment_ofList, String.ofList_toList]

/-- A token splits into segments exactly if it is their text. -/
theorem split_eq_ok_iff {token : String} {s : Segments} :
    split token = .ok s ↔ token = s.text ∧ s.IsProper := by
  constructor
  · intro h
    obtain ⟨-, hjoin, hdots⟩ := pieces_spec token.toList
    rw [split] at h
    split at h
    · next header payload signature hp =>
      rw [hp] at hjoin hdots
      -- none of the three pieces is empty
      split at h
      · cases h
      split at h
      · cases h
      split at h
      · cases h
      next hh hpl hs =>
      cases h
      refine ⟨?_, ⟨isSegment_ofList.mpr ⟨hh, hdots _ (by simp)⟩,
        isSegment_ofList.mpr ⟨hpl, hdots _ (by simp)⟩, isSegment_ofList.mpr ⟨hs, hdots _ (by simp)⟩⟩⟩
      rw [← String.toList_inj, Segments.toList_text, ← hjoin]
      simp only [String.toList_ofList, List.intercalate_cons_cons, List.intercalate_singleton,
        List.append_assoc, List.singleton_append]
    · cases h
  · rintro ⟨rfl, hproper⟩
    obtain ⟨hheader, hpayload, hsignature⟩ := hproper
    rw [isSegment_iff] at hheader hpayload hsignature
    rw [split, Segments.toList_text, pieces_append hheader.2, pieces_append hpayload.2,
      pieces_of_not_mem hsignature.2]
    simp only [if_neg hheader.1, if_neg hpayload.1, if_neg hsignature.1, String.ofList_toList]

/-! ### Segments -/

/-- Symbols are ASCII characters other than the dot. -/
theorem of_mem_encodeBytes {b : Bytes} {c : Char} (h : c ∈ (encodeBytes b).toList) :
    c.toNat < 0x80 ∧ c ≠ '.' := by
  have hsymbol : ∀ n < 64, (Char.ofUInt8 (Base64.urlSafe.symbol n)).toNat < 0x80
      ∧ Char.ofUInt8 (Base64.urlSafe.symbol n) ≠ '.' := by decide
  obtain ⟨n, hn, rfl⟩ := Base64.mem_encode h
  exact hsymbol n hn

theorem isSegment_encodeBytes {b : Bytes} (h : b ≠ []) : IsSegment (encodeBytes b) :=
  isSegment_iff.mpr ⟨fun he => h (Base64.encode_eq_empty_iff.mp he),
    fun hdot => (of_mem_encodeBytes hdot).2 rfl⟩

theorem encodeObject_eq (o : Object) : encodeObject o = encodeBytes (Value.obj o).bytes := rfl

theorem isSegment_encodeObject (o : Object) : IsSegment (encodeObject o) :=
  isSegment_encodeBytes (by
    show (Value.obj o).bytes ≠ []
    rw [Value.bytes_obj]
    exact List.cons_ne_nil _ _)

theorem decodeBytes_encodeBytes (segment : Segment) (b : Bytes) :
    decodeBytes segment (encodeBytes b) = .ok b := by
  rw [decodeBytes, encodeBytes, Base64.decode_encode Base64.urlSafe_isProper]
  rfl

/-- What a reader makes of an object it makes of the segment of the object. -/
theorem decodeSegment_encodeObject {α : Type} {reader : Reader α} {o : Object} {res : Except Fault α}
    (h : Takes reader (Value.obj o).bytes res) (segment : Segment) :
    decodeSegment segment reader (encodeObject o)
      = res.mapError fun cause => .malformedSegment segment (.json cause) := by
  rw [decodeSegment, encodeObject_eq, decodeBytes_encodeBytes]
  show (whole reader (Value.obj o).bytes).mapError _ = _
  rw [h.whole]

/-! ### Decoding -/

/-- A token is decoded if and only if it splits and each segment is decoded. -/
theorem decodeWith_eq_ok_iff {π : Type} {reader : Reader π} {token : String} {d : Decoded π} :
    decodeWith reader token = .ok d ↔
      ∃ s, split token = .ok s
        ∧ decodeSegment .header Header.record.read s.header = .ok d.header
        ∧ decodeSegment .payload reader s.payload = .ok d.payload
        ∧ decodeBytes .signature s.signature = .ok d.signature
        ∧ d.signedData = Bytes.ofString s.signingInput := by
  rw [decodeWith]
  simp only [bind_eq_ok_iff]
  constructor
  · rintro ⟨s, hs, header, hheader, payload, hpayload, b, hb, h⟩
    cases h
    exact ⟨s, hs, hheader, hpayload, hb, rfl⟩
  · rintro ⟨s, hs, hheader, hpayload, hb, hsigned⟩
    refine ⟨s, hs, d.header, hheader, d.payload, hpayload, d.signature, hb, ?_⟩
    rw [← hsigned]
    rfl

/-! ### Headers -/

/-- A header is read back. -/
theorem Header.takes_read (h : Header) :
    Takes Header.record.read (Value.obj h.toObject).bytes (.ok h) := by
  have hstr : ∀ s : String, Takes string (Value.str s).bytes (.ok s) := fun s =>
    takes_string (v := .str s) rfl trivial
  have htyp : Header.record.field? "typ"
      = some (.of "typ" string Draft.typ (fun d v => { d with typ := some v }) true) := rfl
  have halg : Header.record.field? "alg"
      = some (.of "alg" string Draft.alg (fun d v => { d with alg := some v }) false) := rfl
  have hreads : ∀ m ∈ h.toObject, Header.record.ReadsMember m := by
    intro m hm
    rcases List.mem_cons.mp hm with rfl | hm
    · exact .of_field htyp (hstr h.typ)
    rw [List.mem_singleton] at hm
    subst hm
    exact .of_field halg (hstr h.alg)
  have hfold : h.toObject.foldlM Header.record.bring Header.record.empty
      = .ok { typ := some h.typ, alg := some h.alg } := by
    have hbringTyp := Record.bring_of_field (m := ("typ", .str h.typ)) (d := {}) htyp rfl (hstr h.typ)
    have hbringAlg := Record.bring_of_field (m := ("alg", .str h.alg)) (d := { typ := some h.typ }) halg
      rfl (hstr h.alg)
    have hempty : Header.record.empty = ({} : Draft) := rfl
    rw [toObject, hempty, List.foldlM_cons, hbringTyp, ok_bind, List.foldlM_cons, hbringAlg, ok_bind]
    rfl
  have htakes := Record.takes_read hreads
  rw [hfold] at htakes
  exact htakes

/-- A header comes back from its segment. -/
theorem decodeSegment_header (segment : Segment) (h : Header) :
    decodeSegment segment Header.record.read (encodeObject h.toObject) = .ok h :=
  decodeSegment_encodeObject h.takes_read segment

end DidToken.Token
