import DidToken.Proofs.Token.Compact
import DidToken.Proofs.Token.TypedView
import Mathlib.Data.List.Basic
/-!
# Splitting is exact

A token falls into three segments exactly if it has two dots and none of the three texts that they leave is
empty (`exists_split_iff`). Then the first segment that is not decoded decides (`failure?_decodeWith`). What
is signed is all that stands before the last dot. Since segments have no dots, it determines the segments of
header and payload (`Segments.eq_of_signingInput_eq`), and so what any reader makes of them
(`decode_exact`).
-/

namespace DidToken.Token

open Json

/-! ### Dots -/

theorem pieces_eq_splitOn (cs : List Char) : pieces cs = cs.splitOn '.' := by
  obtain ⟨hne, hjoin, hdots⟩ := pieces_spec cs
  have hsplit := List.splitOn_intercalate '.' hdots hne
  rw [hjoin] at hsplit
  exact hsplit.symm

/-- Each dot makes one more piece. -/
theorem length_pieces (cs : List Char) : (pieces cs).length = cs.count '.' + 1 := by
  induction cs with
  | nil => rfl
  | cons c rest ih =>
    rw [pieces]
    by_cases hc : c = '.'
    · rw [if_pos hc, List.length_cons, ih, hc, List.count_cons_self]
    · rw [if_neg hc, List.count_cons_of_ne hc, ← ih]
      cases hp : pieces rest with
      | nil => exact absurd hp (pieces_spec rest).1
      | cons piece more => rfl

/-- The text has three segments: there are two dots, and none of the texts that they leave is empty. -/
structure HasSegments (token : String) : Prop where
  dots : token.toList.count '.' = 2
  nonempty : [] ∉ token.toList.splitOn '.'

/-- The segments are what lies between the dots. -/
theorem splitOn_of_split {token : String} {s : Segments} (h : split token = .ok s) :
    token.toList.splitOn '.' = [s.header.toList, s.payload.toList, s.signature.toList] := by
  obtain ⟨rfl, hproper⟩ := split_eq_ok_iff.mp h
  rw [← pieces_eq_splitOn, Segments.toList_text, pieces_append (isSegment_iff.mp hproper.header).2,
    pieces_append (isSegment_iff.mp hproper.payload).2,
    pieces_of_not_mem (isSegment_iff.mp hproper.signature).2]

theorem exists_split_iff {token : String} : (∃ s, split token = .ok s) ↔ HasSegments token := by
  constructor
  · rintro ⟨s, hs⟩
    have hsplit := splitOn_of_split hs
    obtain ⟨-, hproper⟩ := split_eq_ok_iff.mp hs
    constructor
    · have hlength := length_pieces token.toList
      rw [pieces_eq_splitOn, hsplit] at hlength
      exact (Nat.succ.inj hlength).symm
    · rw [hsplit]
      simp [(isSegment_iff.mp hproper.header).1.symm, (isSegment_iff.mp hproper.payload).1.symm,
        (isSegment_iff.mp hproper.signature).1.symm]
  · rintro ⟨hdots, hnonempty⟩
    have hlength := length_pieces token.toList
    rw [hdots] at hlength
    obtain ⟨header, payload, signature, hpieces⟩ := List.length_eq_three.mp hlength
    rw [← pieces_eq_splitOn, hpieces] at hnonempty
    simp only [List.mem_cons, List.not_mem_nil, or_false, not_or] at hnonempty
    obtain ⟨hheader, hpayload, hsignature⟩ := hnonempty
    refine ⟨⟨String.ofList header, String.ofList payload, String.ofList signature⟩, ?_⟩
    rw [split, hpieces]
    simp only [if_neg (Ne.symm hheader), if_neg (Ne.symm hpayload), if_neg (Ne.symm hsignature)]

/-! ### What decoding fails with -/

/-- The text is no token: it has not three segments, or one of them is empty. -/
inductive Error.IsMalformedToken : Error → Prop
  | segmentCount : IsMalformedToken .segmentCount
  | emptySegment (segment : Segment) : IsMalformedToken (.emptySegment segment)

theorem isMalformedToken_of_split {token : String} {e : Error} (h : split token = .error e) :
    e.IsMalformedToken := by
  rw [split] at h
  split at h
  · split at h
    · cases h
      exact .emptySegment .header
    split at h
    · cases h
      exact .emptySegment .payload
    split at h
    · cases h
      exact .emptySegment .signature
    · cases h
  · cases h
    exact .segmentCount

theorem decodeBytes_eq_error {segment : Segment} {text : String} {e : Error}
    (h : decodeBytes segment text = .error e) : ∃ cause, e = .malformedSegment segment cause := by
  obtain ⟨cause, rfl⟩ := mapError_eq_error h
  exact ⟨_, rfl⟩

theorem decodeSegment_eq_error {α : Type} {segment : Segment} {reader : Reader α} {text : String}
    {e : Error} (h : decodeSegment segment reader text = .error e) : ∃ cause, e = .malformedSegment segment cause := by
  rw [decodeSegment] at h
  cases hbytes : decodeBytes segment text with
  | error e' =>
    rw [hbytes] at h
    cases h
    exact decodeBytes_eq_error hbytes
  | ok b =>
    rw [hbytes, ok_bind] at h
    obtain ⟨cause, rfl⟩ := mapError_eq_error h
    exact ⟨_, rfl⟩

variable {π : Type}

/-- What the decoding of each segment on its own fails with, if the payload is decoded by `reader`. -/
def Segments.fault? (reader : Reader π) (s : Segments) : Segment → Option Error
  | .header => failure? (decodeSegment .header Header.record.read s.header)
  | .payload => failure? (decodeSegment .payload reader s.payload)
  | .signature => failure? (decodeBytes .signature s.signature)

/-- A segment that is not decoded is named. -/
theorem Segments.eq_malformedSegment_of_fault? {reader : Reader π} {s : Segments} {segment : Segment}
    {e : Error} (h : s.fault? reader segment = some e) : ∃ cause, e = .malformedSegment segment cause := by
  cases segment with
  | header => exact decodeSegment_eq_error (failure?_eq_some_iff.mp h)
  | payload => exact decodeSegment_eq_error (failure?_eq_some_iff.mp h)
  | signature => exact decodeBytes_eq_error (failure?_eq_some_iff.mp h)

/-- Header, payload and signature are decoded in this order, and the first fault is the one of the token. -/
theorem failure?_decodeWith {reader : Reader π} {token : String} {s : Segments} (h : split token = .ok s) :
    failure? (decodeWith reader token)
      = [Segment.header, .payload, .signature].findSome? (s.fault? reader) := by
  rw [decodeWith, h, ok_bind]
  simp only [List.findSome?_cons, List.findSome?_nil, Segments.fault?]
  cases decodeSegment .header Header.record.read s.header with
  | error e => rfl
  | ok header =>
    rw [ok_bind]
    cases decodeSegment .payload reader s.payload with
    | error e => rfl
    | ok payload =>
      rw [ok_bind]
      cases decodeBytes .signature s.signature <;> rfl

/-- A token is refused as a whole exactly if it does not split. -/
theorem exists_isMalformedToken_iff {reader : Reader π} {token : String} :
    (∃ e, decodeWith reader token = .error e ∧ e.IsMalformedToken) ↔ ¬HasSegments token := by
  rw [← exists_split_iff]
  cases hsplit : split token with
  | error e =>
    have hdecode : decodeWith reader token = .error e := by
      rw [decodeWith, hsplit]
      rfl
    constructor
    · rintro - ⟨s, hs⟩
      cases hs
    · intro _
      exact ⟨e, hdecode, isMalformedToken_of_split hsplit⟩
  | ok s =>
    refine ⟨?_, fun h => absurd ⟨s, rfl⟩ h⟩
    rintro ⟨e, hdecode, hmalformed⟩
    -- then some segment has a fault, which is another error
    rw [← failure?_eq_some_iff, failure?_decodeWith hsplit] at hdecode
    obtain ⟨segment, -, hfault⟩ := List.exists_of_findSome?_eq_some hdecode
    obtain ⟨cause, rfl⟩ := Segments.eq_malformedSegment_of_fault? hfault
    cases hmalformed

/-! ### What is signed -/

/-- The segments of header and payload can be told from what is signed. -/
theorem Segments.eq_of_signingInput_eq {s s' : Segments} (h : s.IsProper) (h' : s'.IsProper)
    (heq : s.signingInput = s'.signingInput) : s.header = s'.header ∧ s.payload = s'.payload := by
  have hpieces : ∀ {s : Segments}, s.IsProper →
      pieces s.signingInput.toList = [s.header.toList, s.payload.toList] := by
    intro s hs
    have hdot : ".".toList = ['.'] := by decide
    rw [signingInput, String.toList_append, String.toList_append, hdot, List.append_assoc,
      List.singleton_append, pieces_append (isSegment_iff.mp hs.header).2,
      pieces_of_not_mem (isSegment_iff.mp hs.payload).2]
  have hsame := hpieces h
  rw [heq, hpieces h', List.cons.injEq, List.cons.injEq, String.toList_inj, String.toList_inj] at hsame
  exact ⟨hsame.1.symm, hsame.2.1.symm⟩

/-- Two tokens are the same up to their last dots. -/
def DifferInSignature (token token' : String) : Prop :=
  ∃ before signature signature', '.' ∉ signature.toList ∧ '.' ∉ signature'.toList
    ∧ token = before ++ "." ++ signature ∧ token' = before ++ "." ++ signature'

section

variable {ρ : Type} {reader : Reader π} {other : Reader ρ} {token token' : String} {d : Decoded π}
  {d' : Decoded ρ}

/-- The signed data is the text before the last dot, and the signature is read from what comes after it. -/
theorem exists_signedData (h : decodeWith reader token = .ok d) :
    ∃ before signature, token = before ++ "." ++ signature ∧ '.' ∉ signature.toList
      ∧ d.signedData = Bytes.ofString before ∧ decodeBytes .signature signature = .ok d.signature := by
  obtain ⟨s, hs, -, -, hsignature, hsigned⟩ := decodeWith_eq_ok_iff.mp h
  obtain ⟨htoken, hproper⟩ := split_eq_ok_iff.mp hs
  exact ⟨s.signingInput, s.signature, htoken, hproper.signature.2, hsigned, hsignature⟩

/-- With the same signed data, headers and payloads are read from the same segments. -/
theorem exists_segments_of_signedData_eq (h : decodeWith reader token = .ok d)
    (h' : decodeWith other token' = .ok d') (heq : d.signedData = d'.signedData) :
    DifferInSignature token token' ∧ ∃ header payload,
      (decodeSegment .header Header.record.read header = .ok d.header
        ∧ decodeSegment .payload reader payload = .ok d.payload)
      ∧ decodeSegment .header Header.record.read header = .ok d'.header
      ∧ decodeSegment .payload other payload = .ok d'.payload := by
  obtain ⟨s, hs, hheader, hpayload, -, hsigned⟩ := decodeWith_eq_ok_iff.mp h
  obtain ⟨s', hs', hheader', hpayload', -, hsigned'⟩ := decodeWith_eq_ok_iff.mp h'
  obtain ⟨htoken, hproper⟩ := split_eq_ok_iff.mp hs
  obtain ⟨htoken', hproper'⟩ := split_eq_ok_iff.mp hs'
  have hinput : s.signingInput = s'.signingInput := by
    rw [hsigned, hsigned'] at heq
    exact Bytes.ofString_injective heq
  obtain ⟨hsameHeader, hsamePayload⟩ := Segments.eq_of_signingInput_eq hproper hproper' hinput
  rw [← hsameHeader] at hheader'
  rw [← hsamePayload] at hpayload'
  refine ⟨⟨s.signingInput, s.signature, s'.signature, hproper.signature.2, hproper'.signature.2, htoken, ?_⟩,
    s.header, s.payload, ⟨hheader, hpayload⟩, hheader', hpayload'⟩
  rw [hinput]
  exact htoken'

theorem header_eq_of_signedData_eq (h : decodeWith reader token = .ok d)
    (h' : decodeWith other token' = .ok d') (heq : d.signedData = d'.signedData) : d'.header = d.header := by
  obtain ⟨-, header, payload, ⟨hread, -⟩, hread', -⟩ := exists_segments_of_signedData_eq h h' heq
  exact Except.ok.inj (hread'.symm.trans hread)

end

/-- One reader finds the same payload wherever the same data is signed. -/
theorem payload_eq_of_signedData_eq {reader : Reader π} {token token' : String} {d d' : Decoded π}
    (h : decodeWith reader token = .ok d) (h' : decodeWith reader token' = .ok d')
    (heq : d.signedData = d'.signedData) : d'.payload = d.payload := by
  obtain ⟨-, header, payload, ⟨-, hread⟩, -, hread'⟩ := exists_segments_of_signedData_eq h h' heq
  exact Except.ok.inj (hread'.symm.trans hread)

/-- What decoding a token comes to, if the payload is decoded by `reader`. -/
structure DecodesExactly (reader : Reader π) (token : String) : Prop where
  malformed : (∃ e, decodeWith reader token = .error e ∧ e.IsMalformedToken) ↔ ¬HasSegments token
  /-- In a text of three segments, the first one that is not decoded on its own decides. -/
  first : HasSegments token → ∃ s : Segments,
    token.toList.splitOn '.' = [s.header.toList, s.payload.toList, s.signature.toList]
      ∧ failure? (decodeWith reader token)
        = [Segment.header, .payload, .signature].findSome? (s.fault? reader)
      ∧ ∀ segment e, s.fault? reader segment = some e → ∃ cause, e = .malformedSegment segment cause
  signed : ∀ d, decodeWith reader token = .ok d → ∃ before signature, token = before ++ "." ++ signature
    ∧ '.' ∉ signature.toList ∧ d.signedData = Bytes.ofString before
    ∧ decodeBytes .signature signature = .ok d.signature

theorem decodesExactly (reader : Reader π) (token : String) : DecodesExactly reader token where
  malformed := exists_isMalformedToken_iff
  first h := by
    obtain ⟨s, hs⟩ := exists_split_iff.mpr h
    exact ⟨s, splitOn_of_split hs, failure?_decodeWith hs, fun _ _ => Segments.eq_malformedSegment_of_fault?⟩
  signed _ := exists_signedData

/-- Decoding fails for the token as a whole exactly if there are not two dots or a segment is empty; otherwise
the first of header, payload and signature that is not decoded on its own is named, or the token is decoded.
The signed data of a decoded token is its text up to the last dot. Tokens of the same signed data have the
same header and the same payload, whether it is typed, raw, or typed in one and raw in the other, and differ
at most behind their last dots. -/
theorem decode_exact (token : String) :
    DecodesExactly Payload.record.readObject token
    ∧ DecodesExactly (object maxDepth) token
    ∧ ∀ token',
      (∀ d d', decode token = .ok d → decode token' = .ok d' → d.signedData = d'.signedData →
        d'.header = d.header ∧ d'.payload = d.payload ∧ DifferInSignature token token')
      ∧ (∀ r r', decodeRaw token = .ok r → decodeRaw token' = .ok r' → r.signedData = r'.signedData →
        r'.header = r.header ∧ r'.payload = r.payload ∧ DifferInSignature token token')
      ∧ ∀ d r', decode token = .ok d → decodeRaw token' = .ok r' → d.signedData = r'.signedData →
        r'.header = d.header ∧ d.payload.IsViewOf r'.payload ∧ DifferInSignature token token' := by
  refine ⟨decodesExactly _ token, decodesExactly _ token, fun token' => ⟨?_, ?_, ?_⟩⟩
  · intro d d' h h' heq
    exact ⟨header_eq_of_signedData_eq h h' heq, payload_eq_of_signedData_eq h h' heq,
      (exists_segments_of_signedData_eq h h' heq).1⟩
  · intro r r' h h' heq
    exact ⟨header_eq_of_signedData_eq h h' heq, payload_eq_of_signedData_eq h h' heq,
      (exists_segments_of_signedData_eq h h' heq).1⟩
  · intro d r' h h' heq
    -- the raw payload of the first token lies between the two
    obtain ⟨r, hr, -, -, hsigned, hview⟩ := decodeWith_of_simulates Payload.simulates_readObject h
    have hpayload : r'.payload = r.payload := payload_eq_of_signedData_eq hr h' (hsigned.trans heq)
    refine ⟨header_eq_of_signedData_eq h h' heq, ?_, (exists_segments_of_signedData_eq h h' heq).1⟩
    rw [hpayload]
    exact hview

/-- A token and the same text with another signature, and texts that are refused: for an empty segment, and
for the first of two segments that are not decoded. -/
theorem decode_exact_resigned :
    let token := "eyJhbGciOiJFUzI1NksifQ.e30.AQ"
    let resigned := "eyJhbGciOiJFUzI1NksifQ.e30.Ag"
    (∃ d r', decode token = .ok d ∧ decodeRaw resigned = .ok r' ∧ d.signedData = r'.signedData
        ∧ r'.header = d.header ∧ d.payload.IsViewOf r'.payload ∧ DifferInSignature token resigned)
      ∧ (∃ e, decode "eyJhbGciOiJFUzI1NksifQ..AQ" = .error e ∧ e.IsMalformedToken)
      ∧ ∃ cause, decode "eyJhbGciOiJFUzI1NksifQ.!.!" = .error (.malformedSegment .payload cause) := by
  intro token resigned
  refine ⟨?_, ?_, ?_⟩
  · have hok : failure? (decode token) = none := by decide +kernel
    have hraw : failure? (decodeRaw resigned) = none := by decide +kernel
    obtain ⟨d, hd⟩ := failure?_eq_none_iff.mp hok
    obtain ⟨r', hr'⟩ := failure?_eq_none_iff.mp hraw
    have hsigned : (decode token).toOption.map Decoded.signedData
        = (decodeRaw resigned).toOption.map Decoded.signedData := by decide +kernel
    rw [hd, hr'] at hsigned
    have hsame : d.signedData = r'.signedData := Option.some.inj hsigned
    exact ⟨d, r', hd, hr', hsame, ((decode_exact token).2.2 resigned).2.2 d r' hd hr' hsame⟩
  · refine (decode_exact "eyJhbGciOiJFUzI1NksifQ..AQ").1.malformed.mpr fun h => ?_
    exact absurd h.nonempty (by decide +kernel)
  · have hsegments : HasSegments "eyJhbGciOiJFUzI1NksifQ.!.!" := ⟨by decide +kernel, by decide +kernel⟩
    obtain ⟨s, hsplit, hfirst, hnamed⟩ := (decode_exact "eyJhbGciOiJFUzI1NksifQ.!.!").1.first hsegments
    have hpieces : "eyJhbGciOiJFUzI1NksifQ.!.!".toList.splitOn '.'
        = ["eyJhbGciOiJFUzI1NksifQ".toList, "!".toList, "!".toList] := by decide +kernel
    rw [hpieces, List.cons.injEq, List.cons.injEq, String.toList_inj, String.toList_inj] at hsplit
    obtain ⟨hheader, hpayload, -⟩ := hsplit
    have hheaderOk : s.fault? Payload.record.readObject .header = none := by
      rw [Segments.fault?, ← hheader]
      decide +kernel
    have hpayloadFault : (s.fault? Payload.record.readObject .payload).isSome := by
      rw [Segments.fault?, ← hpayload]
      decide +kernel
    obtain ⟨e, he⟩ := Option.isSome_iff_exists.mp hpayloadFault
    rw [List.findSome?_cons, hheaderOk, List.findSome?_cons, he] at hfirst
    obtain ⟨cause, rfl⟩ := hnamed .payload e he
    exact ⟨cause, failure?_eq_some_iff.mp hfirst⟩

end DidToken.Token
