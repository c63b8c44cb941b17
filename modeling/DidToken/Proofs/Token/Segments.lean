import DidToken.Proofs.Json.Regular
import DidToken.Proofs.Token.Compact
/-!
# Segments are canonical

A header and a raw payload come back from the segments that they are written into, so equal segments are
those of equal values. In the other direction a raw payload may be read from many texts, with blanks,
escapes, padding or names that come again; whatever the text was, the payload is one that comes back, and
its own segment is the same for all the texts it is read from (`decodeSegment_canonical`).
-/

namespace DidToken.Token

open Json

/-! ### Payloads that come back -/

/-- A raw payload that can be written and read again. -/
structure IsPlain (o : RawPayload) : Prop where
  integral : (Value.obj o).IsIntegral
  distinct : (Value.obj o).IsDistinct
  depth : (Value.obj o).depth ≤ 127

/-- A plain payload comes back from its segment. -/
theorem decodeSegment_payload (segment : Segment) {o : RawPayload} (h : IsPlain o) :
    decodeSegment segment (object maxDepth) (encodeObject o) = .ok o := by
  have htakes := takes_object h.integral h.distinct maxDepth
  rw [Value.objectWithin_obj, if_pos (show _ ≤ maxDepth from h.depth)] at htakes
  exact decodeSegment_encodeObject htakes segment

/-- A payload that is read from a segment, whatever its text, is plain if its numbers are integers. -/
theorem isPlain_of_decodeSegment {segment : Segment} {text : String} {o : RawPayload}
    (h : decodeSegment segment (object maxDepth) text = .ok o) (hint : (Value.obj o).IsIntegral) :
    IsPlain o := by
  obtain ⟨b, -, hb⟩ := bind_eq_ok_iff.mp h
  have hregular := (yields_object maxDepth).whole (mapError_eq_ok_iff.mp hb)
  exact ⟨hint, hregular.distinct, hregular.depth⟩

/-! ### Equal segments -/

theorem encodeObject_toObject_inj {h h' : Header} :
    encodeObject h.toObject = encodeObject h'.toObject ↔ h = h' := by
  constructor
  · intro heq
    have hread := decodeSegment_header .header h
    rw [heq, decodeSegment_header .header h'] at hread
    exact (Except.ok.inj hread).symm
  · rintro rfl
    rfl

theorem encodeObject_inj {o o' : RawPayload} (h : IsPlain o) (h' : IsPlain o') :
    encodeObject o = encodeObject o' ↔ o = o' := by
  constructor
  · intro heq
    have hread := decodeSegment_payload .payload h
    rw [heq, decodeSegment_payload .payload h'] at hread
    exact (Except.ok.inj hread).symm
  · rintro rfl
    rfl

/-! ### Canonical segments -/

/-- Every header, and every raw payload whose numbers are integers, whose objects have no name twice and
which nests at most 127 deep, comes back from its segment with its members in order; two of them have the
same segment only if they are equal. A payload with integers only that is read from any text comes back from
its own segment too, and two texts lead to the same segment exactly if the same payload is read from them. -/
theorem decodeSegment_canonical (segment : Segment) :
    (∀ h : Header, decodeSegment segment Header.record.read (encodeObject h.toObject) = .ok h)
    ∧ (∀ h h' : Header, encodeObject h.toObject = encodeObject h'.toObject ↔ h = h')
    ∧ (∀ o : RawPayload, IsPlain o → decodeSegment segment (object maxDepth) (encodeObject o) = .ok o)
    ∧ (∀ o o' : RawPayload, IsPlain o → IsPlain o' → (encodeObject o = encodeObject o' ↔ o = o'))
    ∧ (∀ text o, decodeSegment segment (object maxDepth) text = .ok o → (Value.obj o).IsIntegral →
      IsPlain o ∧ decodeSegment segment (object maxDepth) (encodeObject o) = .ok o)
    ∧ ∀ text text' o o', decodeSegment segment (object maxDepth) text = .ok o →
      decodeSegment segment (object maxDepth) text' = .ok o' →
      (Value.obj o).IsIntegral → (Value.obj o').IsIntegral →
        (encodeObject o = encodeObject o' ↔ o = o') := by
  refine ⟨decodeSegment_header segment, fun h h' => encodeObject_toObject_inj,
    fun o => decodeSegment_payload segment, fun o o' => encodeObject_inj, ?_, ?_⟩
  · intro text o h hint
    have hplain := isPlain_of_decodeSegment h hint
    exact ⟨hplain, decodeSegment_payload segment hplain⟩
  · intro text text' o o' h h' hint hint'
    exact encodeObject_inj (isPlain_of_decodeSegment h hint) (isPlain_of_decodeSegment h' hint')

set_option maxRecDepth 100000 in
/-- `{ "\u0061" : 1, "b": [null] ,"a":2}`, with padding, is read as `{"a":2,"b":[null]}`. -/
theorem decodeSegment_canonical_repeated :
    ∃ o, decodeSegment .payload (object maxDepth) "eyAiXHUwMDYxIiA6IDEsICJiIjogW251bGxdICwiYSI6Mn0="
        = .ok o
      ∧ decodeSegment .payload (object maxDepth) "eyJhIjoyLCJiIjpbbnVsbF19" = .ok o
      ∧ IsPlain o
      ∧ decodeSegment .payload (object maxDepth) (encodeObject o) = .ok o
      ∧ encodeObject o = "eyJhIjoyLCJiIjpbbnVsbF19" := by
  have hspaced : decodeSegment .payload (object maxDepth)
        "eyAiXHUwMDYxIiA6IDEsICJiIjogW251bGxdICwiYSI6Mn0="
      = .ok [("a", .int ⟨2, by decide, by decide⟩), ("b", .arr [.null])] := by rfl
  have hcompact : decodeSegment .payload (object maxDepth) "eyJhIjoyLCJiIjpbbnVsbF19"
      = .ok [("a", .int ⟨2, by decide, by decide⟩), ("b", .arr [.null])] := by rfl
  have hint : (Value.obj [("a", .int ⟨2, by decide, by decide⟩), ("b", .arr [.null])]).IsIntegral :=
    ⟨rfl, rfl, ⟨rfl, rfl, trivial⟩, trivial⟩
  obtain ⟨-, -, -, -, hagain, -⟩ := decodeSegment_canonical .payload
  obtain ⟨hplain, hread⟩ := hagain _ _ hspaced hint
  exact ⟨_, hspaced, hcompact, hplain, hread, by decide +kernel⟩

end DidToken.Token
