import DidToken.Proofs.Signature
import DidToken.Proofs.Token.Compact
import DidToken.Token.Issue
/-!
# Issued tokens are read back

The claims that a token is completed by are scalars, so a token with integral claims has an integral
payload (`isIntegral_mergeClaims`). Such a token is taken apart into what it was made of, for every reader
of the payload (`decodeWith_issued`). With the reader that keeps all claims in order, this ties
`decodeRaw` to `create` (`decodeRaw_create`): only the depth of the payload decides whether a token that
was issued can be read.
-/

namespace DidToken.Token

open Json

/-! ### The payload -/

theorem mem_complete {claims : RawPayload} {name : String} {v : Value} {e : String × Value}
    (h : e ∈ complete claims name v) : e ∈ claims ∨ e = (name, v) := by
  unfold complete at h
  split at h
  · split at h
    · exact Or.inl (Assoc.mem_of_mem_erase h)
    · exact Or.inl h
  · exact Assoc.mem_insert h

theorem distinct_complete {claims : RawPayload} (h : Assoc.Distinct claims) (name : String)
    (v : Value) : Assoc.Distinct (complete claims name v) := by
  unfold complete
  split
  · split
    · exact Assoc.distinct_erase h name
    · exact h
  · exact Assoc.distinct_insert h name v

/-- What a token is completed by: integers and texts. -/
inductive IsStamp : Value → Prop
  | int (n : Integer) : IsStamp (.int n)
  | str (s : String) : IsStamp (.str s)

theorem IsStamp.isIntegral {v : Value} (h : IsStamp v) : v.IsIntegral := by
  cases h <;> exact rfl

theorem IsStamp.isDistinct {v : Value} (h : IsStamp v) : v.IsDistinct := by
  cases h <;> exact trivial

/-- A claim of a payload was given or completes it. -/
theorem mem_mergeClaims {now : UInt64} {issuer : String} {lifetime : Int64} {claims : RawPayload}
    {e : String × Value} (h : e ∈ mergeClaims now issuer lifetime claims) :
    e ∈ claims ∨ IsStamp e.2 := by
  have hstamped : ∀ {e : String × Value},
      e ∈ complete claims "iat" (.int (Integer.ofUInt64 now)) → e ∈ claims ∨ IsStamp e.2 := by
    intro e he
    rcases mem_complete he with he | rfl
    · exact Or.inl he
    · exact Or.inr (.int _)
  rcases mem_complete h with h | rfl
  · split at h
    · exact hstamped (Assoc.mem_of_mem_erase h)
    · rcases mem_complete h with h | rfl
      · exact hstamped h
      · exact Or.inr (.int _)
  · exact Or.inr (.str _)

theorem distinct_mergeClaims {claims : RawPayload} (h : Assoc.Distinct claims) (now : UInt64)
    (issuer : String) (lifetime : Int64) :
    Assoc.Distinct (mergeClaims now issuer lifetime claims) := by
  have hstamped := distinct_complete h "iat" (.int (Integer.ofUInt64 now))
  refine distinct_complete ?_ "iss" (.str issuer)
  split
  · exact Assoc.distinct_erase hstamped "exp"
  · exact distinct_complete hstamped "exp" _

theorem isIntegral_mergeClaims {claims : RawPayload} (h : (Value.obj claims).IsIntegral)
    (now : UInt64) (issuer : String) (lifetime : Int64) :
    (Value.obj (mergeClaims now issuer lifetime claims)).IsIntegral := by
  rw [Value.isIntegral_obj_iff] at h ⊢
  intro e he
  exact (mem_mergeClaims he).elim (h e) IsStamp.isIntegral

theorem isDistinct_mergeClaims {claims : RawPayload} (h : (Value.obj claims).IsDistinct)
    (now : UInt64) (issuer : String) (lifetime : Int64) :
    (Value.obj (mergeClaims now issuer lifetime claims)).IsDistinct := by
  rw [Value.isDistinct_obj_iff] at h ⊢
  refine ⟨distinct_mergeClaims h.1 now issuer lifetime, fun e he => ?_⟩
  exact (mem_mergeClaims he).elim (h.2 e) IsStamp.isDistinct

/-! ### The signed text -/

/-- What is signed is ASCII. -/
theorem lt_of_mem_signingInput {h : Header} {o : Object} {x : UInt8}
    (hx : x ∈ Bytes.ofString (signingInput h o)) : x < 0x80 := by
  have hdot : Bytes.ofString "." = [0x2e] := by decide
  rw [signingInput, Bytes.ofString_append, Bytes.ofString_append, hdot, List.mem_append,
    List.mem_append, List.mem_singleton] at hx
  rcases hx with (hx | rfl) | hx
  · exact Bytes.lt_of_mem_ofString (fun c hc => (of_mem_encodeBytes hc).1) hx
  · decide
  · exact Bytes.lt_of_mem_ofString (fun c hc => (of_mem_encodeBytes hc).1) hx

/-! ### Taking apart -/

theorem toBytes_ne_nil (a : Signature) (withId : Bool) : a.toBytes withId ≠ [] := by
  intro h
  have hlength := Signature.length_toBytes a withId
  rw [h] at hlength
  cases withId <;> cases hlength

/-- A token with a signature is taken apart into what it was made of, as far as the payload can be
read. -/
theorem decodeWith_issued {π : Type} {reader : Reader π} {o : Object} {res : Except Fault π}
    (h : Takes reader (Value.obj o).bytes res) (header : Header) {b : Bytes} (hb : b ≠ []) :
    decodeWith reader (signingInput header o ++ "." ++ encodeBytes b)
      = (res.mapError fun cause => .malformedSegment .payload (.json cause)).map fun p =>
          { header, payload := p, signature := b,
            signedData := Bytes.ofString (signingInput header o) } := by
  have hsplit : split (signingInput header o ++ "." ++ encodeBytes b)
      = .ok ⟨encodeObject header.toObject, encodeObject o, encodeBytes b⟩ :=
    split_eq_ok_iff.mpr ⟨rfl, isSegment_encodeObject _, isSegment_encodeObject _,
      isSegment_encodeBytes hb⟩
  -- split, then segment by segment
  rw [decodeWith, hsplit, ok_bind, decodeSegment_header, ok_bind, decodeSegment_encodeObject h,
    decodeBytes_encodeBytes]
  cases res <;> rfl

/-- With the reader that keeps all claims, only the depth of the payload decides. -/
theorem decodeRaw_issued {o : RawPayload} (hint : (Value.obj o).IsIntegral)
    (hdist : (Value.obj o).IsDistinct) (header : Header) {b : Bytes} (hb : b ≠ []) :
    decodeRaw (signingInput header o ++ "." ++ encodeBytes b)
      = if (Value.obj o).depth ≤ 127 then
          .ok { header, payload := o, signature := b,
                signedData := Bytes.ofString (signingInput header o) }
        else .error (.malformedSegment .payload (.json .malformed)) := by
  have hobject : (Value.obj o).objectWithin maxDepth
      = if (Value.obj o).depth ≤ 127 then .ok o else .error .malformed := Value.objectWithin_obj o maxDepth
  have htakes := takes_object hint hdist maxDepth
  rw [hobject] at htakes
  rw [decodeRaw, decodeWith_issued htakes header hb]
  split <;> rfl

/-! ### Creation -/

/-- What comes of the answer of a signer that was given `input`. -/
def issued (a : Algorithm) (input : String) : Except String Signature → Except Error String
  | .error reason => .error (.signingFailed reason)
  | .ok signature => .ok (input ++ "." ++ encodeBytes (signature.toBytes a.isRecoverable))

section

variable {m : Type → Type} [Monad m]

theorem create_of_unsupported {algorithm : String} (h : Algorithm.ofName? algorithm = none)
    (now : UInt64) (claims : RawPayload) (issuer : String) (signer : Signer m) (lifetime : Int64) :
    create now claims issuer signer lifetime algorithm
      = pure (.error (.unsupportedAlgorithm algorithm)) := by
  rw [create, algorithmOf, h]

/-- The signer is asked once, and everything else comes of its answer. -/
theorem create_name [LawfulMonad m] (now : UInt64) (claims : RawPayload) (issuer : String)
    (signer : Signer m) (lifetime : Int64) (a : Algorithm) :
    create now claims issuer signer lifetime a.name
      = issued a (signingInput (Header.ofAlgorithm a) (mergeClaims now issuer lifetime claims))
        <$> signer.sign (Bytes.ofString
          (signingInput (Header.ofAlgorithm a) (mergeClaims now issuer lifetime claims))) := by
  rw [create, algorithmOf, Algorithm.ofName?_name, map_eq_pure_bind]
  show (signer.sign _ >>= _) = _
  refine congrArg (signer.sign _ >>= ·) (funext fun answer => ?_)
  cases answer <;> rfl

/-- Issuing and reading. The claims are a map whose numbers are integers. An algorithm that is not
supported is refused before the signer is asked. Otherwise the signer is asked once, for an ASCII text
made of the first two segments of the token; the creation fails exactly if the signer does, and the token
is read back into its header, its payload in order, the bytes of the signature and the signed bytes
exactly if the payload nests at most 127 deep. -/
theorem decodeRaw_create [LawfulMonad m] {claims : RawPayload} (hint : (Value.obj claims).IsIntegral)
    (hdist : (Value.obj claims).IsDistinct) (now : UInt64) (issuer : String) (signer : Signer m)
    (lifetime : Int64) (algorithm : String) :
    (algorithm ≠ "ES256K" ∧ algorithm ≠ "ES256K-R" →
      create now claims issuer signer lifetime algorithm
        = pure (.error (.unsupportedAlgorithm algorithm)))
    ∧ ∀ a : Algorithm, a.name = algorithm →
      ∃ header payload : String, IsSegment header ∧ IsSegment payload ∧
        let signed := Bytes.ofString (header ++ "." ++ payload)
        (∀ x ∈ signed, x < 0x80)
        ∧ create now claims issuer signer lifetime algorithm
          = issued a (header ++ "." ++ payload) <$> signer.sign signed
        ∧ (∀ reason, issued a (header ++ "." ++ payload) (.error reason)
          = .error (.signingFailed reason))
        ∧ ∀ signature, ∃ token, issued a (header ++ "." ++ payload) (.ok signature) = .ok token
          ∧ (signature.toBytes a.isRecoverable).length = (if a = .plain then 64 else 65)
          ∧ decodeRaw token
            = if (Value.obj (mergeClaims now issuer lifetime claims)).depth ≤ 127 then
                .ok { header := ⟨"JWT", algorithm⟩, payload := mergeClaims now issuer lifetime claims,
                      signature := signature.toBytes a.isRecoverable, signedData := signed }
              else .error (.malformedSegment .payload (.json .malformed)) := by
  constructor
  · rintro ⟨hplain, hrecoverable⟩
    have hnone : Algorithm.ofName? algorithm = none :=
      (if_neg hplain).trans (if_neg hrecoverable)
    exact create_of_unsupported hnone now claims issuer signer lifetime
  · rintro a rfl
    refine ⟨encodeObject (Header.ofAlgorithm a).toObject,
      encodeObject (mergeClaims now issuer lifetime claims), isSegment_encodeObject _,
      isSegment_encodeObject _, fun x hx => lt_of_mem_signingInput hx,
      create_name now claims issuer signer lifetime a, fun reason => rfl, fun signature => ?_⟩
    refine ⟨_, rfl, ?_, ?_⟩
    · rw [Signature.length_toBytes]
      cases a <;> rfl
    · exact decodeRaw_issued (isIntegral_mergeClaims hint now issuer lifetime)
        (isDistinct_mergeClaims hdist now issuer lifetime) (Header.ofAlgorithm a)
        (toBytes_ne_nil signature a.isRecoverable)

end

/-- A token by a signer that always gives the same signature. -/
theorem decodeRaw_create_hello :
    ∃ token, create (m := Id) 1000 [("hello", .str "world")] "did:ethr:0x1"
        ⟨"0x1", fun _ => .ok ⟨1, 2, 0⟩⟩ 300 "ES256K-R" = .ok token
      ∧ (decodeRaw token).map Decoded.payload
        = .ok [("hello", .str "world"), ("iat", .int (Integer.ofUInt64 1000)),
            ("exp", .int (Integer.ofUInt64 1300)), ("iss", .str "did:ethr:0x1")] := by
  have hint : (Value.obj [("hello", .str "world")]).IsIntegral := ⟨rfl, rfl, trivial⟩
  have hdist : (Value.obj [("hello", .str "world")]).IsDistinct :=
    ⟨(by decide : ["hello"].Nodup), trivial, trivial⟩
  obtain ⟨header, payload, -, -, -, hcreate, -, htoken⟩ :=
    (decodeRaw_create hint hdist 1000 "did:ethr:0x1"
      (⟨"0x1", fun _ => .ok ⟨1, 2, 0⟩⟩ : Signer Id) 300 "ES256K-R").2 .recoverable rfl
  obtain ⟨token, hissued, -, hdecoded⟩ := htoken ⟨1, 2, 0⟩
  refine ⟨token, hcreate.trans hissued, ?_⟩
  rw [hdecoded, if_pos (by decide)]
  rfl

end DidToken.Token
