import DidToken.Proofs.Materials
import DidToken.Proofs.Token.Compact
import DidToken.Proofs.Token.Verify
/-!
# What an accepted token proves

A token is accepted only for a reason that can be checked again without the verifier: the document that
the resolver of the issuer's method gave for the issuer lists a key of a suitable type, and the signature
in the token is one of that key over the text before its last dot (`verify_sound`).
-/

namespace DidToken.Token

open Json

/-- The conclusion is the payload exactly if the signature comes from a key of the document. -/
theorem conclude_eq_ok_iff {policy : Policy} {checked : Checked} {document : Document} {p : Payload} :
    conclude policy checked document = .ok p ↔
      p = checked.token.payload
        ∧ Signature.comesFrom checked.algorithm (document.verifyingKeys policy.authenticating)
            checked.token.signature checked.token.signedData = .ok true := by
  cases hkeys : (document.verifyingKeys policy.authenticating).isEmpty with
  | true =>
    rw [conclude_of_isEmpty hkeys]
    constructor
    · intro h
      cases h
    · -- without keys nothing is attributed
      rintro ⟨-, hcomes⟩
      obtain ⟨entry, hentry, -⟩ := Signature.comesFrom_sound hcomes
      rw [List.isEmpty_iff.mp hkeys] at hentry
      cases hentry
  | false =>
    rw [conclude_of_keys hkeys, bind_eq_ok_iff]
    constructor
    · rintro ⟨matched, hmatched, hpayload⟩
      cases matched with
      | false => cases hpayload
      | true => exact ⟨(Except.ok.inj hpayload).symm, mapError_eq_ok_iff.mp hmatched⟩
    · rintro ⟨rfl, hcomes⟩
      exact ⟨true, mapError_eq_ok_iff.mpr hcomes, rfl⟩

/-- A verification ends with a payload exactly if it has a plan whose resolver gives a document from which
the payload is concluded. -/
theorem run_verify_eq_ok_iff {σ : Type} {clock : Clock} {registry : Registry (StateM σ)}
    {policy : Policy} {token : String} {w w' : σ} {p : Payload} :
    (verify clock registry policy token).run w = (.ok p, w') ↔
      ∃ checked resolver document, Planned clock registry policy token checked resolver
        ∧ (resolver.resolve checked.issuer).run w = (.ok document, w')
        ∧ conclude policy checked document = .ok p := by
  constructor
  · intro h
    rw [verify_eq] at h
    cases hplan : plan clock registry policy token with
    | error e => rw [hplan] at h; cases h
    | ok planned =>
      obtain ⟨checked, resolver⟩ := planned
      rw [hplan] at h
      simp only [StateT.run_map] at h
      cases hrun : (resolver.resolve checked.issuer).run w with
      | mk answer next =>
        rw [hrun] at h
        cases answer with
        | error cause => cases h
        | ok document =>
          obtain ⟨hconclude, hnext⟩ := Prod.mk.inj h
          refine ⟨checked, resolver, document, plan_eq_ok_iff.mp hplan, ?_, hconclude⟩
          rw [hrun]
          exact congrArg _ hnext
  · rintro ⟨checked, resolver, document, hplanned, hrun, hconclude⟩
    rw [verify_of_plan (plan_eq_ok_iff.mpr hplanned), StateT.run_map, hrun, ← hconclude]
    rfl

/-- A token that is accepted consists of three segments, the second of which is the payload; the issuer
was resolved to a document; and the signature is, over the text before the last dot, one under a key that
a suitable entry of the document names. If the verifier asks for a key that may authenticate, the document
refers to that entry for authentication. -/
theorem verify_sound {σ : Type} {clock : Clock} {registry : Registry (StateM σ)} {policy : Policy}
    {token : String} {w w' : σ} {p : Payload}
    (h : (verify clock registry policy token).run w = (.ok p, w')) :
    ∃ s : Segments, token = s.text ∧ s.IsProper
      ∧ decodeSegment .payload Payload.record.readObject s.payload = .ok p
      ∧ ∃ did resolver document, Did.parse (Address.normalize p.issuer) = .ok did
        ∧ registry.find? did.method = some resolver
        ∧ (resolver.resolve (Address.normalize p.issuer)).run w = (.ok document, w')
        ∧ ∃ b key, decodeBytes .signature s.signature = .ok b
          ∧ Signature.IsUnder b (Bytes.ofString s.signingInput) key
          ∧ ∃ entry ∈ document.keys, entry.keyType ∈ KeyType.verifying
            ∧ (policy.authenticating = true →
              ∃ reference ∈ document.authentication, reference.keyId = entry.id)
            ∧ entry.Names key := by
  obtain ⟨checked, resolver, document, hplanned, hrun, hconclude⟩ := run_verify_eq_ok_iff.mp h
  obtain ⟨rfl, hcomes⟩ := conclude_eq_ok_iff.mp hconclude
  -- what decoding found, what the plan found, and whose signature it is
  obtain ⟨s, hs, -, hpayload, hsignature, hsigned⟩ := decodeWith_eq_ok_iff.mp hplanned.decoded
  obtain ⟨htext, hproper⟩ := split_eq_ok_iff.mp hs
  obtain ⟨did, hdid, hfind⟩ := hplanned.found
  rw [hplanned.issuer] at hdid hrun
  rw [hsigned] at hcomes
  obtain ⟨entry, hentry, key, hnames, hunder⟩ := Signature.comesFrom_sound hcomes
  obtain ⟨hlisted, htype, hauth⟩ := Document.mem_verifyingKeys_iff.mp hentry
  exact ⟨s, htext, hproper, hpayload, did, resolver, document, hdid, hfind, hrun, checked.token.signature,
    key, hsignature, hunder, entry, hlisted, htype, hauth, hnames⟩

set_option maxRecDepth 100000 in
/-- A token with the signature of the generator, which is listed next to another key. If the document refers to
the generator for authentication, the token is accepted, and for that reason; if it refers to the other key, the
token is refused. -/
theorem verify_sound_generator :
    let entry (id hex : String) : KeyEntry :=
      { id, keyType := KeyType.verificationKey2018, owner := "did:x:y", ethereumAddress := none,
        hex := some hex, base64 := none, base58 := none, value := none }
    let generator := entry "did:x:y#keys-1" "0279be667ef9dcbbac55a06295ce870b07029bfcdb2dce28d959f2815b16f81798"
    let other := entry "did:x:y#keys-2" "02c6047f9441ed7d6d3045406e95c07cd85c778e4b8cef3ca7abac09b95c709ee5"
    let registry (referred : KeyEntry) : Registry (StateM Unit) :=
      [("x", Resolver.fixed
        { Document.empty "did:x:y" with
          keys := [other, generator]
          authentication := [{ keyType := KeyType.signatureAuthentication2018, keyId := referred.id }] })]
    let token := "eyJ0eXAiOiJKV1QiLCJhbGciOiJFUzI1NksifQ.eyJpYXQiOjEwMDAsImlzcyI6ImRpZDp4OnkifQ."
      ++ "wnH-ydJVgYvTKMHH4aATCKqHOITBk5m5rEpF6-kJXqPgR-zfDtLBXBvH5Bdh2fjJPaye43doJuOgj4lJLda7gQ"
    (∃ p, (verify ⟨1000, 300⟩ (registry generator) { authenticating := true } token).run () = (.ok p, ())
      ∧ ∃ s : Segments, token = s.text
        ∧ ∃ b key, decodeBytes .signature s.signature = .ok b
          ∧ Signature.IsUnder b (Bytes.ofString s.signingInput) key ∧ generator.Names key)
      ∧ (verify ⟨1000, 300⟩ (registry other) { authenticating := true } token).run ()
        = (.error (.foreignSignature "did:x:y"), ()) := by
  intro entry generator other registry token
  refine ⟨?_, run_eq_error_of_failure? (by decide +kernel)⟩
  have hok : failure? ((verify ⟨1000, 300⟩ (registry generator) { authenticating := true } token).run ()).1
      = none := by
    decide +kernel
  obtain ⟨p, hrun⟩ := run_eq_ok_of_failure? hok
  obtain ⟨s, htext, -, -, did, resolver, document, -, hfind, hresolve, b, key, hb, hunder, found, hlisted, -,
    hauth, hnames⟩ := verify_sound hrun
  rw [Assoc.eq_of_get?_singleton hfind] at hresolve
  cases hresolve
  obtain ⟨reference, hreference, hid⟩ := hauth rfl
  rw [List.mem_singleton.mp hreference] at hid
  -- the document refers to the generator alone
  have hfound : found = generator := by
    rcases List.mem_cons.mp hlisted with rfl | hlisted
    · exact absurd hid (by decide)
    · exact List.mem_singleton.mp hlisted
  exact ⟨p, hrun, s, htext, b, key, hb, hunder, hfound ▸ hnames⟩

end DidToken.Token
