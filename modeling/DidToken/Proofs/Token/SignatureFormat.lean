import DidToken.Proofs.Token.Completeness
/-!
# The format of accepted signatures

Whichever algorithm a token names, its signature is two numbers, alone or with a recovery id after them
(`Signature.HasFormat`). A token whose signature has another length is refused for it as soon as a document
with suitable keys is there (`verify_signatureFormat`). The algorithm does not choose between the two forms:
each is accepted under both (`verify_crossed_formats`).
-/

namespace DidToken

namespace Signature

/-- The bytes of two numbers, alone or followed by a recovery id. -/
inductive HasFormat (b : Bytes) : Prop
  | bare (length : b.length = 64)
  /-- The offset that some writers add to the id may be in it. -/
  | withId (length : b.length = 65) {v : UInt8} (last : b.drop 64 = [v]) (id : v ≤ 3 ∨ 27 ≤ v ∧ v ≤ 30)

/-- The bytes of a signature that can be used are in the format. -/
theorem hasFormat_of_normalize {b : Bytes} {candidates : List Signature} {a : Signature}
    {n : Secp256k1.Ecdsa.Signed} (hb : ofBytes b = .ok candidates) (ha : a ∈ candidates)
    (hn : a.normalize = .ok n) : HasFormat b := by
  have hid := recoveryId_le_of_normalize hn
  obtain ⟨h64 | h65, -⟩ := ofBytes_eq_ok hb
  · exact .bare h64
  · obtain ⟨whole, rfl⟩ := exists_toBytes_withId_eq h65
    rw [ofBytes_toBytes_withId] at hb
    cases hb
    cases List.mem_singleton.mp ha
    exact .withId h65 (words_toBytes whole true).2.2 (readId_le_iff.mp hid)

/-- Signatures that come from one of the keys are in the format. -/
theorem hasFormat_of_comesFrom {algorithm : Algorithm} {keys : List KeyEntry} {b message : Bytes}
    (h : comesFrom algorithm keys b message = .ok true) : HasFormat b := by
  obtain ⟨candidates, hb, hverifies | hrecovers⟩ := comesFrom_eq_true h
  · -- only the first of the candidates is verified
    cases candidates with
    | nil => cases hverifies
    | cons a rest =>
      obtain ⟨key, -, hverify⟩ := List.any_eq_true.mp hverifies
      obtain ⟨n, hn, -⟩ := verify_eq_ok hverify
      exact hasFormat_of_normalize hb (List.mem_cons_self ..) hn
  · obtain ⟨-, -, a, ha, address, hrecover, -⟩ := recoversTo_eq_true hrecovers
    obtain ⟨n, -, hn, -⟩ := recoverAddress_eq_ok_iff.mp hrecover
    exact hasFormat_of_normalize hb ha hn

end Signature

namespace Token

/-- With suitable keys, the length of the signature is what is wrong with it first. -/
theorem conclude_eq_error_length {policy : Policy} {checked : Checked} {document : Document}
    (hkeys : document.verifyingKeys policy.authenticating ≠ [])
    (h64 : checked.token.signature.length ≠ 64) (h65 : checked.token.signature.length ≠ 65) :
    conclude policy checked document
      = .error (.malformedSignature (.length checked.token.signature.length)) := by
  have hempty : (document.verifyingKeys policy.authenticating).isEmpty = false := by
    rw [List.isEmpty_eq_false_iff]
    exact hkeys
  rw [conclude_of_keys hempty, Signature.comesFrom, Signature.ofBytes_eq_error h64 h65]
  rfl

/-- The signature of a token that is accepted is two numbers, alone or followed by a recovery id, under
either algorithm. If the length is none of these, then once all earlier checks have passed and the resolver
has given a document with suitable keys, the token is refused for the length of its signature. -/
theorem verify_signatureFormat {σ : Type} (clock : Clock) (registry : Registry (StateM σ))
    (policy : Policy) (token : String) (w : σ) :
    (∀ p w', (verify clock registry policy token).run w = (.ok p, w') →
      ∃ d, decode token = .ok d ∧ d.payload = p ∧ Signature.HasFormat d.signature)
    ∧ ∀ checked resolver document w', Planned clock registry policy token checked resolver →
      (resolver.resolve checked.issuer).run w = (.ok document, w') →
      document.verifyingKeys policy.authenticating ≠ [] →
      checked.token.signature.length ≠ 64 → checked.token.signature.length ≠ 65 →
        (verify clock registry policy token).run w
          = (.error (.malformedSignature (.length checked.token.signature.length)), w') := by
  constructor
  · intro p w' h
    obtain ⟨checked, resolver, document, hplanned, -, hconclude⟩ := run_verify_eq_ok_iff.mp h
    obtain ⟨rfl, hcomes⟩ := conclude_eq_ok_iff.mp hconclude
    exact ⟨checked.token, hplanned.decoded, rfl, Signature.hasFormat_of_comesFrom hcomes⟩
  · intro checked resolver document w' hplanned hrun hkeys h64 h65
    rw [verify_of_plan (plan_eq_ok_iff.mpr hplanned), StateT.run_map, hrun,
      ← conclude_eq_error_length hkeys h64 h65]
    rfl

set_option maxRecDepth 100000 in
/-- A token that is accepted with a signature of 64 bytes, and the same text with a signature of one byte. -/
theorem verify_signatureFormat_generator :
    let document := Document.ofPublicKey "did:x:y"
      "0279be667ef9dcbbac55a06295ce870b07029bfcdb2dce28d959f2815b16f81798"
    let registry : Registry (StateM Unit) := [("x", Resolver.fixed document)]
    let signed := "eyJhbGciOiJFUzI1NksifQ.eyJpc3MiOiJkaWQ6eDp5In0."
    (∃ d, decode (signed
          ++ "ofXMh2YpuLGieC79W5TIh4EAkuu6v3-iZZSR1gUuOhN1kUwoun7MYLEU3XpbTFhnL8Zbzpg2lTBHG_GMn4KfeQ")
        = .ok d ∧ Signature.HasFormat d.signature)
      ∧ (verify ⟨1000, 300⟩ registry {} (signed ++ "AQ")).run ()
        = (.error (.malformedSignature (.length 1)), ()) := by
  intro document registry signed
  constructor
  · have hok : failure? ((verify ⟨1000, 300⟩ registry {} (signed
        ++ "ofXMh2YpuLGieC79W5TIh4EAkuu6v3-iZZSR1gUuOhN1kUwoun7MYLEU3XpbTFhnL8Zbzpg2lTBHG_GMn4KfeQ")).run
          ()).1 = none := by decide +kernel
    obtain ⟨p, hp⟩ := run_eq_ok_of_failure? hok
    obtain ⟨d, hd, -, hformat⟩ := (verify_signatureFormat ⟨1000, 300⟩ registry {} _ ()).1 p () hp
    exact ⟨d, hd, hformat⟩
  · have hplan : failure? (plan ⟨1000, 300⟩ registry {} (signed ++ "AQ")) = none := by decide +kernel
    obtain ⟨⟨checked, resolver⟩, hplan⟩ := failure?_eq_none_iff.mp hplan
    have hplanned := plan_eq_ok_iff.mp hplan
    obtain ⟨did, -, hfind⟩ := hplanned.found
    rw [Assoc.eq_of_get?_singleton hfind] at hplanned
    have hlength : (decode (signed ++ "AQ")).toOption.map (fun d => d.signature.length) = some 1 := by
      decide +kernel
    rw [hplanned.decoded] at hlength
    have hone : checked.token.signature.length = 1 := Option.some.inj hlength
    have hkeys : document.verifyingKeys false ≠ [] := by decide +kernel
    have hrefused := (verify_signatureFormat ⟨1000, 300⟩ registry {} (signed ++ "AQ") ()).2 checked
      (Resolver.fixed document) document () hplanned rfl hkeys (by omega) (by omega)
    rwa [hone] at hrefused

set_option maxRecDepth 100000 in
/-- A token with the name of the plain algorithm and a recovery id is accepted, and so is one with the name
of the recoverable algorithm and no recovery id. -/
theorem verify_crossed_formats :
    let address := "0x7e5f4552091a69125d5dfcb7b8c2659029395bdf"
    let document := Document.ofPublicKey "did:x:y"
      "0279be667ef9dcbbac55a06295ce870b07029bfcdb2dce28d959f2815b16f81798"
    let registry : Registry (StateM Unit) :=
      [("x", Resolver.fixed document), ("ethr", Resolver.fixed (Document.ofAddress address))]
    let plain := "eyJhbGciOiJFUzI1NksifQ.eyJpc3MiOiJkaWQ6eDp5In0."
      ++ "ofXMh2YpuLGieC79W5TIh4EAkuu6v3-iZZSR1gUuOhN1kUwoun7MYLEU3XpbTFhnL8Zbzpg2lTBHG_GMn4KfeQA"
    let recoverable := "eyJhbGciOiJFUzI1NkstUiJ9."
      ++ "eyJpc3MiOiJkaWQ6ZXRocjoweDdlNWY0NTUyMDkxYTY5MTI1ZDVkZmNiN2I4YzI2NTkwMjkzOTViZGYifQ."
      ++ "axdBGi0_MYclqb9qvpX3Cxw4oLmGOrcPFC5NNdwbQAkdmXVLj2AvSkWWsHQXaILBGaiORwe_IWXIpnXVOgtoow"
    ((∃ p, (verify ⟨1000, 300⟩ registry {} plain).run () = (.ok p, ()))
        ∧ (decode plain).toOption.map (fun d => (d.header.alg, d.signature.length))
          = some ("ES256K", 65))
      ∧ (∃ p, (verify ⟨1000, 300⟩ registry {} recoverable).run () = (.ok p, ()))
        ∧ (decode recoverable).toOption.map (fun d => (d.header.alg, d.signature.length))
          = some ("ES256K-R", 64) := by
  intro address document registry plain recoverable
  refine ⟨⟨?_, by decide +kernel⟩, ?_, by decide +kernel⟩
  · have hok : failure? ((verify ⟨1000, 300⟩ registry {} plain).run ()).1 = none := by decide +kernel
    exact run_eq_ok_of_failure? hok
  · let signature : Signature :=
      ⟨48438561600135610538248200229570495287065525907565693074196751909563913682953,
        13388209751243618407793063105459593722844803423031984052832186645205360535715, 0⟩
    let message := Bytes.ofString ("eyJhbGciOiJFUzI1NkstUiJ9."
      ++ "eyJpc3MiOiJkaWQ6ZXRocjoweDdlNWY0NTUyMDkxYTY5MTI1ZDVkZmNiN2I4YzI2NTkwMjkzOTViZGYifQ")
    -- the plan asks the resolver of the address
    have hplan : failure? (plan ⟨1000, 300⟩ registry {} recoverable) = none := by decide +kernel
    obtain ⟨⟨checked, resolver⟩, hplan⟩ := failure?_eq_none_iff.mp hplan
    have hplanned := plan_eq_ok_iff.mp hplan
    have hparts : (decode recoverable).toOption.map (fun d => (d.signature, d.signedData, d.payload.issuer))
        = some (signature.toBytes false, message, Did.ofAddress address) := by decide +kernel
    rw [hplanned.decoded] at hparts
    obtain ⟨hsignature, hsigned, hissuer⟩ := by simpa [Except.toOption] using hparts
    have haddress : Address.IsMarked address := ⟨by decide +kernel, by decide +kernel, by decide +kernel⟩
    obtain ⟨did, hdid, hmethod⟩ := Address.parse_ofAddress haddress.ne_empty
    obtain ⟨found, hparse, hfind⟩ := hplanned.found
    rw [hplanned.issuer, hissuer, Address.normalize_ofAddress, hdid] at hparse
    rw [← Except.ok.inj hparse, hmethod] at hfind
    obtain rfl := Option.some.inj hfind
    -- the signature recovers to the address with one of the ids that are tried
    have hkey : signature.normalize.toOption.bind
        (Secp256k1.Ecdsa.recover? (Signature.hash message)) = some Secp256k1.generator := by decide +kernel
    have hrecover : signature.recoverAddress message = .ok address := by
      rw [Signature.recoverAddress_of_recover? hkey, PublicKey.address_generator]
    obtain ⟨entry, hentry, hlisted⟩ := Document.mem_verifyingKeys_ofAddress address false
    refine ⟨_, run_verify_eq_ok_iff.mpr ⟨checked, _, _, hplanned, rfl, conclude_eq_ok_iff.mpr ⟨rfl, ?_⟩⟩⟩
    rw [hsignature, hsigned]
    exact Signature.comesFrom_of_mem hentry hlisted (Signature.ofBytes_toBytes_plain signature)
      (List.mem_cons_self ..) hrecover

end Token

end DidToken
