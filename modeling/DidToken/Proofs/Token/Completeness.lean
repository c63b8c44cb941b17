import DidToken.Proofs.PublicKey
import DidToken.Proofs.Token.Payload
import DidToken.Proofs.Token.Soundness
import DidToken.Proofs.Token.Times
/-!
# What is issued is accepted

A token that a signer issues for the DID of its own address is accepted while it is valid, against every
registry that resolves the DID to the document of the address (`verify_create`). This composes the round
trip of the token, the typed reading of its payload, the times, the normal form of the issuer and the
attribution of the signature.
-/

namespace DidToken.Token

open Json

/-! ### Times -/

/-- An issued payload is timely from its time of issue up to its end, give or take the skew. -/
theorem timely_issued {clock : Clock} {policy : Policy} {now : UInt64} {issuer : String}
    {lifetime : Int64} {claims : RawPayload}
    (hnow : now.toNat + max lifetime.toInt 0 ≤ Int64.maxValue.toInt)
    (hclock : clock.now.toNat ≤ Int64.maxValue.toInt)
    (hskew : (policy.skew.getD clock.skew).toNat ≤ Int64.maxValue.toInt)
    (hstart : now.toNat ≤ clock.now.toNat + (policy.skew.getD clock.skew).toNat)
    (hend : lifetime < 0 ∨ (clock.now.toNat - (policy.skew.getD clock.skew).toNat : Int)
      < now.toNat + lifetime.toInt) :
    timely clock policy (Payload.issued now issuer lifetime claims) = .ok () := by
  have hmax : Int64.maxValue.toInt = 0x7fffffffffffffff := by decide
  have hlatest : latest = 0x7fffffffffffffff := hmax
  have hissuedAt : (Int64.ofInt now.toNat).toInt = now.toNat :=
    Int64.toInt_ofInt_of_le (by omega) (by omega)
  rw [timely]
  split
  · rfl
  · rw [checkTimes_eq_ok_iff]
    refine ⟨⟨fun t ht => ?_, fun _ t ht => ?_⟩, fun t ht => ?_⟩
    · cases ht
    · cases ht
      rw [hissuedAt]
      omega
    · -- the end counts only where there is one, and then the lifetime is not negative
      change (if lifetime < 0 then none else some (Int64.ofInt (now.toNat + lifetime.toInt))) = some t at ht
      split at ht
      · cases ht
      · next hlifetime =>
        cases ht
        have hnonneg : 0 ≤ lifetime.toInt := by
          rw [Int64.lt_iff_toInt_lt] at hlifetime
          exact Int.not_lt.mp hlifetime
        have hlt := hend.resolve_left hlifetime
        rw [Int64.toInt_ofInt_of_le (by omega) (by omega)]
        omega

/-! ### Acceptance -/

/-- A token for the DID of its signer's address is accepted: a signer whose signature recovers to its own
address makes, of claims that have no field of their own, a token that every verifier accepts at every
clock reading within the validity of the token, if the resolver of the method gives the document of the
address. What is accepted is the issuer, the times and the claims in order. -/
theorem verify_create {σ : Type} {now : UInt64} {claims : RawPayload} {signer : Signer (StateM σ)}
    {lifetime : Int64} {a : Algorithm} {signature : Signature} {w w' : σ}
    (haddress : Address.IsMarked signer.address)
    (hint : (Value.obj claims).IsIntegral) (hdist : (Value.obj claims).IsDistinct)
    (hnames : ∀ name ∈ Payload.registered, name ∉ Assoc.keys claims)
    (hdepth : (Value.obj (mergeClaims now (Did.ofAddress signer.address) lifetime claims)).depth ≤ 127)
    (hnow : now.toNat + max lifetime.toInt 0 ≤ Int64.maxValue.toInt)
    (hsign : (signer.sign (Bytes.ofString (signingInput (Header.ofAlgorithm a)
      (mergeClaims now (Did.ofAddress signer.address) lifetime claims)))).run w = (.ok signature, w'))
    (hrecover : signature.recoverAddress (Bytes.ofString (signingInput (Header.ofAlgorithm a)
      (mergeClaims now (Did.ofAddress signer.address) lifetime claims))) = .ok signer.address)
    (hid : a = .plain → signature.recoveryId = 0 ∨ signature.recoveryId = 1) :
    ∃ token, (create now claims (Did.ofAddress signer.address) signer lifetime a.name).run w
        = (.ok token, w')
      ∧ ∀ {τ : Type} (clock : Clock) (registry : Registry (StateM τ)) (policy : Policy)
          (resolver : Resolver (StateM τ)) (v v' : τ),
        registry.find? Did.ethr = some resolver →
        (resolver.resolve (Did.ofAddress signer.address)).run v
          = (.ok (Document.ofAddress signer.address), v') →
        clock.now.toNat ≤ Int64.maxValue.toInt →
        (policy.skew.getD clock.skew).toNat ≤ Int64.maxValue.toInt →
        now.toNat ≤ clock.now.toNat + (policy.skew.getD clock.skew).toNat →
        (lifetime < 0 ∨ (clock.now.toNat - (policy.skew.getD clock.skew).toNat : Int)
          < now.toNat + lifetime.toInt) →
        (verify clock registry policy token).run v
          = (.ok { Payload.empty with
                   issuer := Did.ofAddress signer.address
                   issuedAt := some (Int64.ofInt now.toNat)
                   expiration := if lifetime < 0 then none
                     else some (Int64.ofInt (now.toNat + lifetime.toInt))
                   extra := claims }, v') := by
  have htakes := Payload.takes_mergeClaims hint hdist hnames
    hdepth hnow
  have hdecode := decodeWith_issued htakes (Header.ofAlgorithm a)
    (toBytes_ne_nil signature a.isRecoverable)
  have hcreate := create_name now claims (Did.ofAddress signer.address) signer lifetime a
  -- the signed text is opaque from here on
  generalize signingInput (Header.ofAlgorithm a)
    (mergeClaims now (Did.ofAddress signer.address) lifetime claims) = input at *
  refine ⟨input ++ "." ++ encodeBytes (signature.toBytes a.isRecoverable), ?_, ?_⟩
  · rw [hcreate, StateT.run_map, hsign]
    rfl
  · intro τ clock registry policy resolver v v' hfind hresolve hclock hskew hstart hend
    obtain ⟨did, hdid, hmethod⟩ := Address.parse_ofAddress haddress.ne_empty
    obtain ⟨entry, hentry, hlisted⟩ :=
      Document.mem_verifyingKeys_ofAddress signer.address policy.authenticating
    refine run_verify_eq_ok_iff.mpr ⟨⟨_, a, Did.ofAddress signer.address⟩, resolver,
      Document.ofAddress signer.address, ⟨hdecode, ?_, ?_, ?_, ⟨did, hdid, ?_⟩, rfl⟩, hresolve, ?_⟩
    · exact timely_issued hnow hclock hskew hstart hend
    · show algorithmOf a.name = _
      rw [algorithmOf, Algorithm.ofName?_name]
    · exact (Address.normalize_ofAddress _).symm
    · rw [hmethod]
      exact hfind
    · exact conclude_eq_ok_iff.mpr
        ⟨rfl, Signature.comesFrom_toBytes hentry hlisted hrecover hid⟩

set_option maxRecDepth 100000 in
/-- A token of the key whose secret is one, verified while it is valid. -/
theorem verify_create_generator :
    let address := "0x7e5f4552091a69125d5dfcb7b8c2659029395bdf"
    let signature : Signature :=
      ⟨66558845189801186785227037441338106282501403083225862607099245575485306639682,
        108102964289925120816159668108413895337437197596193997437548438032598981428, 1⟩
    let signer : Signer (StateM Unit) := ⟨address, fun _ => pure (.ok signature)⟩
    let registry : Registry (StateM Unit) :=
      [("ethr", Resolver.fixed (Document.ofAddress address))]
    ∃ token p, (create 1000 [("hello", .str "world")] (Did.ofAddress address) signer 300 "ES256K-R").run ()
        = (.ok token, ())
      ∧ (verify ⟨1100, 300⟩ registry { authenticating := true } token).run () = (.ok p, ())
      ∧ p.extra = [("hello", .str "world")] := by
  intro address signature signer registry
  have haddress : Address.IsMarked signer.address :=
    ⟨by decide +kernel, by decide +kernel, by decide +kernel⟩
  have hint : (Value.obj [("hello", .str "world")]).IsIntegral := ⟨rfl, rfl, trivial⟩
  have hdist : (Value.obj [("hello", .str "world")]).IsDistinct :=
    ⟨(by decide : ["hello"].Nodup), trivial, trivial⟩
  have hkey : signature.normalize.toOption.bind (Secp256k1.Ecdsa.recover? (Signature.hash
      (Bytes.ofString (signingInput (Header.ofAlgorithm .recoverable)
        (mergeClaims 1000 (Did.ofAddress address) 300 [("hello", .str "world")])))))
      = some Secp256k1.generator := by decide +kernel
  have hrecover : signature.recoverAddress (Bytes.ofString
      (signingInput (Header.ofAlgorithm .recoverable)
        (mergeClaims 1000 (Did.ofAddress address) 300 [("hello", .str "world")]))) = .ok address := by
    rw [Signature.recoverAddress_of_recover? hkey, PublicKey.address_generator]
  obtain ⟨token, hcreate, hverify⟩ := verify_create (a := .recoverable) (w := ()) haddress hint hdist
    (by decide) (by decide) (by decide) rfl hrecover (fun h => nomatch h)
  refine ⟨token, _, hcreate, hverify ⟨1100, 300⟩ registry { authenticating := true } _ () () rfl rfl
    (by decide) (by decide) (by decide) (Or.inr (by decide)), rfl⟩

end DidToken.Token
