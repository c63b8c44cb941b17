import DidToken.Proofs.Materials
import DidToken.Proofs.Token.Soundness
import DidToken.Proofs.Token.Times
/-!
# Policies and times

What a verifier asks for can be relaxed (`Policy.Relaxes`), and the times at which a token is valid are an
interval. Where resolvers answer by the DID alone (`Registry.IsFixed`), a token that is accepted stays
accepted when the policy is relaxed, and between two times at which it is accepted (`verify_relaxed`). Both
come from one lemma on what the checks find at a time between two others (`Planned.of_between`).
-/

namespace DidToken

variable {σ : Type}

/-! ### Fixed answers -/

/-- The resolver answers by the DID alone, whatever else it does. -/
def Resolver.Answers (resolver : Resolver (StateM σ)) (answers : String → Except String Document) :
    Prop :=
  ∀ did w, ((resolver.resolve did).run w).1 = answers did

/-- Each resolver of the registry answers by the DID alone. -/
def Registry.IsFixed (registry : Registry (StateM σ)) : Prop :=
  ∀ method resolver, registry.find? method = some resolver → ∃ answers, resolver.Answers answers

namespace Token

/-! ### Relaxed policies -/

/-- The loose policy asks for no more than the strict one, where the clocks that they are used with may be
off by the given seconds. An audience may be named where none was. -/
structure Policy.Relaxes (loose strict : Policy) (skew looseSkew : UInt64) : Prop where
  authenticating : loose.authenticating = true → strict.authenticating = true
  ignoringTimes : strict.ignoringTimes = true → loose.ignoringTimes = true
  skew : strict.skew.getD skew ≤ loose.skew.getD looseSkew
  audience : strict.audience = none ∨ loose.audience = strict.audience

theorem Policy.Relaxes.refl (policy : Policy) (skew : UInt64) : policy.Relaxes policy skew skew where
  authenticating := id
  ignoringTimes := id
  skew := UInt64.le_refl _
  audience := .inr rfl

/-! ### Times -/

/-- A payload that has started by one time and has not ended by a later one is valid in between, all the more
with a larger skew. -/
theorem checkTimes_of_between {first now last skew looseSkew : UInt64} {p : Payload}
    (hfirst : first ≤ now) (hlast : now ≤ last) (hskew : skew ≤ looseSkew)
    (hstart : checkTimes first skew p = .ok ()) (hend : checkTimes last skew p = .ok ()) :
    checkTimes now looseSkew p = .ok () := by
  rw [UInt64.le_iff_toNat_le] at hfirst hlast hskew
  rw [checkTimes_eq_ok_iff] at hstart hend ⊢
  refine ⟨hstart.1.mono ?_, fun t named => ?_⟩
  · omega
  · have hlasting := hend.2 t named
    omega

theorem timely_of_between {first now last skew looseSkew : UInt64} {strict loose : Policy} {p : Payload}
    (hrelaxes : loose.Relaxes strict skew looseSkew) (hfirst : first ≤ now) (hlast : now ≤ last)
    (hstart : timely ⟨first, skew⟩ strict p = .ok ()) (hend : timely ⟨last, skew⟩ strict p = .ok ()) :
    timely ⟨now, looseSkew⟩ loose p = .ok () := by
  rw [timely] at hstart hend ⊢
  cases hloose : loose.ignoringTimes with
  | true => rfl
  | false =>
    -- then the strict policy counts times, too
    have hstrict : ¬strict.ignoringTimes = true := fun h => by
      rw [hrelaxes.ignoringTimes h] at hloose
      cases hloose
    rw [if_neg hstrict] at hstart hend
    exact checkTimes_of_between hfirst hlast hrelaxes.skew hstart hend

/-! ### Checks and conclusion -/

/-- Where no audience had to be named, none is looked at. -/
theorem checkAudience_of_relaxes {m : Type → Type} {registry : Registry m} {strict loose : Policy}
    {skew looseSkew : UInt64} {p : Payload} (hrelaxes : loose.Relaxes strict skew looseSkew)
    (hok : checkAudience registry strict p = .ok ()) : checkAudience registry loose p = .ok () := by
  unfold checkAudience at hok ⊢
  cases haudience : p.audience with
  | none => rfl
  | some text =>
    rw [haudience] at hok
    rcases hrelaxes.audience with hnone | hsame
    · dsimp only at hok ⊢
      rw [hnone] at hok
      split at hok
      · cases hok
      · next hcannot => exact if_neg hcannot
    · rw [hsame]
      exact hok

/-- What is planned does not depend on clock, registry and policy. -/
theorem Planned.checked_eq {m n : Type → Type} {clock clock' : Clock} {registry : Registry m}
    {other : Registry n} {policy policy' : Policy} {token : String} {checked checked' : Checked}
    {resolver : Resolver m} {resolver' : Resolver n}
    (h : Planned clock registry policy token checked resolver)
    (h' : Planned clock' other policy' token checked' resolver') : checked' = checked := by
  obtain ⟨d, algorithm, issuer⟩ := checked
  obtain ⟨d', algorithm', issuer'⟩ := checked'
  obtain rfl : d' = d := Except.ok.inj (h'.decoded.symm.trans h.decoded)
  obtain rfl : algorithm' = algorithm := Except.ok.inj (h'.algorithm.symm.trans h.algorithm)
  obtain rfl : issuer' = issuer := h'.issuer.trans h.issuer.symm
  rfl

/-- The checks pass between two times at which they pass for a stricter policy. -/
theorem Planned.of_between {m : Type → Type} {first now last skew looseSkew : UInt64}
    {registry : Registry m} {strict loose : Policy} {token : String} {checked : Checked}
    {resolver resolver' : Resolver m} (hrelaxes : loose.Relaxes strict skew looseSkew)
    (hfirst : first ≤ now) (hlast : now ≤ last)
    (h : Planned ⟨first, skew⟩ registry strict token checked resolver)
    (h' : Planned ⟨last, skew⟩ registry strict token checked resolver') :
    Planned ⟨now, looseSkew⟩ registry loose token checked resolver where
  decoded := h.decoded
  timely := timely_of_between hrelaxes hfirst hlast h.timely h'.timely
  algorithm := h.algorithm
  issuer := h.issuer
  found := h.found
  audience := checkAudience_of_relaxes hrelaxes h.audience

theorem conclude_of_relaxes {strict loose : Policy} {skew looseSkew : UInt64} {checked : Checked}
    {document : Document} {p : Payload} (hrelaxes : loose.Relaxes strict skew looseSkew)
    (h : conclude strict checked document = .ok p) : conclude loose checked document = .ok p := by
  obtain ⟨hpayload, hcomes⟩ := conclude_eq_ok_iff.mp h
  exact conclude_eq_ok_iff.mpr ⟨hpayload, Signature.comesFrom_of_covers
    (Document.covers_verifyingKeys_of_imp hrelaxes.authenticating) hcomes⟩

/-! ### Verification -/

/-- What is accepted, without what becomes of the state. -/
theorem verify_accepts_iff {clock : Clock} {registry : Registry (StateM σ)} {policy : Policy}
    {token : String} {w : σ} {p : Payload} :
    ((verify clock registry policy token).run w).1 = .ok p ↔
      ∃ checked resolver document, Planned clock registry policy token checked resolver
        ∧ ((resolver.resolve checked.issuer).run w).1 = .ok document
        ∧ conclude policy checked document = .ok p := by
  constructor
  · intro h
    obtain ⟨checked, resolver, document, hplanned, hrun, hconclude⟩ :=
      run_verify_eq_ok_iff.mp (Prod.ext h rfl)
    exact ⟨checked, resolver, document, hplanned, congrArg Prod.fst hrun, hconclude⟩
  · rintro ⟨checked, resolver, document, hplanned, hrun, hconclude⟩
    have hverify := run_verify_eq_ok_iff.mpr
      ⟨checked, resolver, document, hplanned, Prod.ext hrun rfl, hconclude⟩
    exact congrArg Prod.fst hverify

theorem verify_of_between {registry : Registry (StateM σ)} (hfixed : registry.IsFixed) {token : String}
    {first now last skew looseSkew : UInt64} {strict loose : Policy} {p q : Payload} {w₁ w₃ : σ}
    (hrelaxes : loose.Relaxes strict skew looseSkew) (hfirst : first ≤ now) (hlast : now ≤ last)
    (h₁ : ((verify ⟨first, skew⟩ registry strict token).run w₁).1 = .ok p)
    (h₃ : ((verify ⟨last, skew⟩ registry strict token).run w₃).1 = .ok q) :
    q = p ∧ ∀ w, ((verify ⟨now, looseSkew⟩ registry loose token).run w).1 = .ok p := by
  obtain ⟨checked, resolver, document, hplanned, hrun, hconclude⟩ := verify_accepts_iff.mp h₁
  obtain ⟨checked', resolver', document', hplanned', -, hconclude'⟩ := verify_accepts_iff.mp h₃
  obtain rfl := hplanned.checked_eq hplanned'
  have hp := (conclude_eq_ok_iff.mp hconclude).1
  have hq := (conclude_eq_ok_iff.mp hconclude').1
  refine ⟨hq.trans hp.symm, fun w => verify_accepts_iff.mpr ⟨checked', resolver, document,
    hplanned.of_between hrelaxes hfirst hlast hplanned', ?_, conclude_of_relaxes hrelaxes hconclude⟩⟩
  -- the resolver gives the same document again
  obtain ⟨did, -, hfound⟩ := hplanned.found
  obtain ⟨answers, hanswers⟩ := hfixed did.method resolver hfound
  rw [hanswers, ← hanswers _ w₁]
  exact hrun

/-- With resolvers that answer by the DID alone, a token that is accepted is accepted with the same payload
by each verifier that asks for less at the same time; and by the same verifier, it is accepted with the same
payload between two times at which it is accepted. -/
theorem verify_relaxed {registry : Registry (StateM σ)} (hfixed : registry.IsFixed) (token : String) :
    (∀ {now skew looseSkew : UInt64} {strict loose : Policy} {p : Payload} {w : σ},
      loose.Relaxes strict skew looseSkew →
      ((verify ⟨now, skew⟩ registry strict token).run w).1 = .ok p →
      ∀ w', ((verify ⟨now, looseSkew⟩ registry loose token).run w').1 = .ok p)
    ∧ ∀ {t₁ t₂ t₃ skew : UInt64} {policy : Policy} {p q : Payload} {w₁ w₃ : σ}, t₁ ≤ t₂ → t₂ ≤ t₃ →
      ((verify ⟨t₁, skew⟩ registry policy token).run w₁).1 = .ok p →
      ((verify ⟨t₃, skew⟩ registry policy token).run w₃).1 = .ok q →
      q = p ∧ ∀ w₂, ((verify ⟨t₂, skew⟩ registry policy token).run w₂).1 = .ok p := by
  constructor
  · intro now skew looseSkew strict loose p w hrelaxes h
    exact (verify_of_between hfixed hrelaxes (UInt64.le_refl now) (UInt64.le_refl now) h h).2
  · intro t₁ t₂ t₃ skew policy p q w₁ w₃ h₁₂ h₂₃ h₁ h₃
    exact verify_of_between hfixed (Policy.Relaxes.refl policy skew) h₁₂ h₂₃ h₁ h₃

set_option maxRecDepth 100000 in
/-- A token that is accepted at two times, for a key that may authenticate, is accepted in between, and by a
verifier who does not look at times and authentication but names an audience. -/
theorem verify_relaxed_generator :
    let document : Document :=
      { Document.ofPublicKey "did:x:y"
          "0279be667ef9dcbbac55a06295ce870b07029bfcdb2dce28d959f2815b16f81798" with
        authentication := [⟨KeyType.signatureAuthentication2018, "did:x:y#keys-1"⟩] }
    let registry : Registry (StateM Unit) := [("x", Resolver.fixed document)]
    let token := "eyJ0eXAiOiJKV1QiLCJhbGciOiJFUzI1NksifQ.eyJpYXQiOjEwMDAsImlzcyI6ImRpZDp4OnkifQ."
      ++ "wnH-ydJVgYvTKMHH4aATCKqHOITBk5m5rEpF6-kJXqPgR-zfDtLBXBvH5Bdh2fjJPaye43doJuOgj4lJLda7gQ"
    ∃ p, ((verify ⟨1000, 0⟩ registry { authenticating := true } token).run ()).1 = .ok p
      ∧ ((verify ⟨1000, 300⟩ registry { audience := some "did:x:z", ignoringTimes := true } token).run ()).1
        = .ok p
      ∧ ((verify ⟨1500, 0⟩ registry { authenticating := true } token).run ()).1 = .ok p := by
  intro document registry token
  have hfixed : registry.IsFixed := fun method resolver hfind => by
    rw [Assoc.eq_of_get?_singleton hfind]
    exact ⟨fun _ => .ok document, fun _ _ => rfl⟩
  have hstart : failure? ((verify ⟨1000, 0⟩ registry { authenticating := true } token).run ()).1 = none := by
    decide +kernel
  have hend : failure? ((verify ⟨2000, 0⟩ registry { authenticating := true } token).run ()).1 = none := by
    decide +kernel
  obtain ⟨p, hp⟩ := failure?_eq_none_iff.mp hstart
  obtain ⟨q, hq⟩ := failure?_eq_none_iff.mp hend
  have hrelaxes : ({ audience := some "did:x:z", ignoringTimes := true } : Policy).Relaxes
      { authenticating := true } 0 300 :=
    ⟨nofun, nofun, by decide, .inl rfl⟩
  obtain ⟨hrelaxed, hconvex⟩ := verify_relaxed hfixed token
  exact ⟨p, hp, hrelaxed hrelaxes hp (), (hconvex (by decide) (by decide) hp hq).2 ()⟩

end Token

end DidToken
