import DidToken.Proofs.Token.Audience
import DidToken.Proofs.Token.Splitting
import DidToken.Proofs.Token.Times
/-!
# Tokens for the audience that the verifier names

Only the stage of the audience fails for the audience (`Stage.eq_audience_of_isAboutAudience`), and no answer
of a resolver does. The audience of a token is normalized before it is compared, the one of the verifier is
not. So a verifier that names the audience of a token as the token does accepts it as such, unless it is an
address that the registry can resolve as a DID; then it has to name the DID (`verify_ownAudience`,
`verify_bareOwnAudience`).
-/

namespace DidToken.Token

variable {m : Type → Type}

/-- The token is refused for its audience. -/
inductive Error.IsAboutAudience : Error → Prop
  | required (audience : String) : IsAboutAudience (.audienceRequired audience)
  | mismatch (audience expected : String) : IsAboutAudience (.audienceMismatch audience expected)

/-! ### Where such errors come from -/

theorem not_isAboutAudience_of_timely {clock : Clock} {policy : Policy} {p : Payload} {e : Error}
    (h : timely clock policy p = .error e) : ¬e.IsAboutAudience := by
  rw [timely] at h
  split at h
  · cases h
  · intro he
    -- each error that is found with the times names one of them
    cases judged_checkTimes_iff.mpr h <;> cases he

/-- Only the stage of the audience fails for the audience. -/
theorem Stage.eq_audience_of_isAboutAudience {clock : Clock} {registry : Registry m} {policy : Policy}
    {token : String} {stage : Stage} {e : Error} (h : stage.fault? clock registry policy token = some e)
    (he : e.IsAboutAudience) : stage = .audience := by
  cases stage with
  | audience => rfl
  | shape =>
    have hmalformed := isMalformedToken_of_split (failure?_eq_some_iff.mp h)
    cases hmalformed <;> cases he
  | header =>
    obtain ⟨s, -, hs⟩ := Option.bind_eq_some_iff.mp h
    obtain ⟨cause, rfl⟩ := decodeSegment_eq_error (failure?_eq_some_iff.mp hs)
    cases he
  | payload =>
    obtain ⟨s, -, hs⟩ := Option.bind_eq_some_iff.mp h
    obtain ⟨cause, rfl⟩ := decodeSegment_eq_error (failure?_eq_some_iff.mp hs)
    cases he
  | signature =>
    obtain ⟨s, -, hs⟩ := Option.bind_eq_some_iff.mp h
    obtain ⟨cause, rfl⟩ := decodeBytes_eq_error (failure?_eq_some_iff.mp hs)
    cases he
  | times =>
    obtain ⟨p, -, hp⟩ := Option.bind_eq_some_iff.mp h
    exact absurd he (not_isAboutAudience_of_timely (failure?_eq_some_iff.mp hp))
  | algorithm =>
    obtain ⟨header, -, hheader⟩ := Option.bind_eq_some_iff.mp h
    rw [failure?_eq_some_iff, Header.algorithm, algorithmOf] at hheader
    split at hheader
    · cases hheader
    · cases hheader
      cases he
  | issuer =>
    obtain ⟨p, -, hp⟩ := Option.bind_eq_some_iff.mp h
    obtain ⟨cause, -, rfl⟩ := Option.map_eq_some_iff.mp hp
    cases he
  | method =>
    obtain ⟨p, -, hp⟩ := Option.bind_eq_some_iff.mp h
    obtain ⟨did, -, hdid⟩ := Option.bind_eq_some_iff.mp hp
    rw [failure?_lookUp] at hdid
    split at hdid
    · cases hdid
    · cases hdid
      cases he

/-- No answer of a resolver makes a verification fail for the audience. -/
theorem not_isAboutAudience_of_concluded {policy : Policy} {checked : Checked}
    {answer : Except String Document} {e : Error} (h : concluded policy checked answer = .error e) :
    ¬e.IsAboutAudience := by
  cases answer with
  | error cause =>
    cases h
    nofun
  | ok document =>
    have hconclusion := isConclusion_conclude policy checked document
    have hconclude : conclude policy checked document = .error e := h
    rw [hconclude] at hconclusion
    intro he
    cases he <;> cases hconclusion

/-- A verification that fails for the audience does so by the stage of the audience. -/
theorem fault?_audience_of_run_verify {σ : Type} {clock : Clock} {registry : Registry (StateM σ)}
    {policy : Policy} {token : String} {w w' : σ} {e : Error}
    (h : (verify clock registry policy token).run w = (.error e, w')) (he : e.IsAboutAudience) :
    Stage.audience.fault? clock registry policy token = some e := by
  rw [verify_eq] at h
  cases hplan : plan clock registry policy token with
  | error e' =>
    rw [hplan] at h
    cases h
    -- the plan fails with the fault of some stage
    have hfirst := (failure?_plan clock registry policy token).symm
    rw [hplan] at hfirst
    obtain ⟨stage, -, hfault⟩ := List.exists_of_findSome?_eq_some hfirst
    rwa [← Stage.eq_audience_of_isAboutAudience hfault he]
  | ok planned =>
    obtain ⟨checked, resolver⟩ := planned
    rw [hplan] at h
    simp only [StateT.run_map] at h
    obtain ⟨hconcluded, -⟩ := Prod.mk.inj h
    exact absurd he (not_isAboutAudience_of_concluded hconcluded)

/-! ### The audience that the verifier names -/

/-- An address counts as an audience if the registry has a resolver for the method of addresses. -/
theorem canResolve_normalize {registry : Registry m} {text : String}
    (h : Address.isAddress text = true) :
    registry.canResolve (Address.normalize text) = registry.contains Did.ethr := by
  obtain ⟨did, hdid, hmethod⟩ := Address.parse_normalize_of_isAddress h
  rw [Registry.canResolve, hdid, ← hmethod]

/-- The token names the audience as the verifier does, or the verifier names it in normal form. -/
theorem fault?_audience_of_normalize {clock : Clock} {registry : Registry m} {policy : Policy}
    {token : String} {p : Payload} {b : String} (hp : payload? token = some p) (hb : p.audience = some b) :
    Stage.audience.fault? clock registry (policy.naming (Address.normalize b)) token = none := by
  rw [Stage.fault?, hp, Option.bind_some, failure?_eq_none_iff]
  refine ⟨(), checkAudience_eq_ok_iff.mpr fun b' hb' _ => ?_⟩
  rw [hb] at hb'
  cases hb'
  rfl

theorem fault?_audience_of_isAddress {clock : Clock} {registry : Registry m} {policy : Policy}
    {token : String} {p : Payload} {a : String} (hp : payload? token = some p) (ha : p.audience = some a)
    (haddress : Address.isAddress a = true) :
    Stage.audience.fault? clock registry (policy.naming a) token
      = if registry.contains Did.ethr then some (.audienceMismatch (Address.normalize a) a) else none := by
  have hne : a ≠ Address.normalize a := fun heq => by
    have hnormal := Address.isAddress_normalize a
    rw [← heq, haddress] at hnormal
    cases hnormal
  rw [Stage.fault?, hp, Option.bind_some, checkAudience, ha]
  simp only [canResolve_normalize haddress, Policy.naming, if_neg hne]
  cases registry.contains Did.ethr <;> rfl

/-- A verifier that names the audience of a token as the token does never refuses it for its audience,
unless it is a mere address and the registry has a resolver for the method of addresses. In that case the
stage of the audience fails by the mismatch of the DID and the address, and the token is refused without any
resolver being asked. A verifier that names the audience in normal form never refuses it for that. -/
theorem verify_ownAudience {σ : Type} (clock : Clock) (registry : Registry (StateM σ)) (policy : Policy)
    {token : String} {p : Payload} {a : String} (hp : payload? token = some p)
    (ha : p.audience = some a) :
    (¬(Address.isAddress a = true ∧ registry.contains Did.ethr = true) →
      ∀ {w w' : σ} {e : Error}, (verify clock registry (policy.naming a) token).run w = (.error e, w') →
        ¬e.IsAboutAudience)
    ∧ (Address.isAddress a = true ∧ registry.contains Did.ethr = true →
      Stage.audience.fault? clock registry (policy.naming a) token
          = some (.audienceMismatch (Address.normalize a) a)
        ∧ ∃ e, verify clock registry (policy.naming a) token = pure (.error e))
    ∧ ∀ {w w' : σ} {e : Error},
      (verify clock registry (policy.naming (Address.normalize a)) token).run w = (.error e, w') →
        ¬e.IsAboutAudience := by
  have hnormal : Stage.audience.fault? clock registry (policy.naming (Address.normalize a)) token = none :=
    fault?_audience_of_normalize hp ha
  refine ⟨fun hnot w w' e hrun he => ?_, fun ⟨haddress, hcontains⟩ => ?_, fun {w w' e} hrun he => ?_⟩
  · have hfault := fault?_audience_of_run_verify hrun he
    cases haddress : Address.isAddress a with
    | false =>
      rw [Address.normalize_of_not_isAddress haddress, hfault] at hnormal
      cases hnormal
    | true =>
      have hcontains : ¬registry.contains Did.ethr = true := fun h => hnot ⟨haddress, h⟩
      rw [fault?_audience_of_isAddress hp ha haddress, if_neg hcontains] at hfault
      cases hfault
  · have hfault : Stage.audience.fault? clock registry (policy.naming a) token
        = some (.audienceMismatch (Address.normalize a) a) := by
      rw [fault?_audience_of_isAddress hp ha haddress, if_pos hcontains]
    exact ⟨hfault, verify_of_fault? hfault⟩
  · rw [fault?_audience_of_run_verify hrun he] at hnormal
    cases hnormal

set_option maxRecDepth 100000 in
/-- A token for the audience that the verifier names fails for its signature, which is too short. -/
theorem verify_ownAudience_unsigned :
    let document := Document.ofPublicKey "did:x:y"
      "0279be667ef9dcbbac55a06295ce870b07029bfcdb2dce28d959f2815b16f81798"
    let registry : Registry (StateM Unit) := [("x", Resolver.fixed document)]
    let token := "eyJhbGciOiJFUzI1NksifQ.eyJpc3MiOiJkaWQ6eDp5IiwiYXVkIjoiZGlkOng6eiJ9.AQ"
    ∃ e, (verify ⟨1000, 300⟩ registry (Policy.naming {} "did:x:z") token).run () = (.error e, ())
      ∧ ¬e.IsAboutAudience := by
  intro document registry token
  have hpayload : (payload? token).map Payload.audience = some (some "did:x:z") := by decide +kernel
  obtain ⟨p, hp, haudience⟩ := Option.map_eq_some_iff.mp hpayload
  have hproper : ¬(Address.isAddress "did:x:z" = true ∧ registry.contains Did.ethr = true) := by
    decide +kernel
  have hfailure : (failure? ((verify ⟨1000, 300⟩ registry (Policy.naming {} "did:x:z") token).run
      ()).1).isSome = true := by decide +kernel
  obtain ⟨e, he⟩ := Option.isSome_iff_exists.mp hfailure
  have hrun := run_eq_error_of_failure? he
  exact ⟨e, hrun, (verify_ownAudience ⟨1000, 300⟩ registry {} hp haudience).1 hproper hrun⟩

set_option maxRecDepth 100000 in
/-- The verifier and the token name the same address, and the token is refused for its audience. It is
accepted by a verifier that names the DID of the address. -/
theorem verify_bareOwnAudience :
    let document := Document.ofPublicKey "did:x:y"
      "0279be667ef9dcbbac55a06295ce870b07029bfcdb2dce28d959f2815b16f81798"
    let registry : Registry (StateM Unit) :=
      [("x", Resolver.fixed document), ("ethr", Resolver.failing "offline")]
    let address := "0x7e5f4552091a69125d5dfcb7b8c2659029395bdf"
    let token := "eyJhbGciOiJFUzI1NksifQ."
      ++ "eyJpc3MiOiJkaWQ6eDp5IiwiYXVkIjoiMHg3ZTVmNDU1MjA5MWE2OTEyNWQ1ZGZjYjdiOGMyNjU5MDI5Mzk1YmRmIn0."
      ++ "lmEVLlCOtAx_qkWiOvGY5a5-reqT2KqeH6z6wYW0MbivQG4PRtFBoCPXpSE9xXryD06xk8sB6pJu54FfWAuyIA"
    (payload? token).map Payload.audience = some (some address)
      ∧ (verify ⟨1000, 300⟩ registry (Policy.naming {} address) token).run ()
        = (.error (.audienceMismatch (Did.ofAddress address) address), ())
      ∧ ∃ p, (verify ⟨1000, 300⟩ registry (Policy.naming {} (Did.ofAddress address)) token).run ()
        = (.ok p, ()) := by
  intro document registry address token
  refine ⟨by decide +kernel, run_eq_error_of_failure? ?_, run_eq_ok_of_failure? ?_⟩
  · decide +kernel
  · decide +kernel

end DidToken.Token
