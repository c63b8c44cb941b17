import DidToken.Proofs.Registry
import DidToken.Proofs.Token.Soundness
/-!
# Whom a token is meant for

The audience that a token names counts if the registry has a resolver for its method. Then the verifier
must name the same one (`checkAudience_eq_ok_iff`), and a verifier that names another one refuses the token
before any resolver is asked (`verify_audience`). An audience that could not be resolved does not count,
whomever the verifier names (`verify_unresolvable_audience`).
-/

namespace DidToken.Token

variable {m : Type → Type}

/-- The verifier that names an audience. -/
def Policy.naming (policy : Policy) (audience : String) : Policy :=
  { policy with audience := some audience }

/-- The audience of a payload passes exactly if it is none that the registry could resolve or the one that
the verifier names. -/
theorem checkAudience_eq_ok_iff {registry : Registry m} {policy : Policy} {p : Payload} :
    checkAudience registry policy p = .ok () ↔
      ∀ b, p.audience = some b → registry.canResolve (Address.normalize b) = true →
        policy.audience = some (Address.normalize b) := by
  rw [checkAudience]
  cases p.audience with
  | none => simp
  | some b =>
    simp only [Option.some.injEq, forall_eq']
    cases registry.canResolve (Address.normalize b) with
    | false => simp
    | true =>
      cases policy.audience with
      | none => simp
      | some a =>
        -- the one case in which the two audiences are compared
        by_cases hab : a = Address.normalize b
        · simp [hab]
        · simp [hab]

/-- A verifier that names an audience does not accept a token that names another one, unless there is no
resolver for the other one. With a resolver for it, the stage of the audience fails by the mismatch, and the
token is refused without any resolver being asked. -/
theorem verify_audience {σ : Type} (clock : Clock) (registry : Registry (StateM σ)) {policy : Policy}
    {a : String} (ha : policy.audience = some a) (token : String) :
    (∀ {w w' : σ} {p : Payload} {b : String},
      (verify clock registry policy token).run w = (.ok p, w') → p.audience = some b →
        Address.normalize b = a
          ∨ ∀ did, Did.parse (Address.normalize b) = .ok did → registry.find? did.method = none)
    ∧ ∀ {p : Payload} {b : String} {did : Did} {resolver : Resolver (StateM σ)},
      payload? token = some p → p.audience = some b → Did.parse (Address.normalize b) = .ok did →
      registry.find? did.method = some resolver → Address.normalize b ≠ a →
        Stage.audience.fault? clock registry policy token
            = some (.audienceMismatch (Address.normalize b) a)
          ∧ ∃ e, verify clock registry policy token = pure (.error e) := by
  constructor
  · intro w w' p b h hb
    obtain ⟨checked, resolver, document, hplanned, -, hconclude⟩ := run_verify_eq_ok_iff.mp h
    obtain ⟨rfl, -⟩ := conclude_eq_ok_iff.mp hconclude
    refine or_iff_not_imp_left.mpr fun hne did hdid => ?_
    -- a resolver for it would have made the audience count
    cases hfind : registry.find? did.method with
    | none => rfl
    | some resolver =>
      have hcan := Registry.canResolve_eq_true_iff.mpr ⟨did, resolver, hdid, hfind⟩
      have haudience := checkAudience_eq_ok_iff.mp hplanned.audience b hb hcan
      rw [ha] at haudience
      exact absurd (Option.some.inj haudience).symm hne
  · intro p b did resolver hp hb hdid hfind hne
    have hcan := Registry.canResolve_eq_true_iff.mpr ⟨did, resolver, hdid, hfind⟩
    have hfault : Stage.audience.fault? clock registry policy token
        = some (.audienceMismatch (Address.normalize b) a) := by
      rw [Stage.fault?, hp, Option.bind_some, checkAudience, hb, ha]
      simp only [hcan, if_true, if_neg (Ne.symm hne)]
      rfl
    exact ⟨hfault, verify_of_fault? hfault⟩

set_option maxRecDepth 100000 in
/-- A token for one audience, before a verifier that names it and before one that names another. -/
theorem verify_audience_generator :
    let document := Document.ofPublicKey "did:x:y"
      "0279be667ef9dcbbac55a06295ce870b07029bfcdb2dce28d959f2815b16f81798"
    let registry : Registry (StateM Unit) := [("x", Resolver.fixed document)]
    let token := "eyJhbGciOiJFUzI1NksifQ.eyJpc3MiOiJkaWQ6eDp5IiwiYXVkIjoiZGlkOng6eiJ9."
      ++ "Zu5yfhir-yCEIUa_arMylDxIXxcC1F177qSIKN5H3HyvuIX6r_elfnw38GSbNPSxdJMeENVXo1t7_XIhDWJQ3g"
    (∃ p, (verify ⟨1000, 300⟩ registry { audience := some "did:x:z" } token).run () = (.ok p, ())
        ∧ p.audience = some "did:x:z"
        ∧ (Address.normalize "did:x:z" = "did:x:z" ∨ ∀ did,
          Did.parse (Address.normalize "did:x:z") = .ok did → registry.find? did.method = none))
      ∧ Stage.audience.fault? ⟨1000, 300⟩ registry { audience := some "did:x:v" } token
          = some (.audienceMismatch "did:x:z" "did:x:v")
      ∧ ∃ e, verify ⟨1000, 300⟩ registry { audience := some "did:x:v" } token = pure (.error e) := by
  intro document registry token
  have hpayload : (payload? token).map Payload.audience = some (some "did:x:z") := by decide +kernel
  obtain ⟨p, hp, haudience⟩ := Option.map_eq_some_iff.mp hpayload
  have hnormalize : Address.normalize "did:x:z" = "did:x:z" := by decide +kernel
  constructor
  · have hok : failure? ((verify ⟨1000, 300⟩ registry { audience := some "did:x:z" } token).run ()).1
        = none := by decide +kernel
    obtain ⟨q, hrun⟩ := run_eq_ok_of_failure? hok
    obtain ⟨checked, resolver, found, hplanned, -, hconclude⟩ := run_verify_eq_ok_iff.mp hrun
    obtain ⟨rfl, -⟩ := conclude_eq_ok_iff.mp hconclude
    have hq : checked.token.payload = p :=
      Option.some.inj ((payload?_of_decode hplanned.decoded).symm.trans hp)
    have hnamed : checked.token.payload.audience = some "did:x:z" := by rw [hq, haudience]
    exact ⟨_, hrun, hnamed, (verify_audience ⟨1000, 300⟩ registry rfl token).1 hrun hnamed⟩
  · have hparse : (Did.parse "did:x:z").toOption.map Did.method = some "x" := by decide +kernel
    cases hdid : Did.parse "did:x:z" with
    | error e => rw [hdid] at hparse; cases hparse
    | ok did =>
      rw [hdid] at hparse
      have hfind : registry.find? did.method = some (Resolver.fixed document) := by
        rw [Option.some.inj hparse]
        rfl
      have hother : ({ audience := some "did:x:v" } : Policy).audience = some "did:x:v" := rfl
      have hrefused := (verify_audience ⟨1000, 300⟩ registry hother token).2 hp haudience
        (hnormalize.symm ▸ hdid) hfind (by rw [hnormalize]; decide)
      rwa [hnormalize] at hrefused

set_option maxRecDepth 100000 in
/-- A verifier that names one audience accepts a token for another one, for which there is no resolver. -/
theorem verify_unresolvable_audience :
    let document := Document.ofPublicKey "did:x:y"
      "0279be667ef9dcbbac55a06295ce870b07029bfcdb2dce28d959f2815b16f81798"
    let registry : Registry (StateM Unit) := [("x", Resolver.fixed document)]
    let token := "eyJhbGciOiJFUzI1NksifQ.eyJpc3MiOiJkaWQ6eDp5IiwiYXVkIjoiZGlkOno6dyJ9."
      ++ "4tCq3bsnGsmbQ68M62BLMgCx4ParKaWRIXuISKbPPTIUcBpC4RCYZ0oBuSVlL4bN1WcnD_WOt0DNjOokZKUSMw"
    ((verify ⟨1000, 300⟩ registry { audience := some "did:x:v" } token).run ()).1.toOption.map
        Payload.audience = some (some "did:z:w")
      ∧ Address.normalize "did:z:w" ≠ "did:x:v" := by
  intro document registry token
  exact ⟨by decide +kernel, by decide +kernel⟩

end DidToken.Token
