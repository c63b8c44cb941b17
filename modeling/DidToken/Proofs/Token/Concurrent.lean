import DidToken.Proofs.Sharing
import DidToken.Proofs.Token.Audience
/-!
# Verification while the registry changes

A verification reads the registry twice: it judges the audience by one state and looks up the resolver of the
issuer in a later one. What it gives is what it would have given in a single state, unless the audience of the
token came to count in between (`Unforeseen`): then the result is the one that a verifier who names the
audience gets in the later state (`verifyAcross_states`). No single state need give that result
(`verifyAcross_unforeseen`).
-/

namespace DidToken

variable {m : Type → Type}

/-- The states that a registry goes through as it is written to, ends included. -/
def Registry.states (registry : Registry m) (writes : List (Write m)) : List (Registry m) :=
  writes.scanl Write.apply registry

theorem Registry.self_mem_states (registry : Registry m) (writes : List (Write m)) :
    registry ∈ registry.states writes := by
  cases writes with
  | nil => exact List.mem_singleton_self registry
  | cons w rest =>
    rw [states, List.scanl_cons]
    exact List.mem_cons_self ..

theorem Registry.foldl_mem_states (registry : Registry m) (writes : List (Write m)) :
    writes.foldl Write.apply registry ∈ registry.states writes := by
  induction writes generalizing registry with
  | nil => exact List.mem_singleton_self registry
  | cons w rest ih =>
    rw [states, List.scanl_cons]
    exact List.mem_cons_of_mem _ (ih (w.apply registry))

namespace Token

/-! ### What the two reads count for -/

/-- The checks depend on the registry by the audience alone. -/
theorem check_congr {clock : Clock} {first other : Registry m} {policy named : Policy} {token : String}
    (htimes : named.ignoringTimes = policy.ignoringTimes) (hskew : named.skew = policy.skew)
    (haudience : ∀ p, payload? token = some p →
      checkAudience first policy p = checkAudience other named p) :
    check clock first policy token = check clock other named token := by
  rw [check, check]
  cases hdecode : decode token with
  | error e => rfl
  | ok d => simp only [ok_bind, haudience d.payload (payload?_of_decode hdecode), htimes, hskew]

theorem conclude_eq_of_authenticating_eq {policy named : Policy}
    (h : named.authenticating = policy.authenticating) (checked : Checked) (document : Document) :
    conclude named checked document = conclude policy checked document := by
  rw [conclude, conclude, h]

/-- After the checks, only the resolver of the issuer counts. -/
theorem verifyAcross_congr [Monad m] {clock : Clock} {first second first' second' : Registry m}
    {policy named : Policy} {token : String}
    (hcheck : check clock first policy token = check clock first' named token)
    (hresolver : ∀ checked, check clock first policy token = .ok checked →
      second.resolverOf checked.issuer = second'.resolverOf checked.issuer)
    (hauthenticating : named.authenticating = policy.authenticating) :
    verifyAcross clock first second policy token = verifyAcross clock first' second' named token := by
  rw [verifyAcross, verifyAcross, ← hcheck]
  cases hchecked : check clock first policy token with
  | error e => rfl
  | ok checked =>
    simp only [Registry.resolve, hresolver checked hchecked,
      conclude_eq_of_authenticating_eq hauthenticating]

/-- Where the checks fail, no resolver is looked up. -/
theorem verifyAcross_of_check [Monad m] {clock : Clock} {first second : Registry m} {policy : Policy}
    {token : String} {e : Error} (h : check clock first policy token = .error e) :
    verifyAcross clock first second policy token = pure (.error e) := by
  rw [verifyAcross, h]

/-! ### Single states -/

/-- The audience of the token counts in the second state but not in the first, and the verifier names another
one or none. -/
structure Unforeseen (first second : Registry m) (policy : Policy) (audience : String) : Prop where
  before : first.canResolve audience = false
  after : second.canResolve audience = true
  unnamed : policy.audience ≠ some audience

/-- The audience is judged alike in both states, or it fails in the first, or it was unforeseen. -/
theorem checkAudience_cases (first second : Registry m) (policy : Policy) (p : Payload) :
    checkAudience first policy p = checkAudience second policy p
      ∨ (∃ e, checkAudience first policy p = .error e)
      ∨ ∃ b, p.audience = some b ∧ Unforeseen first second policy (Address.normalize b) := by
  cases hfirst : checkAudience first policy p with
  | error e => exact Or.inr (Or.inl ⟨e, rfl⟩)
  | ok _ =>
    cases hsecond : checkAudience second policy p with
    | ok _ => exact Or.inl rfl
    | error e =>
      -- the second state alone asks for the audience
      have hnot : ¬checkAudience second policy p = .ok () := by
        rw [hsecond]
        nofun
      rw [checkAudience_eq_ok_iff] at hnot hfirst
      push Not at hnot
      obtain ⟨b, hb, hcan, hnamed⟩ := hnot
      refine Or.inr (Or.inr ⟨b, hb, ⟨?_, hcan, hnamed⟩⟩)
      cases hbefore : first.canResolve (Address.normalize b) with
      | false => rfl
      | true => exact absurd (hfirst b hb hbefore) hnamed

/-- A text that passes the checks is decoded, and its audience passes. -/
theorem decode_of_check {clock : Clock} {registry : Registry m} {policy : Policy} {token : String}
    {checked : Checked} (h : check clock registry policy token = .ok checked) :
    decode token = .ok checked.token
      ∧ checkAudience registry policy checked.token.payload = .ok () := by
  rw [check_eq] at h
  simp only [bind_eq_ok_iff] at h
  obtain ⟨d, hd, _, -, algorithm, -, did, -, _, haudience, hchecked⟩ := h
  cases hchecked
  exact ⟨hd, haudience⟩

/-- A failure of the checks is what verification gives in the first state. -/
theorem verifyAcross_of_check_eq_error [Monad m] {clock : Clock} {first second : Registry m}
    {policy : Policy} {token : String} {e : Error} (h : check clock first policy token = .error e) :
    verifyAcross clock first second policy token = verify clock first policy token := by
  rw [verify, verifyAcross_of_check h, verifyAcross_of_check h]

/-- In a state that judges the audience as the first one did and looks up the issuer as the second one does,
verification gives what it gives across the two. -/
theorem verifyAcross_eq_verify [Monad m] {clock : Clock} {first second state : Registry m}
    {policy : Policy} {token : String} {checked : Checked}
    (hchecked : check clock first policy token = .ok checked)
    (haudience : checkAudience state policy checked.token.payload = .ok ())
    (hresolver : state.resolverOf checked.issuer = second.resolverOf checked.issuer) :
    verifyAcross clock first second policy token = verify clock state policy token := by
  obtain ⟨hdecode, hfirst⟩ := decode_of_check hchecked
  refine verifyAcross_congr (check_congr rfl rfl fun p hp => ?_) (fun checked' hchecked' => ?_) rfl
  · rw [payload?_of_decode hdecode] at hp
    cases hp
    rw [hfirst, haudience]
  · rw [hchecked] at hchecked'
    cases hchecked'
    exact hresolver.symm

/-- An audience that the first state let pass is let pass by the second one if the verifier names it. -/
theorem verifyAcross_eq_verify_naming [Monad m] {clock : Clock} {first second : Registry m}
    {policy : Policy} {token : String} {checked : Checked} {b : String}
    (hchecked : check clock first policy token = .ok checked)
    (hb : checked.token.payload.audience = some b) :
    verifyAcross clock first second policy token
      = verify clock second (policy.naming (Address.normalize b)) token := by
  obtain ⟨hdecode, hfirst⟩ := decode_of_check hchecked
  refine verifyAcross_congr (check_congr rfl rfl fun p hp => ?_) (fun _ _ => rfl) rfl
  rw [payload?_of_decode hdecode] at hp
  cases hp
  rw [hfirst, eq_comm, checkAudience_eq_ok_iff]
  intro b' hb' _
  rw [hb] at hb'
  cases hb'
  rfl

/-- Verification whose two reads are some writes apart gives what it gives in one of the states that the
registry went through. The exception is a token for an audience that counts only after the writes, that the
verifier does not name and that counted in each state with the later resolver of the issuer: then the result
is the one of a verifier who names that audience after the writes. -/
theorem verifyAcross_states [Monad m] (clock : Clock) (registry : Registry m) (writes : List (Write m))
    (policy : Policy) (token : String) :
    let last := writes.foldl Write.apply registry
    (∃ state ∈ registry.states writes,
        verifyAcross clock registry last policy token = verify clock state policy token)
      ∨ ∃ checked b, check clock registry policy token = .ok checked
        ∧ checked.token.payload.audience = some b
        ∧ Unforeseen registry last policy (Address.normalize b)
        ∧ (∀ state ∈ registry.states writes, state.canResolve (Address.normalize b) = false →
          state.resolverOf checked.issuer ≠ last.resolverOf checked.issuer)
        ∧ verifyAcross clock registry last policy token
          = verify clock last (policy.naming (Address.normalize b)) token := by
  intro last
  cases hcheck : check clock registry policy token with
  | error e =>
    exact Or.inl ⟨registry, registry.self_mem_states writes, verifyAcross_of_check_eq_error hcheck⟩
  | ok checked =>
    obtain ⟨-, hfirst⟩ := decode_of_check hcheck
    obtain hsame | ⟨e, hfailed⟩ | ⟨b, hb, hunforeseen⟩ :=
      checkAudience_cases registry last policy checked.token.payload
    · rw [hfirst] at hsame
      exact Or.inl ⟨last, registry.foldl_mem_states writes,
        verifyAcross_eq_verify hcheck hsame.symm rfl⟩
    · rw [hfirst] at hfailed
      cases hfailed
    · -- a state in which the audience does not count yet will do if it has the resolver already
      by_cases hstate : ∃ state ∈ registry.states writes,
          state.canResolve (Address.normalize b) = false
            ∧ state.resolverOf checked.issuer = last.resolverOf checked.issuer
      · obtain ⟨state, hmem, hcan, hresolver⟩ := hstate
        have haudience : checkAudience state policy checked.token.payload = .ok () := by
          rw [checkAudience_eq_ok_iff]
          intro b' hb' hcan'
          rw [hb] at hb'
          cases hb'
          rw [hcan] at hcan'
          cases hcan'
        exact Or.inl ⟨state, hmem, verifyAcross_eq_verify hcheck haudience hresolver⟩
      · push Not at hstate
        exact Or.inr ⟨checked, b, rfl, hb, hunforeseen, hstate,
          verifyAcross_eq_verify_naming hcheck hb⟩

set_option maxRecDepth 100000 in
/-- The issuer and the audience have the same method. It is registered between the two reads, and the token
is accepted, although there is no resolver for its issuer before and the audience is asked for after. -/
theorem verifyAcross_unforeseen :
    let document := Document.ofPublicKey "did:x:y"
      "0279be667ef9dcbbac55a06295ce870b07029bfcdb2dce28d959f2815b16f81798"
    let writes : List (Write (StateM Unit)) := [.register "x" (Resolver.fixed document)]
    let first : Registry (StateM Unit) := Registry.empty
    let last := writes.foldl Write.apply first
    let token := "eyJhbGciOiJFUzI1NksifQ.eyJpc3MiOiJkaWQ6eDp5IiwiYXVkIjoiZGlkOng6eiJ9."
      ++ "Zu5yfhir-yCEIUa_arMylDxIXxcC1F177qSIKN5H3HyvuIX6r_elfnw38GSbNPSxdJMeENVXo1t7_XIhDWJQ3g"
    (∃ p, (verifyAcross ⟨1000, 300⟩ first last {} token).run () = (.ok p, ()))
      ∧ (verify ⟨1000, 300⟩ first {} token).run () = (.error (.unsupportedMethod "x"), ())
      ∧ (verify ⟨1000, 300⟩ last {} token).run () = (.error (.audienceRequired "did:x:z"), ())
      ∧ ∀ state ∈ first.states writes,
        verifyAcross ⟨1000, 300⟩ first last {} token ≠ verify ⟨1000, 300⟩ state {} token := by
  intro document writes first last token
  have haccepted : failure? ((verifyAcross ⟨1000, 300⟩ first last {} token).run ()).1 = none := by
    decide +kernel
  obtain ⟨p, hp⟩ := run_eq_ok_of_failure? haccepted
  have hfirst : (verify ⟨1000, 300⟩ first {} token).run ()
      = (.error (.unsupportedMethod "x"), ()) := by
    refine run_eq_error_of_failure? ?_
    decide +kernel
  have hlast : (verify ⟨1000, 300⟩ last {} token).run ()
      = (.error (.audienceRequired "did:x:z"), ()) := by
    refine run_eq_error_of_failure? ?_
    decide +kernel
  refine ⟨⟨p, hp⟩, hfirst, hlast, fun state hstate heq => ?_⟩
  have hrun := congrArg (StateT.run · ()) heq
  have hstates : first.states writes = [first, last] := rfl
  rw [hstates] at hstate
  simp only [List.mem_cons, List.not_mem_nil, or_false] at hstate
  obtain rfl | rfl := hstate
  · rw [hp, hfirst] at hrun
    cases hrun
  · rw [hp, hlast] at hrun
    cases hrun

end Token
end DidToken
