import DidToken.Proofs.Assoc
import DidToken.Proofs.Token.Compact
import DidToken.Token.Verify
/-!
# Verification stage by stage

What can fail before a resolver is asked is told here stage by stage, each on its own (`Stage.fault?`),
and in which order the stages count (`Stage.order`). The checks of a verifier fail with the first of these
faults (`failure?_plan`), which depend on the methods of the registry but not on its resolvers
(`Stage.fault?_congr`). If no stage fails, verification is one call of one resolver and a conclusion from
its answer (`verify_eq`).
-/

namespace DidToken.Token

open Json

variable {m n : Type → Type}

/-! ### Stages -/

/-- What is looked at before a resolver is asked. -/
inductive Stage where
  | shape
  | header
  | payload
  | signature
  | times
  | algorithm
  | issuer
  | audience
  | method
deriving DecidableEq, Repr

/-- The stages in the order in which they count. -/
def Stage.order : List Stage :=
  [.shape, .header, .payload, .signature, .times, .algorithm, .issuer, .audience, .method]

/-- The segments of a token. -/
def segments? (token : String) : Option Segments :=
  (split token).toOption

/-- The header of a token. -/
def header? (token : String) : Option Header :=
  (segments? token).bind fun s => (decodeSegment .header Header.record.read s.header).toOption

/-- The typed payload of a token. -/
def payload? (token : String) : Option Payload :=
  (segments? token).bind fun s => (decodeSegment .payload Payload.record.readObject s.payload).toOption

/-- Checks the times of a payload unless they do not count. -/
def timely (clock : Clock) (policy : Policy) (p : Payload) : Except Error Unit :=
  if policy.ignoringTimes then .ok ()
  else checkTimes clock.now (policy.skew.getD clock.skew) p

/-- The resolver for the method of a DID. -/
def lookUp (registry : Registry m) (did : Did) : Except Error (Resolver m) :=
  match registry.find? did.method with
  | some resolver => .ok resolver
  | none => .error (.unsupportedMethod did.method)

/-- What a stage fails with. A stage that looks at a part of the token does not fail if there is no such
part; another stage does. -/
def Stage.fault? (clock : Clock) (registry : Registry m) (policy : Policy) (token : String) :
    Stage → Option Error
  | .shape => failure? (split token)
  | .header => (segments? token).bind fun s =>
    failure? (decodeSegment .header Header.record.read s.header)
  | .payload => (segments? token).bind fun s =>
    failure? (decodeSegment .payload Payload.record.readObject s.payload)
  | .signature => (segments? token).bind fun s => failure? (decodeBytes .signature s.signature)
  | .times => (payload? token).bind fun p =>
    failure? (timely clock policy p)
  | .algorithm => (header? token).bind fun h => failure? h.algorithm
  | .issuer => (payload? token).bind fun p =>
    (failure? (Did.parse (Address.normalize p.issuer))).map fun _ => .invalidIssuer p.issuer
  | .audience => (payload? token).bind fun p => failure? (checkAudience registry policy p)
  | .method => (payload? token).bind fun p =>
    (Did.parse (Address.normalize p.issuer)).toOption.bind fun did =>
      failure? (lookUp registry did)

/-- What a verification fails with before a resolver is asked. -/
def firstFault? (clock : Clock) (registry : Registry m) (policy : Policy) (token : String) :
    Option Error :=
  Stage.order.findSome? (Stage.fault? clock registry policy token)

/-! ### What the registry counts for -/

theorem contains_congr {registry : Registry m} {other : Registry n}
    (h : other.methods = registry.methods) (method : String) :
    other.contains method = registry.contains method := by
  rw [Bool.eq_iff_iff]
  show (Assoc.get? other method).isSome ↔ (Assoc.get? registry method).isSome
  rw [Assoc.get?_isSome_iff, Assoc.get?_isSome_iff]
  show method ∈ other.methods ↔ method ∈ registry.methods
  rw [h]

theorem checkAudience_congr {registry : Registry m} {other : Registry n}
    (h : other.methods = registry.methods) (policy : Policy) (p : Payload) :
    checkAudience other policy p = checkAudience registry policy p := by
  have hcan : ∀ text, other.canResolve text = registry.canResolve text := fun text => by
    rw [Registry.canResolve, Registry.canResolve]
    cases Did.parse text with
    | error e => rfl
    | ok did => exact contains_congr h did.method
  rw [checkAudience, checkAudience]
  simp only [hcan]

theorem failure?_lookUp (registry : Registry m) (did : Did) :
    failure? (lookUp registry did)
      = if registry.contains did.method then none else some (.unsupportedMethod did.method) := by
  have hcontains : registry.contains did.method = (registry.find? did.method).isSome := rfl
  rw [lookUp, hcontains]
  cases registry.find? did.method <;> rfl

/-- Resolvers do not count for what fails before they are asked. -/
theorem Stage.fault?_congr {registry : Registry m} {other : Registry n}
    (h : other.methods = registry.methods) (clock : Clock) (policy : Policy) (token : String)
    (stage : Stage) :
    stage.fault? clock other policy token = stage.fault? clock registry policy token := by
  cases stage with
  | audience => simp only [fault?, checkAudience_congr h]
  | method =>
    have hlookUp : ∀ did, failure? (lookUp other did) = failure? (lookUp registry did) := fun did => by
      have hcontains := contains_congr h did.method
      rw [failure?_lookUp, failure?_lookUp, hcontains]
    simp only [fault?, hlookUp]
  | _ => rfl

theorem firstFault?_congr {registry : Registry m} {other : Registry n}
    (h : other.methods = registry.methods) (clock : Clock) (policy : Policy) (token : String) :
    firstFault? clock other policy token = firstFault? clock registry policy token := by
  rw [firstFault?, firstFault?, funext (Stage.fault?_congr h clock policy token)]

/-! ### The plan of a verification -/

/-- The checks of a verification and the resolver it will ask. -/
def plan (clock : Clock) (registry : Registry m) (policy : Policy) (token : String) :
    Except Error (Checked × Resolver m) := do
  let checked ← check clock registry policy token
  let resolver ← registry.resolverOf checked.issuer
  return (checked, resolver)

theorem header?_of_decode {token : String} {d : Decoded Payload} (h : decode token = .ok d) :
    header? token = some d.header := by
  obtain ⟨s, hs, hheader, -⟩ := decodeWith_eq_ok_iff.mp h
  rw [header?, segments?, hs]
  show (decodeSegment .header Header.record.read s.header).toOption = _
  rw [hheader]
  rfl

theorem payload?_of_decode {token : String} {d : Decoded Payload} (h : decode token = .ok d) :
    payload? token = some d.payload := by
  obtain ⟨s, hs, -, hpayload, -⟩ := decodeWith_eq_ok_iff.mp h
  rw [payload?, segments?, hs]
  show (decodeSegment .payload Payload.record.readObject s.payload).toOption = _
  rw [hpayload]
  rfl

/-- The stages of decoding, one inside the other. -/
theorem failure?_decode (clock : Clock) (registry : Registry m) (policy : Policy) (token : String) :
    failure? (decode token)
      = [Stage.shape, .header, .payload, .signature].findSome?
          (Stage.fault? clock registry policy token) := by
  rw [decode, decodeWith]
  simp only [List.findSome?_cons, List.findSome?_nil, Stage.fault?, segments?]
  cases split token with
  | error e => rfl
  | ok s =>
    rw [ok_bind]
    simp only [Except.toOption, Option.bind_some, failure?_ok]
    cases decodeSegment .header Header.record.read s.header with
    | error e => rfl
    | ok header =>
      rw [ok_bind]
      cases decodeSegment .payload Payload.record.readObject s.payload with
      | error e => rfl
      | ok payload =>
        rw [ok_bind]
        cases decodeBytes .signature s.signature <;> rfl

/-- The plan of a token that is decoded, check by check. -/
def planOf (clock : Clock) (registry : Registry m) (policy : Policy) (d : Decoded Payload) :
    Except Error (Checked × Resolver m) :=
  let issuer := Address.normalize d.payload.issuer
  timely clock policy d.payload >>= fun _ =>
  d.header.algorithm >>= fun algorithm =>
  (Did.parse issuer).mapError (fun _ => .invalidIssuer d.payload.issuer) >>= fun did =>
  checkAudience registry policy d.payload >>= fun _ =>
  (lookUp registry did).map fun resolver => ({ token := d, algorithm, issuer }, resolver)

theorem resolverOf_of_parse {registry : Registry m} {text : String} {did : Did}
    (h : Did.parse text = .ok did) : registry.resolverOf text = lookUp registry did := by
  rw [Registry.resolverOf, h]
  rfl

/-- The checks of a token that is decoded, one after the other. -/
theorem check_eq (clock : Clock) (registry : Registry m) (policy : Policy) (token : String) :
    check clock registry policy token = decode token >>= fun d =>
      timely clock policy d.payload >>= fun _ =>
      d.header.algorithm >>= fun algorithm =>
      (Did.parse (Address.normalize d.payload.issuer)).mapError
        (fun _ => .invalidIssuer d.payload.issuer) >>= fun _ =>
      checkAudience registry policy d.payload >>= fun _ =>
      .ok { token := d, algorithm, issuer := Address.normalize d.payload.issuer } := by
  -- the optional check is one that passes where times are ignored
  have htimes : ∀ {α : Type} (ignoring : Bool) (x : Except Error Unit) (rest : Except Error α),
      (if !ignoring then x >>= fun _ => rest else rest)
        = (if ignoring then .ok () else x) >>= fun _ => rest := by
    intro α ignoring x rest
    cases ignoring <;> rfl
  rw [check]
  simp only [htimes]
  refine congrArg (decode token >>= ·) (funext fun d => ?_)
  rw [timely]
  refine congrArg (_ >>= ·) (funext fun _ => ?_)
  refine congrArg (d.header.algorithm >>= ·) (funext fun algorithm => ?_)
  cases Did.parse (Address.normalize d.payload.issuer) <;> rfl

theorem plan_eq (clock : Clock) (registry : Registry m) (policy : Policy) (token : String) :
    plan clock registry policy token = decode token >>= planOf clock registry policy := by
  rw [plan, check_eq]
  simp only [bind_assoc]
  refine congrArg (decode token >>= ·) (funext fun d => ?_)
  refine congrArg (timely clock policy d.payload >>= ·) (funext fun _ => ?_)
  refine congrArg (d.header.algorithm >>= ·) (funext fun algorithm => ?_)
  cases hparse : Did.parse (Address.normalize d.payload.issuer) with
  | error f => rfl
  | ok did =>
    simp only [mapError_ok, ok_bind]
    refine congrArg (checkAudience registry policy d.payload >>= ·) (funext fun _ => ?_)
    rw [resolverOf_of_parse hparse]
    cases lookUp registry did <;> rfl

/-- The stages of the claims. Each check is reached if those before it pass. -/
theorem failure?_planOf (clock : Clock) (registry : Registry m) (policy : Policy) {token : String}
    {d : Decoded Payload} (h : decode token = .ok d) :
    failure? (planOf clock registry policy d)
      = [Stage.times, .algorithm, .issuer, .audience, .method].findSome?
          (Stage.fault? clock registry policy token) := by
  rw [planOf]
  simp only [List.findSome?_cons, List.findSome?_nil, Stage.fault?, header?_of_decode h,
    payload?_of_decode h, Option.bind_some]
  -- down the chain: a check that fails ends both sides with its error
  cases timely clock policy d.payload with
  | error e => rfl
  | ok _ =>
    cases d.header.algorithm with
    | error e => rfl
    | ok algorithm =>
      cases Did.parse (Address.normalize d.payload.issuer) with
      | error f => rfl
      | ok did =>
        cases checkAudience registry policy d.payload with
        | error e => rfl
        | ok _ =>
          simp only [ok_bind, failure?_ok, mapError_ok, Except.toOption, Option.map_none,
            Option.bind_some]
          cases lookUp registry did <;> rfl

/-- The plan fails with the fault of the first stage that has one. -/
theorem failure?_plan (clock : Clock) (registry : Registry m) (policy : Policy) (token : String) :
    failure? (plan clock registry policy token) = firstFault? clock registry policy token := by
  have horder : Stage.order = [.shape, .header, .payload, .signature]
      ++ [.times, .algorithm, .issuer, .audience, .method] := rfl
  -- the stages of decoding decide alone if one of them fails
  rw [firstFault?, horder, List.findSome?_append, ← failure?_decode, plan_eq]
  cases hd : decode token with
  | error e => rfl
  | ok d =>
    rw [ok_bind, failure?_ok, Option.none_or]
    exact failure?_planOf clock registry policy hd

/-- What is known when a resolver is about to be asked. -/
structure Planned (clock : Clock) (registry : Registry m) (policy : Policy) (token : String)
    (checked : Checked) (resolver : Resolver m) : Prop where
  decoded : decode token = .ok checked.token
  timely : timely clock policy checked.token.payload = .ok ()
  algorithm : checked.token.header.algorithm = .ok checked.algorithm
  issuer : checked.issuer = Address.normalize checked.token.payload.issuer
  found : ∃ did, Did.parse checked.issuer = .ok did ∧ registry.find? did.method = some resolver
  audience : checkAudience registry policy checked.token.payload = .ok ()

theorem plan_eq_ok_iff {clock : Clock} {registry : Registry m} {policy : Policy} {token : String}
    {checked : Checked} {resolver : Resolver m} :
    plan clock registry policy token = .ok (checked, resolver)
      ↔ Planned clock registry policy token checked resolver := by
  rw [plan_eq]
  simp only [planOf, bind_eq_ok_iff, mapError_eq_ok_iff]
  constructor
  · rintro ⟨d, hd, _, htimely, algorithm, halgorithm, did, hdid, _, haudience, hlookUp⟩
    rw [lookUp] at hlookUp
    cases hfind : registry.find? did.method with
    | none => rw [hfind] at hlookUp; cases hlookUp
    | some found =>
      rw [hfind] at hlookUp
      cases hlookUp
      exact ⟨hd, htimely, halgorithm, rfl, ⟨did, hdid, hfind⟩, haudience⟩
  · rintro ⟨hd, htimely, halgorithm, hissuer, ⟨did, hdid, hfind⟩, haudience⟩
    rw [hissuer] at hdid
    refine ⟨checked.token, hd, (), htimely, checked.algorithm, halgorithm, did, hdid, (), haudience, ?_⟩
    rw [lookUp, hfind, ← hissuer]
    rfl

/-! ### Conclusions -/

/-- What comes of the answer of the resolver. -/
def concluded (policy : Policy) (checked : Checked) : Except String Document → Except Error Payload
  | .error cause => .error (.resolutionFailed checked.issuer cause)
  | .ok document => conclude policy checked document

/-- Verification carries out its plan. -/
theorem verify_eq [Monad m] [LawfulMonad m] (clock : Clock) (registry : Registry m) (policy : Policy)
    (token : String) :
    verify clock registry policy token
      = match plan clock registry policy token with
        | .error e => pure (.error e)
        | .ok (checked, resolver) =>
          concluded policy checked <$> resolver.resolve checked.issuer := by
  rw [verify, verifyAcross, plan]
  cases check clock registry policy token with
  | error e => rfl
  | ok checked =>
    simp only [ok_bind, Registry.resolve]
    cases registry.resolverOf checked.issuer with
    | error e => exact pure_bind _ _
    | ok resolver =>
      simp only [bind_assoc, pure_bind, ok_bind, map_eq_pure_bind]
      refine congrArg (resolver.resolve checked.issuer >>= ·) (funext fun answer => ?_)
      cases answer <;> rfl

theorem verify_of_plan [Monad m] [LawfulMonad m] {clock : Clock} {registry : Registry m}
    {policy : Policy} {token : String} {checked : Checked} {resolver : Resolver m}
    (h : plan clock registry policy token = .ok (checked, resolver)) :
    verify clock registry policy token
      = concluded policy checked <$> resolver.resolve checked.issuer := by
  rw [verify_eq, h]

/-- A token that a stage has a fault for is refused without any resolver being asked. -/
theorem verify_of_fault? [Monad m] [LawfulMonad m] {clock : Clock} {registry : Registry m}
    {policy : Policy} {token : String} {stage : Stage} {e : Error}
    (h : stage.fault? clock registry policy token = some e) :
    ∃ e', verify clock registry policy token = pure (.error e') := by
  rw [verify_eq]
  cases hplan : plan clock registry policy token with
  | error e' => exact ⟨e', rfl⟩
  | ok planned =>
    -- a plan has no fault in any stage
    have hfirst := (failure?_plan clock registry policy token).symm
    rw [hplan, failure?_ok, firstFault?, List.findSome?_eq_none_iff] at hfirst
    have hnone := hfirst stage (by cases stage <;> decide)
    rw [hnone] at h
    cases h

/-- What may come of a document. -/
inductive IsConclusion (p : Payload) (issuer : String) (document : Document) :
    Except Error Payload → Prop
  | accepted : IsConclusion p issuer document (.ok p)
  | noSuitableKeys : IsConclusion p issuer document (.error (.noSuitableKeys document.id))
  | malformedSignature (cause : Signature.Fault) :
    IsConclusion p issuer document (.error (.malformedSignature cause))
  | foreignSignature : IsConclusion p issuer document (.error (.foreignSignature issuer))

section

variable {policy : Policy} {checked : Checked} {document : Document}

theorem conclude_of_isEmpty (h : (document.verifyingKeys policy.authenticating).isEmpty = true) :
    conclude policy checked document = .error (.noSuitableKeys document.id) := by
  rw [conclude, suitableKeys, h]
  rfl

/-- Where there are keys, the attribution of the signature to them decides. -/
theorem conclude_of_keys (h : (document.verifyingKeys policy.authenticating).isEmpty = false) :
    conclude policy checked document
      = (Signature.comesFrom checked.algorithm (document.verifyingKeys policy.authenticating)
          checked.token.signature checked.token.signedData).mapError .malformedSignature >>= fun matched =>
        if matched then .ok checked.token.payload else .error (.foreignSignature checked.issuer) := by
  rw [conclude, suitableKeys, h, if_neg Bool.false_ne_true, ok_bind]
  cases Signature.comesFrom checked.algorithm (document.verifyingKeys policy.authenticating)
    checked.token.signature checked.token.signedData with
  | error cause => rfl
  | ok matched => cases matched <;> rfl

end

theorem isConclusion_conclude (policy : Policy) (checked : Checked) (document : Document) :
    IsConclusion checked.token.payload checked.issuer document (conclude policy checked document) := by
  cases hkeys : (document.verifyingKeys policy.authenticating).isEmpty with
  | true =>
    rw [conclude_of_isEmpty hkeys]
    exact .noSuitableKeys
  | false =>
    rw [conclude_of_keys hkeys]
    cases Signature.comesFrom checked.algorithm (document.verifyingKeys policy.authenticating)
      checked.token.signature checked.token.signedData with
    | error cause => exact .malformedSignature cause
    | ok matched =>
      cases matched with
      | false => exact .foreignSignature
      | true => exact .accepted

/-! ### The registry in a cell -/

/-- The two readings of the cell find the same registry, and the cell is left as it was. -/
theorem run_verifyShared [Monad m] [LawfulMonad m] (clock : Clock) (registry : Registry m)
    (policy : Policy) (token : String) :
    (verifyShared clock policy token).run registry
      = (fun r => (r, registry)) <$> verify clock registry policy token := by
  rw [verifyShared, verify, verifyAcross]
  simp only [StateT.run_bind, StateT.run_get, pure_bind]
  cases check clock registry policy token with
  | error e => simp only [StateT.run_pure, map_pure]
  | ok checked =>
    simp only [StateT.run_bind, StateT.run_get, pure_bind, StateT.run_lift, map_bind, bind_assoc]
    refine congrArg (registry.resolve checked.issuer >>= ·) (funext fun answer => ?_)
    cases answer <;> simp only [StateT.run_pure, map_pure]

/-! ### Fail fast -/

/-- The first stage that fails decides, whatever the resolvers of the registry would answer, and none is
asked. If no stage fails, the one resolver of the issuer's method is asked once, for the normalized
issuer: a failure of it is passed on, and only a document leads to any other result. The registry is what
it was. -/
theorem verify_failFast [Monad m] [LawfulMonad m] (clock : Clock) (registry : Registry m)
    (policy : Policy) (token : String) :
    (∀ e, firstFault? clock registry policy token = some e →
      ∀ {n : Type → Type} [Monad n] [LawfulMonad n] (other : Registry n),
        other.methods = registry.methods → verify clock other policy token = pure (.error e))
    ∧ (firstFault? clock registry policy token = none →
      ∃ p did resolver conclusion, payload? token = some p
        ∧ Did.parse (Address.normalize p.issuer) = .ok did
        ∧ registry.find? did.method = some resolver
        ∧ verify clock registry policy token
          = conclusion <$> resolver.resolve (Address.normalize p.issuer)
        ∧ (∀ cause, conclusion (.error cause)
          = .error (.resolutionFailed (Address.normalize p.issuer) cause))
        ∧ ∀ document, IsConclusion p (Address.normalize p.issuer) document (conclusion (.ok document)))
    ∧ (verifyShared clock policy token).run registry
      = (fun result => (result, registry)) <$> verify clock registry policy token := by
  refine ⟨fun e he n _ _ other hmethods => ?_, fun hnone => ?_,
    run_verifyShared clock registry policy token⟩
  · -- the fault is one of the other registry too, and its plan fails with it
    rw [← firstFault?_congr hmethods, ← failure?_plan, failure?_eq_some_iff] at he
    rw [verify_eq, he]
  · -- without a fault there is a plan, and verification carries it out
    rw [← failure?_plan, failure?_eq_none_iff] at hnone
    obtain ⟨⟨checked, resolver⟩, hplan⟩ := hnone
    have hverify := verify_of_plan hplan
    have hplanned := plan_eq_ok_iff.mp hplan
    have hconclude := isConclusion_conclude policy checked
    obtain ⟨did, hdid, hfind⟩ := hplanned.found
    rw [hplanned.issuer] at hdid hverify hconclude
    exact ⟨checked.token.payload, did, resolver, concluded policy checked,
      payload?_of_decode hplanned.decoded, hdid, hfind, hverify,
      fun cause => by rw [← hplanned.issuer]; rfl, hconclude⟩

/-- A resolver that counts its calls is called for a token that passes all stages, but not for a text that
is no token. -/
theorem verify_failFast_counted :
    let resolver : Resolver (StateM Nat) := (Resolver.failing "offline").observed (modify (· + 1))
    let registry : Registry (StateM Nat) := [("x", resolver)]
    let token := "eyJhbGciOiJFUzI1NksifQ.eyJpc3MiOiJkaWQ6eDp5In0.AQ"
    (verify ⟨1000, 300⟩ registry {} token).run 0
        = (.error (.resolutionFailed "did:x:y" "Could not resolve did:x:y: offline"), 1)
      ∧ (verify ⟨1000, 300⟩ registry {} "a.b").run 0 = (.error .segmentCount, 0) := by
  intro resolver registry token
  constructor
  · have hnone : firstFault? ⟨1000, 300⟩ registry {} token = none := by decide +kernel
    obtain ⟨p, did, found, conclusion, hp, hdid, hfound, hverify, hfailed, -⟩ :=
      (verify_failFast ⟨1000, 300⟩ registry {} token).2.1 hnone
    have hpayload : (payload? token).map Payload.issuer = some "did:x:y" := by decide +kernel
    rw [hp, Option.map_some, Option.some.injEq] at hpayload
    have hnormalize : Address.normalize "did:x:y" = "did:x:y" := by decide +kernel
    rw [hpayload, hnormalize] at hdid hverify hfailed
    have hmethod : (Did.parse "did:x:y").toOption.map Did.method = some "x" := by decide +kernel
    rw [hdid] at hmethod
    have hfind : registry.find? did.method = some resolver := by
      rw [Option.some.inj hmethod]
      rfl
    obtain rfl := Option.some.inj (hfound.symm.trans hfind)
    rw [hverify]
    show (conclusion (.error ("Could not resolve did:x:y: offline")), 1) = _
    rw [hfailed]
  · have hfault : firstFault? ⟨1000, 300⟩ registry {} "a.b" = some .segmentCount := by decide +kernel
    rw [(verify_failFast ⟨1000, 300⟩ registry {} "a.b").1 _ hfault registry rfl]
    rfl

end DidToken.Token
