import DidToken.Proofs.Token.Policy
/-!
# What counts of a resolved document

A verification takes from the document of the issuer its id and the materials of the keys that qualify.
Documents with the same id and the same materials lead to the same result, more materials never lead to a
refusal, and mute entries make no difference as long as there are others (`verify_materials`). The checks
before the document is resolved are the same for all registries with the same methods
(`plan_checked_congr`), so that the conclusions decide.
-/

namespace DidToken.Token

variable {σ : Type}

/-! ### Conclusions -/

/-- Of keys, a conclusion takes whether there are any and what they cover; of documents without keys, it takes
the id. -/
theorem conclude_congr {policy : Policy} {checked : Checked} {document other : Document}
    (hid : (document.verifyingKeys policy.authenticating).isEmpty = true → other.id = document.id)
    (hempty : (other.verifyingKeys policy.authenticating).isEmpty
      = (document.verifyingKeys policy.authenticating).isEmpty)
    (hcovers : KeyEntry.Covers (document.verifyingKeys policy.authenticating)
      (other.verifyingKeys policy.authenticating))
    (hcovers' : KeyEntry.Covers (other.verifyingKeys policy.authenticating)
      (document.verifyingKeys policy.authenticating)) :
    conclude policy checked other = conclude policy checked document := by
  cases hkeys : (document.verifyingKeys policy.authenticating).isEmpty with
  | true => rw [conclude_of_isEmpty (hempty.trans hkeys), conclude_of_isEmpty hkeys, hid hkeys]
  | false =>
    rw [conclude_of_keys (hempty.trans hkeys), conclude_of_keys hkeys,
      Signature.comesFrom_congr hcovers hcovers']

theorem conclude_of_materials_eq {policy : Policy} {checked : Checked} {document other : Document}
    (hid : other.id = document.id)
    (h : other.materials policy.authenticating = document.materials policy.authenticating) :
    conclude policy checked other = conclude policy checked document := by
  have hempty : (other.verifyingKeys policy.authenticating).isEmpty
      = (document.verifyingKeys policy.authenticating).isEmpty := by
    rw [Bool.eq_iff_iff, ← not_iff_not, Bool.not_eq_true, Bool.not_eq_true,
      Document.isEmpty_verifyingKeys_iff, Document.isEmpty_verifyingKeys_iff, h]
  exact conclude_congr (fun _ => hid) hempty (Document.covers_verifyingKeys_of_subset h.subset)
    (Document.covers_verifyingKeys_of_subset h.symm.subset)

theorem conclude_of_materials_subset {policy : Policy} {checked : Checked} {document other : Document}
    {p : Payload} (h : document.materials policy.authenticating ⊆ other.materials policy.authenticating)
    (hconclude : conclude policy checked document = .ok p) : conclude policy checked other = .ok p := by
  obtain ⟨hpayload, hcomes⟩ := conclude_eq_ok_iff.mp hconclude
  exact conclude_eq_ok_iff.mpr ⟨hpayload,
    Signature.comesFrom_of_covers (Document.covers_verifyingKeys_of_subset h) hcomes⟩

theorem conclude_of_mute {policy : Policy} {checked : Checked} {document other : Document}
    (hsome : (document.materials policy.authenticating).Nonempty)
    (h : document.materials policy.authenticating ⊆ other.materials policy.authenticating)
    (hmute : ∀ entry, other.Qualifies policy.authenticating entry →
      entry.IsMute ∨ entry.material ∈ document.materials policy.authenticating) :
    conclude policy checked other = conclude policy checked document := by
  have hkeys := Document.isEmpty_verifyingKeys_iff.mpr hsome
  have hkeys' := Document.isEmpty_verifyingKeys_iff.mpr (hsome.mono h)
  refine conclude_congr (fun hnone => ?_) (hkeys'.trans hkeys.symm) (Document.covers_verifyingKeys hmute)
    (Document.covers_verifyingKeys_of_subset h)
  rw [hkeys] at hnone
  cases hnone

/-! ### What is planned -/

/-- Registries with the same methods plan the same, except for the resolver. -/
theorem plan_checked_congr {m n : Type → Type} {registry : Registry m} {other : Registry n}
    (h : other.methods = registry.methods) (clock : Clock) (policy : Policy) (token : String) :
    (plan clock other policy token).map Prod.fst = (plan clock registry policy token).map Prod.fst := by
  have hfault : failure? (plan clock other policy token) = failure? (plan clock registry policy token) := by
    rw [failure?_plan, failure?_plan, firstFault?_congr h]
  cases hplan : plan clock registry policy token with
  | error e =>
    rw [hplan] at hfault
    rw [failure?_eq_some_iff.mp hfault]
    rfl
  | ok planned =>
    rw [hplan] at hfault
    obtain ⟨planned', hplan'⟩ := failure?_eq_none_iff.mp hfault
    have hchecked := (plan_eq_ok_iff.mp hplan).checked_eq (plan_eq_ok_iff.mp hplan')
    rw [hplan']
    exact congrArg Except.ok hchecked

/-- If the registry has a resolver for the issuer of a token, the resolver gives the document in the state
`w`. -/
def Gives (registry : Registry (StateM σ)) (token : String) (w : σ) (document : Document) : Prop :=
  ∀ p resolver, payload? token = some p →
    registry.resolverOf (Address.normalize p.issuer) = .ok resolver →
    ((resolver.resolve (Address.normalize p.issuer)).run w).1 = .ok document

theorem gives_fixed (method token : String) (w : σ) (document : Document) :
    Gives [(method, Resolver.fixed document)] token w document := by
  intro p resolver _ hresolver
  unfold Registry.resolverOf at hresolver
  split at hresolver
  · cases hresolver
  · next did _ =>
    split at hresolver
    · next found hfind =>
      rw [← Except.ok.inj hresolver, Assoc.eq_of_get?_singleton hfind]
      rfl
    · cases hresolver

/-- The result is concluded from the document. -/
theorem verify_of_gives {registry : Registry (StateM σ)} {token : String} {w : σ} {document : Document}
    (h : Gives registry token w document) (clock : Clock) (policy : Policy) :
    ((verify clock registry policy token).run w).1
      = (plan clock registry policy token).map Prod.fst >>= fun checked =>
          conclude policy checked document := by
  rw [verify_eq]
  cases hplan : plan clock registry policy token with
  | error e => rfl
  | ok planned =>
    obtain ⟨checked, resolver⟩ := planned
    have hplanned := plan_eq_ok_iff.mp hplan
    have hanswer : ((resolver.resolve checked.issuer).run w).1 = .ok document := by
      obtain ⟨did, hdid, hfind⟩ := hplanned.found
      rw [hplanned.issuer] at hdid ⊢
      refine h checked.token.payload resolver (payload?_of_decode hplanned.decoded) ?_
      rw [resolverOf_of_parse hdid, lookUp, hfind]
    show concluded policy checked ((resolver.resolve checked.issuer).run w).1 = _
    rw [hanswer]
    rfl

/-! ### Verification -/

/-- Let two registries with the same methods give documents for the issuer of a token. If the documents have
the same id and their qualifying entries the same materials, the results are the same. If the second one has
more materials, it leads to acceptance wherever the first one does. If it adds mute entries to some others,
the results are the same. -/
theorem verify_materials {registry other : Registry (StateM σ)} {token : String} {w w' : σ}
    {document document' : Document} (hmethods : other.methods = registry.methods)
    (hgives : Gives registry token w document) (hgives' : Gives other token w' document')
    (clock : Clock) (policy : Policy) :
    (document'.id = document.id →
      document'.materials policy.authenticating = document.materials policy.authenticating →
      ((verify clock other policy token).run w').1 = ((verify clock registry policy token).run w).1)
    ∧ (document.materials policy.authenticating ⊆ document'.materials policy.authenticating →
      ∀ p, ((verify clock registry policy token).run w).1 = .ok p →
        ((verify clock other policy token).run w').1 = .ok p)
    ∧ ((document.materials policy.authenticating).Nonempty →
      document.materials policy.authenticating ⊆ document'.materials policy.authenticating →
      (∀ entry, document'.Qualifies policy.authenticating entry →
        entry.IsMute ∨ entry.material ∈ document.materials policy.authenticating) →
      ((verify clock other policy token).run w').1 = ((verify clock registry policy token).run w).1) := by
  rw [verify_of_gives hgives, verify_of_gives hgives', plan_checked_congr hmethods]
  refine ⟨fun hid hsame => ?_, fun hsubset p hok => ?_, fun hsome hsubset hmute => ?_⟩
  · exact congrArg (_ >>= ·) (funext fun _ => conclude_of_materials_eq hid hsame)
  · obtain ⟨checked, hchecked, hconclude⟩ := bind_eq_ok_iff.mp hok
    exact bind_eq_ok_iff.mpr ⟨checked, hchecked, conclude_of_materials_subset hsubset hconclude⟩
  · exact congrArg (_ >>= ·) (funext fun _ => conclude_of_mute hsome hsubset hmute)

set_option maxRecDepth 100000 in
/-- A token that is accepted for a key is accepted for the same key listed twice with another owner, and for
the key next to one that cannot be read. -/
theorem verify_materials_generator :
    let document := Document.ofPublicKey "did:x:y"
      "0279be667ef9dcbbac55a06295ce870b07029bfcdb2dce28d959f2815b16f81798"
    let doubled : Document :=
      { document with
        keys := document.keys ++ document.keys.map fun entry => { entry with owner := "did:x:z" } }
    let padded : Document :=
      { document with keys := document.keys.map (fun entry => { entry with hex := some "zz" }) ++ document.keys }
    let registry (d : Document) : Registry (StateM Unit) := [("x", Resolver.fixed d)]
    let token := "eyJ0eXAiOiJKV1QiLCJhbGciOiJFUzI1NksifQ.eyJpYXQiOjEwMDAsImlzcyI6ImRpZDp4OnkifQ."
      ++ "wnH-ydJVgYvTKMHH4aATCKqHOITBk5m5rEpF6-kJXqPgR-zfDtLBXBvH5Bdh2fjJPaye43doJuOgj4lJLda7gQ"
    ∃ p, ((verify ⟨1000, 300⟩ (registry document) {} token).run ()).1 = .ok p
      ∧ ((verify ⟨1000, 300⟩ (registry doubled) {} token).run ()).1 = .ok p
      ∧ ((verify ⟨1000, 300⟩ (registry padded) {} token).run ()).1 = .ok p := by
  intro document doubled padded registry token
  have hok : failure? ((verify ⟨1000, 300⟩ (registry document) {} token).run ()).1 = none := by
    decide +kernel
  obtain ⟨p, hp⟩ := failure?_eq_none_iff.mp hok
  have hmethods : ∀ d, (registry d).methods = (registry document).methods := fun _ => rfl
  have hgives : ∀ d, Gives (registry d) token () d := gives_fixed "x" token ()
  have hsame : doubled.materials false = document.materials false := by
    ext x
    constructor
    · rintro ⟨entry, hentry, rfl⟩
      rcases List.mem_append.mp hentry.listed with hlisted | hcopied
      · exact ⟨entry, ⟨hlisted, hentry.keyType, nofun⟩, rfl⟩
      · obtain ⟨original, horiginal, rfl⟩ := List.mem_map.mp hcopied
        exact ⟨original, ⟨horiginal, hentry.keyType, nofun⟩, rfl⟩
    · rintro ⟨entry, hentry, rfl⟩
      exact ⟨entry, ⟨List.mem_append_left _ hentry.listed, hentry.keyType, nofun⟩, rfl⟩
  have hmute : ∀ entry, padded.Qualifies false entry →
      entry.IsMute ∨ entry.material ∈ document.materials false := by
    intro entry hentry
    rcases List.mem_append.mp hentry.listed with hunreadable | hlisted
    · obtain ⟨original, horiginal, rfl⟩ := List.mem_map.mp hunreadable
      rw [List.mem_singleton.mp horiginal]
      exact .inl ⟨rfl, rfl⟩
    · exact .inr ⟨entry, ⟨hlisted, hentry.keyType, nofun⟩, rfl⟩
  have hsubset : document.materials false ⊆ padded.materials false := by
    rintro _ ⟨entry, hentry, rfl⟩
    exact ⟨entry, ⟨List.mem_append_right _ hentry.listed, hentry.keyType, nofun⟩, rfl⟩
  have hsome : (document.materials false).Nonempty :=
    ⟨_, _, ⟨List.mem_singleton_self _, by decide, nofun⟩, rfl⟩
  obtain ⟨hdoubled, -⟩ :=
    verify_materials (hmethods doubled) (hgives document) (hgives doubled) ⟨1000, 300⟩ {}
  obtain ⟨-, -, hpadded⟩ :=
    verify_materials (hmethods padded) (hgives document) (hgives padded) ⟨1000, 300⟩ {}
  exact ⟨p, hp, (hdoubled rfl hsame).trans hp, (hpadded hsome hsubset hmute).trans hp⟩

end DidToken.Token
