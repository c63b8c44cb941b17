import DidToken.Proofs.Token.Payload
/-!
# The claims of an issued token

Each of the three stamps of a token goes through the claims once: a claim that is given as `null` goes, any other
stays where it is, and one that is not given is appended (`complete_filter_append`). So at every point the
payload is a selection of the claims given, in their order, and then the stamps that were missing; at the end
it is `claims.filter (IsCarried lifetime)` and then the missing stamps in their own order
(`mergeClaims_eq_append_missing`).
-/

namespace DidToken.Token

open Json

/-! ### Which claims are carried -/

/-- The names of the claims that a token is stamped with. -/
def stampNames : List String :=
  ["iat", "exp", "iss"]

/-- A claim that is given goes into the token, unless it stands in the place of a stamp and is null, or is an
expiration of a token without end. -/
def IsCarried (lifetime : Int64) (e : String × Value) : Prop :=
  e.1 ∈ stampNames → e.2.isNull = false ∧ (e.1 = "exp" → ¬lifetime < 0)

instance (lifetime : Int64) : DecidablePred (IsCarried lifetime) :=
  fun _ => inferInstanceAs (Decidable (_ → _))

/-- The stamps that are not given as claims. -/
def missingStamps (now : UInt64) (issuer : String) (lifetime : Int64) (claims : RawPayload) : Object :=
  (stamps now issuer lifetime).filter fun e => e.1 ∉ Assoc.keys claims

/-! ### One stamp -/

/-- The stamp of this name, if there is no such claim. -/
def missing (claims : RawPayload) (name : String) (v : Value) : Object :=
  if name ∈ Assoc.keys claims then [] else [(name, v)]

/-- A claim of another name, or one that is not null. -/
abbrev Survives (name : String) (e : String × Value) : Prop :=
  e.1 = name → e.2.isNull = false

theorem complete_eq_append {claims : RawPayload} (h : Assoc.Distinct claims) (name : String) (v : Value) :
    complete claims name v = claims.filter (Survives name) ++ missing claims name v := by
  rw [complete, missing]
  cases hget : Assoc.get? claims name with
  | none =>
    have hnew : name ∉ Assoc.keys claims := Assoc.get?_eq_none_iff.mp hget
    have hall : claims.filter (Survives name) = claims :=
      List.filter_eq_self.mpr fun e he => decide_eq_true fun heq =>
        absurd (List.mem_map_of_mem he) (heq ▸ hnew)
    rw [if_neg hnew, hall]
    exact Assoc.insert_of_not_mem hnew v
  | some given =>
    have hmem : name ∈ Assoc.keys claims :=
      (Assoc.get?_isSome_iff claims name).mp (by rw [hget]; rfl)
    -- names are distinct, so the claim that was found is the only one of the name
    have hvalue : ∀ e ∈ claims, e.1 = name → e.2 = given := fun e he heq =>
      Option.some.inj ((Assoc.get?_of_mem h he).symm.trans (heq ▸ hget))
    rw [if_pos hmem, List.append_nil]
    by_cases hnull : given.isNull = true
    · simp only [hnull, if_true]
      refine List.filter_congr fun e he => decide_eq_decide.mpr ⟨fun hne heq => absurd heq hne, ?_⟩
      rintro hsurvives heq
      have := hsurvives heq
      rw [hvalue e he heq, hnull] at this
      cases this
    · simp only [hnull, Bool.false_eq_true, if_false]
      refine (List.filter_eq_self.mpr fun e he => decide_eq_true fun heq => ?_).symm
      rw [hvalue e he heq]
      exact Bool.eq_false_iff.mpr hnull

/-! ### A selection of the claims, and stamps -/

section

variable {claims : RawPayload} {p : String × Value → Prop} [DecidablePred p] {stamped : Object}
  {name : String}

/-- Completing by a stamp selects among the claims and appends to the stamps, as long as nothing was done to
claims of its name. -/
theorem complete_filter_append (h : Assoc.Distinct (claims.filter p ++ stamped))
    (hp : ∀ e : String × Value, e.1 = name → p e) (hnew : name ∉ Assoc.keys stamped) (v : Value) :
    complete (claims.filter p ++ stamped) name v
      = claims.filter (fun e => Survives name e ∧ p e) ++ (stamped ++ missing claims name v) := by
  have hstamped : stamped.filter (Survives name) = stamped :=
    List.filter_eq_self.mpr fun e he => decide_eq_true fun heq =>
      absurd (List.mem_map_of_mem he) (heq ▸ hnew)
  have hkeys : name ∈ Assoc.keys (claims.filter p ++ stamped) ↔ name ∈ Assoc.keys claims := by
    rw [Assoc.keys_append, List.mem_append, or_iff_left hnew]
    constructor
    · exact fun hmem => (List.filter_sublist.map Prod.fst).subset hmem
    · intro hmem
      obtain ⟨e, he, heq⟩ := List.mem_map.mp hmem
      exact List.mem_map.mpr ⟨e, List.mem_filter.mpr ⟨he, decide_eq_true (hp e heq)⟩, heq⟩
  rw [complete_eq_append h, List.filter_append, hstamped, List.filter_filter, List.append_assoc, missing,
    missing]
  simp only [hkeys, Bool.decide_and]

/-- Erasing selects among the claims, unless it is a stamp that goes. -/
theorem erase_filter_append (hnew : name ∉ Assoc.keys stamped) :
    Assoc.erase (claims.filter p ++ stamped) name
      = claims.filter (fun e => e.1 ≠ name ∧ p e) ++ stamped := by
  have hstamped : Assoc.erase stamped name = stamped := Assoc.erase_of_not_mem hnew
  unfold Assoc.erase at hstamped ⊢
  rw [List.filter_append, hstamped, List.filter_filter]
  simp only [Bool.decide_and]

end

/-! ### All stamps -/

theorem missingStamps_eq (now : UInt64) (issuer : String) (lifetime : Int64) (claims : RawPayload) :
    missingStamps now issuer lifetime claims
      = missing claims "iat" (.int (Integer.ofUInt64 now))
        ++ ((if lifetime < 0 then []
            else missing claims "exp" (.int (Integer.ofUInt64 (expiration now lifetime))))
          ++ missing claims "iss" (.str issuer)) := by
  have hone : ∀ (name : String) (v : Value),
      [(name, v)].filter (fun e => e.1 ∉ Assoc.keys claims) = missing claims name v := by
    intro name v
    rw [missing]
    by_cases h : name ∈ Assoc.keys claims <;> simp [h]
  rw [missingStamps, stamps, List.cons_append, ← List.singleton_append, List.filter_append,
    List.filter_append, hone, hone]
  by_cases hlifetime : lifetime < 0
  · rw [if_pos hlifetime, if_pos hlifetime, List.filter_nil]
  · rw [if_neg hlifetime, if_neg hlifetime, hone]

theorem not_mem_keys_missing {name other : String} (h : name ≠ other) (claims : RawPayload) (v : Value) :
    name ∉ Assoc.keys (missing claims other v) := by
  rw [missing]
  split
  · exact List.not_mem_nil
  · exact fun hmem => h (List.mem_singleton.mp hmem)

theorem isCarried_iff {lifetime : Int64} {e : String × Value} :
    IsCarried lifetime e
      ↔ Survives "iat" e ∧ (Survives "exp" e ∧ (e.1 = "exp" → ¬lifetime < 0)) ∧ Survives "iss" e := by
  simp only [IsCarried, stampNames, List.mem_cons, List.not_mem_nil, or_false]
  constructor
  · exact fun h => ⟨fun heq => (h (.inl heq)).1,
      ⟨fun heq => (h (.inr (.inl heq))).1, fun heq => (h (.inr (.inl heq))).2 heq⟩,
      fun heq => (h (.inr (.inr heq))).1⟩
  · rintro ⟨hiat, ⟨hexp, hlifetime⟩, hiss⟩ (heq | heq | heq)
    · exact ⟨hiat heq, hlifetime⟩
    · exact ⟨hexp heq, hlifetime⟩
    · exact ⟨hiss heq, hlifetime⟩

/-- The payload of a token is what is carried of the claims, and then the missing stamps. -/
theorem mergeClaims_eq_append_missing {claims : RawPayload} (h : Assoc.Distinct claims) (now : UInt64)
    (issuer : String) (lifetime : Int64) :
    mergeClaims now issuer lifetime claims
      = claims.filter (IsCarried lifetime) ++ missingStamps now issuer lifetime claims := by
  have hiat := complete_eq_append h "iat" (.int (Integer.ofUInt64 now))
  have hstamped := hiat ▸ distinct_complete h "iat" (.int (Integer.ofUInt64 now))
  have hexp := not_mem_keys_missing (by decide : "exp" ≠ "iat") claims (.int (Integer.ofUInt64 now))
  have hiss := not_mem_keys_missing (by decide : "iss" ≠ "iat") claims (.int (Integer.ofUInt64 now))
  have hne : ("iss" : String) ≠ "exp" := by decide
  rw [mergeClaims, missingStamps_eq, hiat]
  -- the step in the middle erases the expiration or completes by it
  by_cases hlifetime : lifetime < 0
  · have hlimited : Assoc.erase (claims.filter (Survives "iat") ++ _) "exp" = _ := erase_filter_append hexp
    have hdist := hlimited ▸ Assoc.distinct_erase hstamped "exp"
    simp only [if_pos hlifetime, hlimited]
    rw [complete_filter_append hdist (fun e heq => by simp [Survives, heq]) hiss]
    refine congrArg (· ++ _) (List.filter_congr fun e _ => decide_eq_decide.mpr ?_)
    rw [isCarried_iff]
    tauto
  · have hlimited := complete_filter_append hstamped (fun e heq => by simp [Survives, heq]) hexp
      (.int (Integer.ofUInt64 (expiration now lifetime)))
    have hdist := hlimited ▸ distinct_complete hstamped "exp"
      (.int (Integer.ofUInt64 (expiration now lifetime)))
    have hnew : "iss" ∉ Assoc.keys (missing claims "iat" (.int (Integer.ofUInt64 now))
        ++ missing claims "exp" (.int (Integer.ofUInt64 (expiration now lifetime)))) := by
      rw [Assoc.keys_append, List.mem_append, not_or]
      exact ⟨hiss, not_mem_keys_missing hne claims _⟩
    simp only [if_neg hlifetime, hlimited]
    rw [complete_filter_append hdist (fun e heq => by simp [Survives, heq]) hnew, List.append_assoc]
    refine congrArg (· ++ _) (List.filter_congr fun e _ => decide_eq_decide.mpr ?_)
    rw [isCarried_iff]
    tauto

theorem toNat_expiration_eq_min (now : UInt64) {lifetime : Int64} (h : ¬lifetime < 0) :
    ((expiration now lifetime).toNat : Int) = min (now.toNat + lifetime.toInt) (UInt64.size - 1) := by
  have hnonneg : 0 ≤ lifetime.toInt := by
    rw [Int64.lt_iff_toInt_lt] at h
    exact Int.not_lt.mp h
  have hsize : UInt64.size = 0x10000000000000000 := rfl
  rw [expiration, UInt64.toNat_ofNat']
  omega

/-! ### What the payload has and has not -/

theorem name_mem_of_mem_stamps {now : UInt64} {issuer : String} {lifetime : Int64} {e : String × Value}
    (h : e ∈ stamps now issuer lifetime) :
    e.1 ∈ stampNames ∧ (e.1 = "exp" → ¬lifetime < 0) := by
  rw [stamps, List.cons_append, List.mem_cons, List.mem_append, List.mem_singleton] at h
  rcases h with rfl | h | rfl
  · exact ⟨(by decide : "iat" ∈ stampNames), fun heq => absurd heq (by decide : "iat" ≠ "exp")⟩
  · split at h
    · cases h
    · next hlifetime =>
      cases List.mem_singleton.mp h
      exact ⟨(by decide : "exp" ∈ stampNames), fun _ => hlifetime⟩
  · exact ⟨(by decide : "iss" ∈ stampNames), fun heq => absurd heq (by decide : "iss" ≠ "exp")⟩

theorem mem_missingStamps_iff {now : UInt64} {issuer : String} {lifetime : Int64} {claims : RawPayload}
    {e : String × Value} :
    e ∈ missingStamps now issuer lifetime claims
      ↔ e ∈ stamps now issuer lifetime ∧ e.1 ∉ Assoc.keys claims := by
  rw [missingStamps, List.mem_filter, decide_eq_true_iff]

theorem filter_missingStamps (now : UInt64) (issuer : String) (lifetime : Int64) (claims : RawPayload) :
    (missingStamps now issuer lifetime claims).filter (fun e => e.1 ∉ stampNames) = [] :=
  List.filter_eq_nil_iff.mpr fun _ he hnot =>
    of_decide_eq_true hnot (name_mem_of_mem_stamps (mem_missingStamps_iff.mp he).1).1

theorem filter_isCarried (lifetime : Int64) (claims : RawPayload) :
    (claims.filter (IsCarried lifetime)).filter (fun e => e.1 ∉ stampNames)
      = claims.filter fun e => e.1 ∉ stampNames := by
  rw [List.filter_filter]
  refine List.filter_congr fun e _ => ?_
  rw [← Bool.decide_and]
  exact decide_eq_decide.mpr ⟨And.left, fun hnot => ⟨hnot, fun hmem => absurd hmem hnot⟩⟩

/-- How the payload of a token comes from the claims, which are a map. Its names are distinct, and the claims
of other names than those of the stamps are the ones given, in their order. As a whole it is the claims but
for those that are left out, in their order, and then the stamps that were not given, in the order `iat`,
`exp`, `iss`. A stamp that is given as null is absent, and the expiration is whenever the lifetime is
negative; otherwise the expiration that is appended ends with the largest clock reading. -/
theorem mergeClaims_carries {claims : RawPayload} (h : Assoc.Distinct claims) (now : UInt64)
    (issuer : String) (lifetime : Int64) :
    let merged := mergeClaims now issuer lifetime claims
    Assoc.Distinct merged
    ∧ merged.filter (fun e => e.1 ∉ stampNames) = claims.filter (fun e => e.1 ∉ stampNames)
    ∧ merged = claims.filter (IsCarried lifetime) ++ missingStamps now issuer lifetime claims
    ∧ (∀ name ∈ stampNames, Assoc.get? claims name = some .null → name ∉ Assoc.keys merged)
    ∧ (lifetime < 0 → "exp" ∉ Assoc.keys merged)
    ∧ (¬lifetime < 0 →
      ((expiration now lifetime).toNat : Int) = min (now.toNat + lifetime.toInt) (UInt64.size - 1)) := by
  intro merged
  have hparts := mergeClaims_eq_append_missing h now issuer lifetime
  -- a name of the payload is that of a claim that is carried, or of a stamp that was missing
  have hkeys : ∀ name ∈ Assoc.keys merged, (∃ e ∈ claims, e.1 = name ∧ IsCarried lifetime e)
      ∨ ∃ e ∈ missingStamps now issuer lifetime claims, e.1 = name := by
    intro name hname
    obtain ⟨e, he, heq⟩ := List.mem_map.mp hname
    rw [show merged = _ from hparts, List.mem_append, List.mem_filter, decide_eq_true_iff] at he
    exact he.imp (fun he => ⟨e, he.1, heq, he.2⟩) fun he => ⟨e, he, heq⟩
  refine ⟨distinct_mergeClaims h now issuer lifetime, ?_, hparts, ?_, ?_,
    toNat_expiration_eq_min now⟩
  · rw [show merged = _ from hparts, List.filter_append, filter_isCarried, filter_missingStamps,
      List.append_nil]
  · intro name hname hnull hmem
    rcases hkeys name hmem with ⟨e, he, rfl, hcarried⟩ | ⟨e, he, rfl⟩
    · have hvalue : e.2 = .null := Option.some.inj ((Assoc.get?_of_mem h he).symm.trans hnull)
      have := (hcarried hname).1
      rw [hvalue] at this
      cases this
    · have hgiven : e.1 ∈ Assoc.keys claims := (Assoc.get?_isSome_iff claims e.1).mp (by rw [hnull]; rfl)
      exact (mem_missingStamps_iff.mp he).2 hgiven
  · intro hlifetime hmem
    rcases hkeys "exp" hmem with ⟨e, -, heq, hcarried⟩ | ⟨e, he, heq⟩
    · exact (hcarried (heq ▸ by decide)).2 heq hlifetime
    · exact (name_mem_of_mem_stamps (mem_missingStamps_iff.mp he).1).2 heq hlifetime

/-- The issuer stays between two other claims, the expiration that is null goes, and the time of issue comes
last. -/
theorem mergeClaims_carries_issuer :
    let claims : RawPayload := [("b", .bool true), ("iss", .str "did:x:y"), ("exp", .null), ("a", .null)]
    Assoc.Distinct claims
    ∧ mergeClaims 1000 "did:ethr:0x1" 300 claims
      = [("b", .bool true), ("iss", .str "did:x:y"), ("a", .null),
        ("iat", .int (Integer.ofUInt64 1000))]
    ∧ "exp" ∉ Assoc.keys (mergeClaims 1000 "did:ethr:0x1" 300 claims) := by
  intro claims
  have hdist : Assoc.Distinct claims := (by decide : ["b", "iss", "exp", "a"].Nodup)
  obtain ⟨-, -, hparts, hnull, -, -⟩ := mergeClaims_carries hdist 1000 "did:ethr:0x1" 300
  exact ⟨hdist, hparts.trans rfl, hnull "exp" (by decide) rfl⟩

end DidToken.Token
