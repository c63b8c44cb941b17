import DidToken.Proofs.Assoc
import DidToken.Proofs.Text.Blank
import DidToken.Registry
/-!
# What a registry holds

How registering and unregistering change what is found under a method (`find?_register`, `find?_unregister`),
and that the names of a registry stay distinct, trimmed and not empty (`Registry.IsWellNamed`). Resolving
delegates to what is found (`resolve_of_find?`), and whether a text can be resolved says that nothing goes
wrong before that (`canResolve_iff_run_resolve`).
-/

namespace DidToken

namespace Assoc

variable {β : Type}

theorem get?_erase_self (entries : Assoc β) (name : String) : get? (erase entries name) name = none :=
  get?_eq_none_iff.mpr (not_mem_keys_erase entries name)

theorem get?_erase_of_ne (entries : Assoc β) {name other : String} (h : other ≠ name) :
    get? (erase entries name) other = get? entries other := by
  induction entries with
  | nil => rfl
  | cons e rest ih =>
    unfold erase at ih ⊢
    by_cases hn : e.1 = name
    · -- the entry that goes is not the one that is looked for
      have hne : e.1 ≠ other := fun he => h (he ▸ hn)
      rw [List.filter_cons_of_neg (by simpa using hn), ih, get?, if_neg hne]
    · rw [List.filter_cons_of_pos (by simpa using hn), get?, get?, ih]

end Assoc

namespace Registry

variable {m : Type → Type} {registry : Registry m}

/-! ### Looking up -/

theorem find?_register (registry : Registry m) (name : String) (resolver : Resolver m) (method : String) :
    (registry.register name resolver).find? method
      = if Text.trim name = method ∧ method ≠ "" then some resolver else registry.find? method := by
  show Assoc.get? (if Text.trim name = "" then registry
    else Assoc.insert registry (Text.trim name) resolver) method = _
  by_cases hblank : Text.trim name = ""
  · rw [if_pos hblank, if_neg (fun h => h.2 (h.1 ▸ hblank))]
    rfl
  · rw [if_neg hblank]
    by_cases hname : Text.trim name = method
    · subst hname
      rw [Assoc.get?_insert_self, if_pos ⟨rfl, hblank⟩]
    · rw [Assoc.get?_insert_of_ne registry hname, if_neg (fun h => hname h.1)]
      rfl

theorem find?_unregister (registry : Registry m) (name method : String) :
    (registry.unregister name).find? method = if name = method then none else registry.find? method := by
  by_cases hname : name = method
  · subst hname
    rw [if_pos rfl]
    exact Assoc.get?_erase_self registry name
  · rw [if_neg hname]
    exact Assoc.get?_erase_of_ne registry (Ne.symm hname)

theorem mem_methods_iff {name : String} :
    name ∈ registry.methods ↔ ∃ resolver, registry.find? name = some resolver := by
  rw [← Option.isSome_iff_exists]
  exact (Assoc.get?_isSome_iff registry name).symm

/-! ### Names -/

/-- The names of a registry are distinct, trimmed and not empty. -/
structure IsWellNamed (registry : Registry m) : Prop where
  distinct : registry.methods.Nodup
  nonempty : ∀ name ∈ registry.methods, name ≠ ""
  trimmed : ∀ name ∈ registry.methods, Text.IsTrimmed name

theorem isWellNamed_empty : (empty : Registry m).IsWellNamed where
  distinct := List.nodup_nil
  nonempty := List.forall_mem_nil _
  trimmed := List.forall_mem_nil _

theorem IsWellNamed.register (h : registry.IsWellNamed) (name : String) (resolver : Resolver m) :
    (registry.register name resolver).IsWellNamed := by
  unfold Registry.register
  by_cases hblank : Text.trim name = ""
  · simpa only [hblank, if_true] using h
  simp only [if_neg hblank]
  have hmem : ∀ method ∈ Registry.methods (Assoc.insert registry (Text.trim name) resolver),
      method ∈ registry.methods ∨ method = Text.trim name := by
    intro method hm
    obtain ⟨e, he, rfl⟩ := List.mem_map.mp hm
    rcases Assoc.mem_insert he with he | rfl
    · exact Or.inl (List.mem_map_of_mem he)
    · exact Or.inr rfl
  refine ⟨Assoc.distinct_insert h.distinct _ _, fun method hm => ?_, fun method hm => ?_⟩
  · rcases hmem method hm with hm | rfl
    · exact h.nonempty method hm
    · exact hblank
  · rcases hmem method hm with hm | rfl
    · exact h.trimmed method hm
    · exact Text.isTrimmed_trim name

theorem IsWellNamed.unregister (h : registry.IsWellNamed) (name : String) :
    (registry.unregister name).IsWellNamed := by
  have hsub : ∀ method ∈ (registry.unregister name).methods, method ∈ registry.methods := by
    intro method hm
    obtain ⟨e, he, rfl⟩ := List.mem_map.mp hm
    exact List.mem_map_of_mem (Assoc.mem_of_mem_erase he)
  exact ⟨Assoc.distinct_erase h.distinct name, fun method hm => h.nonempty method (hsub method hm),
    fun method hm => h.trimmed method (hsub method hm)⟩

/-! ### Resolving -/

theorem canResolve_eq_true_iff {text : String} : registry.canResolve text = true ↔
    ∃ did resolver, Did.parse text = .ok did ∧ registry.find? did.method = some resolver := by
  unfold canResolve
  cases Did.parse text with
  | error e => simp
  | ok did =>
    show (registry.find? did.method).isSome = true ↔ _
    simp [Option.isSome_iff_exists]

section

variable [Monad m] {text : String} {did : Did}

theorem resolve_of_not_did {e : Did.Fault} (h : Did.parse text = .error e) :
    registry.resolve text = pure (.error (.invalidIssuer text)) := by
  rw [resolve, resolverOf, h]

theorem resolve_of_find?_eq_none (h : Did.parse text = .ok did) (hfind : registry.find? did.method = none) :
    registry.resolve text = pure (.error (.unsupportedMethod did.method)) := by
  rw [resolve, resolverOf, h]
  simp only [hfind]

/-- What is found is called, and what goes wrong then is a failure of the resolution. -/
theorem resolve_of_find? [LawfulMonad m] (h : Did.parse text = .ok did) {resolver : Resolver m}
    (hfind : registry.find? did.method = some resolver) :
    registry.resolve text
      = (fun answer => answer.mapError (.resolutionFailed text)) <$> resolver.resolve text := by
  rw [resolve, resolverOf, h, map_eq_pure_bind]
  simp only [hfind]

end

/-- A text can be resolved exactly if resolving it, in any world, fails neither because it is no DID nor
because there is no resolver for its method. -/
theorem canResolve_iff_run_resolve {σ : Type} {registry : Registry (StateM σ)} (text : String) (w : σ) :
    registry.canResolve text = true ↔
      ∀ e, ((registry.resolve text).run w).1 = .error e →
        (∀ issuer, e ≠ .invalidIssuer issuer) ∧ ∀ method, e ≠ .unsupportedMethod method := by
  rw [canResolve_eq_true_iff]
  constructor
  · rintro ⟨did, resolver, hdid, hfind⟩ e he
    rw [resolve_of_find? hdid hfind, StateT.run_map] at he
    change ((resolver.resolve text).run w).1.mapError _ = .error e at he
    cases hanswer : ((resolver.resolve text).run w).1 with
    | ok document => rw [hanswer] at he; cases he
    | error cause =>
      rw [hanswer] at he
      cases he
      exact ⟨nofun, nofun⟩
  · intro h
    cases hdid : Did.parse text with
    | error e =>
      rw [resolve_of_not_did hdid] at h
      exact absurd rfl ((h _ rfl).1 text)
    | ok did =>
      cases hfind : registry.find? did.method with
      | none =>
        rw [resolve_of_find?_eq_none hdid hfind] at h
        exact absurd rfl ((h _ rfl).2 did.method)
      | some resolver => exact ⟨did, resolver, rfl, hfind⟩

end Registry

end DidToken
