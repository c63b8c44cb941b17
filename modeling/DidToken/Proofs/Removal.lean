import DidToken.Proofs.Sharing
/-!
# Unregistering what was registered

A resolver is registered under a name freed of blanks and unregistered by exactly the name it has then. So
the trimmed name undoes a registration (`Registry.unregister_register`), while a name with blanks at its ends
is none that a registry has, and unregistering it does nothing (`Registry.IsWellNamed.unregister_of_trim_ne`).
`Store.unregister_after_register` puts together what a program sees of this.
-/

namespace DidToken

variable {m : Type → Type}

namespace Registry

variable {registry : Registry m} {name : String} {resolver : Resolver m}

/-! ### Names -/

theorem contains_iff : registry.contains name = true ↔ name ∈ registry.methods :=
  Assoc.get?_isSome_iff registry name

theorem contains_eq_false_iff : registry.contains name = false ↔ name ∉ registry.methods := by
  rw [← contains_iff, Bool.not_eq_true]

theorem mem_methods_register_self (registry : Registry m) (resolver : Resolver m)
    (hblank : Text.trim name ≠ "") : Text.trim name ∈ (registry.register name resolver).methods := by
  refine mem_methods_iff.mpr ⟨resolver, ?_⟩
  rw [find?_register, if_pos ⟨rfl, hblank⟩]

theorem mem_methods_unregister_iff {method : String} :
    method ∈ (registry.unregister name).methods ↔ method ∈ registry.methods ∧ method ≠ name := by
  rw [mem_methods_iff, mem_methods_iff, find?_unregister]
  by_cases hname : name = method
  · simp [hname]
  · simp [hname, Ne.symm hname]

/-! ### Undoing a registration -/

/-- Nothing of a registration is left, and what it replaced is gone as well. -/
theorem unregister_register (registry : Registry m) (name : String) (resolver : Resolver m) :
    (registry.register name resolver).unregister (Text.trim name) = registry.unregister (Text.trim name) := by
  rw [register]
  by_cases hblank : Text.trim name = ""
  · simp only [if_pos hblank]
  · simp only [if_neg hblank]
    exact Assoc.filter_insert_of_neg (p := fun other => other ≠ Text.trim name) registry (fun h => h rfl)
      resolver

/-- A name that is not trimmed is not there. -/
theorem IsWellNamed.not_mem_of_trim_ne (h : registry.IsWellNamed) (hname : Text.trim name ≠ name) :
    name ∉ registry.methods :=
  fun hmem => hname (Text.trim_eq_self_iff.mpr (h.trimmed name hmem))

theorem IsWellNamed.unregister_of_trim_ne (h : registry.IsWellNamed) (hname : Text.trim name ≠ name) :
    registry.unregister name = registry :=
  Assoc.erase_of_not_mem (h.not_mem_of_trim_ne hname)

/-! ### Resolving -/

theorem canResolve_eq_contains {text : String} {did : Did} (h : Did.parse text = .ok did) :
    registry.canResolve text = registry.contains did.method := by
  rw [canResolve, h]

section

variable [Monad m] {text : String} {did : Did} (h : Did.parse text = .ok did)
include h

theorem resolve_congr {other : Registry m} (hfind : registry.find? did.method = other.find? did.method) :
    registry.resolve text = other.resolve text := by
  rw [resolve, resolve, resolverOf, resolverOf, h]
  simp only [hfind]

theorem resolve_unregister_of_ne (hname : did.method ≠ name) :
    (registry.unregister name).resolve text = registry.resolve text := by
  refine resolve_congr h ?_
  rw [find?_unregister, if_neg (Ne.symm hname)]

theorem resolve_unregister_self (hname : did.method = name) :
    (registry.unregister name).resolve text = pure (.error (.unsupportedMethod name)) := by
  have hfind : (registry.unregister name).find? did.method = none := by
    rw [find?_unregister, if_pos hname.symm]
  rw [resolve_of_find?_eq_none h hfind, hname]

end

end Registry

namespace Store

theorem registryOf_change (s : Store m) (handle : Handle) (f : Registry m → Registry m) :
    (s.change handle f).registryOf handle = f (s.registryOf handle) :=
  if_pos rfl

/-- A resolver is registered under a name that is not blank, after any sequence of operations. Unregistering
the name without the blanks at its ends then tells that it was there, and undoes the registration: the methods
are those from before, without it, DIDs of the method are refused, and all others are resolved as before.
Unregistering the name itself, where it has blanks at its ends, tells that it was not there and leaves the
registration as it is, so that DIDs of the method are still delegated to the resolver. -/
theorem unregister_after_register {σ : Type} (ops : List (Op (StateM σ))) (handle : Handle) {name : String}
    (resolver : Resolver (StateM σ)) (hblank : Text.trim name ≠ "") :
    let before := start.after ops
    let registered := before.next (.register handle name resolver)
    let removed := (registered.next (.unregister handle (Text.trim name))).registryOf handle
    (registered.outcome (.unregister handle (Text.trim name)) = pure (.removed true)
      ∧ (∀ method, method ∈ removed.methods ↔
        method ∈ (before.registryOf handle).methods ∧ method ≠ Text.trim name)
      ∧ ∀ text did, Did.parse text = .ok did →
        (did.method = Text.trim name → removed.canResolve text = false
          ∧ removed.resolve text = pure (.error (.unsupportedMethod did.method)))
        ∧ (did.method ≠ Text.trim name → removed.resolve text = (before.registryOf handle).resolve text))
    ∧ (Text.trim name ≠ name →
      registered.outcome (.unregister handle name) = pure (.removed false)
      ∧ registered.next (.unregister handle name) = registered
      ∧ Text.trim name ∈ (registered.registryOf handle).methods
      ∧ ∀ text did, Did.parse text = .ok did → did.method = Text.trim name →
        (registered.registryOf handle).resolve text
          = (fun answer => answer.mapError (.resolutionFailed text)) <$> resolver.resolve text) := by
  intro before registered removed
  have hregistered : registered.registryOf handle = (before.registryOf handle).register name resolver :=
    registryOf_change before handle (·.register name resolver)
  have hwellNamed : (registered.registryOf handle).IsWellNamed := by
    rw [hregistered]
    exact (registryOf_after ops handle).wellNamed.register name resolver
  have hmem : Text.trim name ∈ (registered.registryOf handle).methods := by
    rw [hregistered]
    exact Registry.mem_methods_register_self _ resolver hblank
  have hremoved : removed = (before.registryOf handle).unregister (Text.trim name) := by
    show (registered.change handle (·.unregister (Text.trim name))).registryOf handle = _
    rw [registryOf_change, hregistered, Registry.unregister_register]
  refine ⟨⟨?_, fun method => ?_, fun text did hdid => ⟨fun hmethod => ⟨?_, ?_⟩, fun hmethod => ?_⟩⟩,
    fun hname => ⟨?_, ?_, hmem, fun text did hdid hmethod => ?_⟩⟩
  · rw [outcome, Registry.contains_iff.mpr hmem]
  · rw [hremoved]
    exact Registry.mem_methods_unregister_iff
  · rw [Registry.canResolve_eq_contains hdid, Registry.contains_eq_false_iff, hremoved,
      Registry.mem_methods_unregister_iff]
    exact fun h => h.2 hmethod
  · rw [hremoved, Registry.resolve_unregister_self hdid hmethod, hmethod]
  · rw [hremoved]
    exact Registry.resolve_unregister_of_ne hdid hmethod
  · rw [outcome, Registry.contains_eq_false_iff.mpr (hwellNamed.not_mem_of_trim_ne hname)]
  · exact change_eq_self (hwellNamed.unregister_of_trim_ne hname)
  · have hfind : (registered.registryOf handle).find? did.method = some resolver := by
      rw [hregistered, hmethod, Registry.find?_register, if_pos ⟨rfl, hblank⟩]
    exact Registry.resolve_of_find? hdid hfind

/-- A name with blanks around it. -/
theorem unregister_after_register_blanks :
    let resolver : Resolver (StateM Unit) := .failing "offline"
    let registered := start.next (.register 0 " x " resolver)
    Text.trim " x " ≠ "" ∧ Text.trim " x " ≠ " x "
      ∧ registered.outcome (.unregister 0 "x") = pure (.removed true)
      ∧ registered.outcome (.unregister 0 " x ") = pure (.removed false)
      ∧ registered.next (.unregister 0 " x ") = registered := by
  intro resolver registered
  have hblank : Text.trim " x " ≠ "" := by decide
  have hname : Text.trim " x " ≠ " x " := by decide
  have htrim : Text.trim " x " = "x" := by decide
  obtain ⟨⟨hremoved, -⟩, huntrimmed⟩ := unregister_after_register [] 0 resolver hblank
  obtain ⟨hkept, hsame, -⟩ := huntrimmed hname
  rw [htrim] at hremoved
  exact ⟨hblank, hname, hremoved, hkept, hsame⟩

/-- Unregistering the name that was registered leaves the resolver where it is. -/
theorem unregister_padded :
    let resolver : Resolver (StateM Unit) := .failing "offline"
    let registered := start.next (.register 0 " x " resolver)
    let removed := (registered.next (.unregister 0 " x ")).registryOf 0
    Text.trim " x " ≠ "" ∧ registered.outcome (.unregister 0 " x ") = pure (.removed false)
      ∧ removed.methods = ["x"] ∧ removed.canResolve "did:x:y" = true := by
  intro resolver registered removed
  have hcontains : (registered.registryOf 0).contains " x " = false := by decide
  refine ⟨by decide, ?_, by decide, by decide⟩
  rw [outcome, hcontains]

end Store

end DidToken
