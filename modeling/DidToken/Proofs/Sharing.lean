import DidToken.Proofs.Registry
import DidToken.Sharing
/-!
# Shared registries are last-writer-wins maps

What is done through any handle of a registry is written to its history, and whatever the program does, the
registry is the last-writer-wins map of that history (`registryOf_after`): under a method it has the resolver
that was registered for it last, unless the method was unregistered since (`IsLatest`). One write is
followed by one step of the map (`IsMapOf.write`), and one operation writes at most once to a registry
(`registry_next`). `lastWriterWins` puts together what a program can observe of this.
-/

namespace DidToken

variable {m : Type → Type}

/-! ### Histories -/

/-- A change of one registry. -/
inductive Write (m : Type → Type) where
  | register (name : String) (resolver : Resolver m)
  | unregister (name : String)

namespace Write

/-- Whether the write is about a method: names are trimmed when they are registered, and only then. -/
def Concerns (method : String) : Write m → Prop
  | .register name _ => Text.trim name = method
  | .unregister name => name = method

/-- What the write makes of a registry. -/
def apply (registry : Registry m) : Write m → Registry m
  | .register name resolver => registry.register name resolver
  | .unregister name => registry.unregister name

end Write

/-- The last write that concerns a method registers this resolver for it. -/
def IsLatest (history : List (Write m)) (method : String) (resolver : Resolver m) : Prop :=
  method ≠ "" ∧ ∃ before name later, history = before ++ .register name resolver :: later
    ∧ Text.trim name = method ∧ ∀ w ∈ later, ¬w.Concerns method

/-- The last write decides if it concerns the method. -/
theorem isLatest_concat_iff {history : List (Write m)} {w : Write m} {method : String}
    {resolver : Resolver m} :
    IsLatest (history ++ [w]) method resolver ↔
      (method ≠ "" ∧ ∃ name, w = .register name resolver ∧ Text.trim name = method)
        ∨ (¬w.Concerns method ∧ IsLatest history method resolver) := by
  constructor
  · rintro ⟨hne, before, name, later, hsplit, hname, hlater⟩
    rcases List.eq_nil_or_concat later with rfl | ⟨init, last, rfl⟩
    · obtain ⟨-, hw⟩ := List.append_inj' hsplit rfl
      exact Or.inl ⟨hne, name, List.head_eq_of_cons_eq hw, hname⟩
    · -- then the write comes after the one that decides
      rw [List.concat_eq_append, ← List.cons_append, ← List.append_assoc] at hsplit
      obtain ⟨hhistory, hw⟩ := List.append_inj' hsplit rfl
      obtain rfl := List.head_eq_of_cons_eq hw
      refine Or.inr ⟨hlater w (by simp), hne, before, name, init, hhistory, hname, fun u hu => ?_⟩
      exact hlater u (by simp [hu])
  · rintro (⟨hne, name, rfl, hname⟩ | ⟨hw, hne, before, name, later, rfl, hname, hlater⟩)
    · exact ⟨hne, history, name, [], rfl, hname, List.forall_mem_nil _⟩
    · refine ⟨hne, before, name, later ++ [w], by simp, hname, fun u hu => ?_⟩
      rcases List.mem_append.mp hu with hu | hu
      · exact hlater u hu
      · rwa [List.mem_singleton.mp hu]

/-! ### Last writer wins -/

/-- The registry holds what its history says. -/
structure IsMapOf (registry : Registry m) (history : List (Write m)) : Prop where
  wellNamed : registry.IsWellNamed
  find? : ∀ method resolver, registry.find? method = some resolver ↔ IsLatest history method resolver

variable {registry : Registry m} {history : List (Write m)}

theorem isMapOf_empty : IsMapOf (Registry.empty : Registry m) [] where
  wellNamed := Registry.isWellNamed_empty
  find? method resolver := by
    constructor
    · intro h
      cases h
    · rintro ⟨-, before, name, later, hsplit, -⟩
      simp at hsplit

theorem IsMapOf.find?_empty (h : IsMapOf registry history) : registry.find? "" = none := by
  rw [Option.eq_none_iff_forall_ne_some]
  intro resolver hfind
  exact ((h.find? "" resolver).mp hfind).1 rfl

/-- One more write to the registry is one more in its history. -/
theorem IsMapOf.write (h : IsMapOf registry history) (w : Write m) :
    IsMapOf (w.apply registry) (history ++ [w]) := by
  cases w with
  | register name resolver =>
    refine ⟨h.wellNamed.register name resolver, fun method found => ?_⟩
    show (registry.register name resolver).find? method = some found ↔ _
    rw [Registry.find?_register, isLatest_concat_iff, Write.Concerns]
    by_cases hname : Text.trim name = method
    · by_cases hblank : method = ""
      · simp [hname, hblank, h.find?_empty]
      · simp [hname, hblank]
    · simp [hname, h.find?]
  | unregister name =>
    refine ⟨h.wellNamed.unregister name, fun method found => ?_⟩
    show (registry.unregister name).find? method = some found ↔ _
    rw [Registry.find?_unregister, isLatest_concat_iff, Write.Concerns]
    by_cases hname : name = method
    · simp [hname]
    · simp [hname, h.find?]

theorem IsMapOf.foldl (h : IsMapOf registry history) (more : List (Write m)) :
    IsMapOf (more.foldl Write.apply registry) (history ++ more) := by
  induction more generalizing registry history with
  | nil => simpa using h
  | cons w rest ih =>
    have hrest := ih (h.write w)
    rwa [List.append_assoc] at hrest

theorem IsMapOf.mem_methods_iff (h : IsMapOf registry history) {name : String} :
    name ∈ registry.methods ↔ ∃ resolver, IsLatest history name resolver := by
  simp only [Registry.mem_methods_iff, h.find?]

/-! ### Operations on a store -/

namespace Op

/-- What an operation writes to the registry of a number. -/
def write? (s : Store m) (n : Nat) : Op m → Option (Write m)
  | .register handle name resolver => if s.target handle = n then some (.register name resolver) else none
  | .withResolver handle name resolver _ => if s.target handle = n then some (.register name resolver) else none
  | .unregister handle name => if s.target handle = n then some (.unregister name) else none
  | _ => none

/-- The resolution that an operation is about. -/
def task? : Op m → Option Task
  | .begin _ _ task => some task
  | .finish task => some task
  | _ => none

/-- The operations that look something up, and the end of a resolution. -/
def IsReading : Op m → Prop
  | .methods _ | .canResolve _ _ | .begin _ _ _ | .finish _ => True
  | _ => False

end Op

namespace Store

/-- What is written to the registry of a number, through any handle. -/
def writesTo (n : Nat) : Store m → List (Op m) → List (Write m)
  | _, [] => []
  | s, op :: rest => (op.write? s n).toList ++ writesTo n (s.next op) rest

theorem registry_change (s : Store m) (handle : Handle) (f : Registry m → Registry m) (n : Nat) :
    (s.change handle f).registry n = if s.target handle = n then f (s.registry n) else s.registry n := by
  unfold change registryOf
  by_cases hn : s.target handle = n
  · subst hn
    simp
  · simp only [if_neg hn, if_neg (Ne.symm hn)]

/-- An operation does to a registry what it writes to it. -/
theorem registry_next (s : Store m) (op : Op m) (n : Nat) :
    (s.next op).registry n = (op.write? s n).toList.foldl Write.apply (s.registry n) := by
  have hwrite : ∀ (handle : Handle) (w : Write m),
      (s.change handle w.apply).registry n
        = (if s.target handle = n then some w else none).toList.foldl Write.apply (s.registry n) := by
    intro handle w
    rw [registry_change]
    split <;> rfl
  cases op with
  | register handle name resolver => exact hwrite handle (.register name resolver)
  | withResolver handle name resolver other => exact hwrite handle (.register name resolver)
  | unregister handle name => exact hwrite handle (.unregister name)
  | _ => rfl

theorem registry_after (s : Store m) (ops : List (Op m)) (n : Nat) :
    (s.after ops).registry n = (writesTo n s ops).foldl Write.apply (s.registry n) := by
  induction ops generalizing s with
  | nil => rfl
  | cons op rest ih =>
    show ((s.next op).after rest).registry n = _
    rw [ih, registry_next, writesTo, List.foldl_append]

/-- Whatever is done, through whatever handles, a registry is the map of its history. -/
theorem registryOf_after (ops : List (Op m)) (handle : Handle) :
    IsMapOf (((start : Store m).after ops).registryOf handle)
      (writesTo ((start.after ops).target handle) start ops) := by
  unfold registryOf
  rw [registry_after]
  exact isMapOf_empty.foldl _

/-! ### Resolutions under way -/

theorem resolution_next {s : Store m} {op : Op m} {task : Task} (h : op.task? ≠ some task) :
    (s.next op).resolution task = s.resolution task := by
  have hother : ∀ {other : Task} {resolution : Option (Resolution m)}, some other ≠ some task →
      (s.setResolution other resolution).resolution task = s.resolution task := by
    intro other resolution hne
    exact if_neg (fun heq => hne (congrArg some heq.symm))
  cases op with
  | begin handle text other => exact hother h
  | finish other => exact hother h
  | _ => rfl

theorem resolution_after {s : Store m} {ops : List (Op m)} {task : Task}
    (h : ∀ op ∈ ops, op.task? ≠ some task) : (s.after ops).resolution task = s.resolution task := by
  induction ops generalizing s with
  | nil => rfl
  | cons op rest ih =>
    rw [List.forall_mem_cons] at h
    show ((s.next op).after rest).resolution task = _
    rw [ih h.2, resolution_next h.1]

/-- What began with a registry finishes as it would have then. -/
theorem outcome_finish [Monad m] {s : Store m} {handle : Handle} {text : String} {task : Task}
    {ops : List (Op m)} (h : ∀ op ∈ ops, op.task? ≠ some task) :
    ((s.next (.begin handle text task)).after ops).outcome (.finish task)
      = .resolved <$> (s.registryOf handle).resolve text := by
  have hbegun : ((s.next (.begin handle text task)).after ops).resolution task
      = some ((s.registryOf handle).begin text) := by
    rw [resolution_after h]
    exact if_pos rfl
  rw [outcome, hbegun, ← Registry.finish_begin]

theorem change_eq_self {s : Store m} {handle : Handle} {f : Registry m → Registry m}
    (h : f (s.registryOf handle) = s.registryOf handle) : s.change handle f = s := by
  have hregistry : (s.change handle f).registry = s.registry := by
    funext n
    rw [registry_change]
    by_cases hn : s.target handle = n
    · subst hn
      rw [if_pos rfl]
      exact h
    · rw [if_neg hn]
  show (⟨s.target, (s.change handle f).registry, s.resolution⟩ : Store m) = s
  rw [hregistry]

/-! ### What a program observes -/

/-- After any sequence of operations through any handles, and for each of the handles: a DID is resolved by
the resolver that was registered last for its method, and is refused if there was none or the method was
unregistered since. The methods are those that have such a resolver, trimmed and not empty, each once.
Unregistering tells whether the method was there, and blank names are not registered. Operations that only
look something up leave all registries as they are. A text can be resolved exactly if its resolution fails
neither for the text nor for its method. A resolution that began is finished as the registry was then,
whatever is done in between. -/
theorem lastWriterWins {σ : Type} (ops : List (Op (StateM σ))) (handle : Handle) :
    let s := start.after ops
    let registry := s.registryOf handle
    let history := writesTo (s.target handle) start ops
    (∀ text did, Did.parse text = .ok did →
      (∀ resolver, IsLatest history did.method resolver →
        registry.resolve text
          = (fun answer => answer.mapError (.resolutionFailed text)) <$> resolver.resolve text)
      ∧ ((∀ resolver, ¬IsLatest history did.method resolver) →
        registry.resolve text = pure (.error (.unsupportedMethod did.method))))
    ∧ (∀ text e, Did.parse text = .error e → registry.resolve text = pure (.error (.invalidIssuer text)))
    ∧ (registry.methods.Nodup
      ∧ ∀ name, (name ∈ registry.methods ↔ ∃ resolver, IsLatest history name resolver)
        ∧ (name ∈ registry.methods → name ≠ "" ∧ Text.IsTrimmed name))
    ∧ (∀ name, ∃ found, s.outcome (.unregister handle name) = pure (.removed found)
      ∧ (found = true ↔ name ∈ registry.methods))
    ∧ (∀ name resolver, (∀ c ∈ name.toList, Text.isBlank c = true) →
      s.next (.register handle name resolver) = s)
    ∧ (∀ op : Op (StateM σ), op.IsReading → (s.next op).registry = s.registry)
    ∧ (∀ text w, registry.canResolve text = true ↔
      ∀ e, ((registry.resolve text).run w).1 = .error e →
        (∀ issuer, e ≠ .invalidIssuer issuer) ∧ ∀ method, e ≠ .unsupportedMethod method)
    ∧ ∀ text task more, (∀ op ∈ more, op.task? ≠ some task) →
      ((s.next (.begin handle text task)).after more).outcome (.finish task)
        = .resolved <$> registry.resolve text := by
  intro s registry history
  have hmap : IsMapOf registry history := registryOf_after ops handle
  refine ⟨fun text did hdid => ⟨fun resolver hlatest => ?_, fun hnone => ?_⟩, ?_, ⟨?_, ?_⟩, ?_, ?_, ?_, ?_, ?_⟩
  · exact Registry.resolve_of_find? hdid ((hmap.find? _ _).mpr hlatest)
  · refine Registry.resolve_of_find?_eq_none hdid (Option.eq_none_iff_forall_ne_some.mpr ?_)
    intro resolver hfind
    exact hnone resolver ((hmap.find? _ _).mp hfind)
  · intro text e he
    exact Registry.resolve_of_not_did he
  · exact hmap.wellNamed.distinct
  · intro name
    exact ⟨hmap.mem_methods_iff, fun hname => ⟨hmap.wellNamed.nonempty name hname,
      hmap.wellNamed.trimmed name hname⟩⟩
  · intro name
    exact ⟨registry.contains name, rfl, Assoc.get?_isSome_iff registry name⟩
  · intro name resolver hblank
    have hsame : registry.register name resolver = registry := by
      rw [Registry.register, Text.trim_eq_empty_iff.mpr hblank]
      rfl
    exact change_eq_self (f := fun r => r.register name resolver) hsame
  · intro op hop
    cases op with
    | clone | register | withResolver | unregister => exact hop.elim
    | _ => rfl
  · exact fun text w => Registry.canResolve_iff_run_resolve text w
  · exact fun text task more hmore => outcome_finish hmore

/-- A resolver that is registered with blanks around its name and replaced through a clone. The resolution
of a DID that is under way when the method is unregistered is still answered by the second resolver. -/
theorem lastWriterWins_replaced :
    let first : Resolver (StateM Unit) := .failing "first"
    let second : Resolver (StateM Unit) := .failing "second"
    let s := start.after [.register 0 " x " first, .clone 0 1, .register 1 "x" second]
    (s.registryOf 0).resolve "did:x:y"
        = pure (.error (.resolutionFailed "did:x:y" "Could not resolve did:x:y: second"))
      ∧ ((s.next (.begin 0 "did:x:y" 7)).after [.unregister 1 "x"]).outcome (.finish 7)
        = pure (.resolved (.error (.resolutionFailed "did:x:y" "Could not resolve did:x:y: second")))
      ∧ ((s.next (.unregister 1 "x")).registryOf 0).resolve "did:x:y" = pure (.error (.unsupportedMethod "x"))
      ∧ s.next (.register 1 " " first) = s := by
  intro first second s
  have hparse : (Did.parse "did:x:y").toOption.map Did.method = some "x" := by decide
  cases hdid : Did.parse "did:x:y" with
  | error e => rw [hdid] at hparse; cases hparse
  | ok did =>
    rw [hdid] at hparse
    have hmethod : did.method = "x" := Option.some.inj hparse
    obtain ⟨hresolve, -, -, -, -, -, -, hfinish⟩ :=
      lastWriterWins [.register 0 " x " first, .clone 0 1, .register 1 "x" second] 0
    have hlatest : IsLatest [.register " x " first, .register "x" second] did.method second := by
      rw [hmethod]
      exact ⟨by decide, [.register " x " first], "x", [], rfl, by decide, List.forall_mem_nil _⟩
    have hanswer := (hresolve "did:x:y" did hdid).1 second hlatest
    refine ⟨hanswer, ?_, ?_, ?_⟩
    · rw [hfinish "did:x:y" 7 [.unregister 1 "x"] (by simp [Op.task?]), hanswer]
      rfl
    · -- the same program with one more operation
      have hunregistered := (lastWriterWins
        [.register 0 " x " first, .clone 0 1, .register 1 "x" second, .unregister 1 "x"] 0).1 "did:x:y" did hdid
      rw [hmethod] at hunregistered
      refine hunregistered.2 fun resolver hlatest => ?_
      have hconcat : IsLatest ([.register " x " first, .register "x" second] ++ [.unregister "x"]) "x"
        resolver := hlatest
      rcases isLatest_concat_iff.mp hconcat with ⟨-, name, hname, -⟩ | ⟨hother, -⟩
      · cases hname
      · exact hother rfl
    · exact (lastWriterWins [.register 0 " x " first, .clone 0 1, .register 1 "x" second] 1).2.2.2.2.1 " "
        first (Text.trim_eq_empty_iff.mp (by decide))

end Store

end DidToken
