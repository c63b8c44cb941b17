/-!
# Chains of checks

A chain of checks goes on with what a check gives and ends with the first error. It gives a result
exactly if every check does (`bind_eq_ok_iff`).
-/

namespace DidToken

variable {ε ε' α β : Type}

theorem ok_bind (a : α) (f : α → Except ε β) : (Except.ok a >>= f) = f a := rfl

theorem bind_eq_ok_iff {x : Except ε α} {f : α → Except ε β} {b : β} :
    (x >>= f) = .ok b ↔ ∃ a, x = .ok a ∧ f a = .ok b := by
  constructor
  · intro h
    cases x with
    | error e => cases h
    | ok a => exact ⟨a, rfl, h⟩
  · rintro ⟨a, rfl, h⟩
    exact h

theorem mapError_ok (f : ε → ε') (a : α) : (Except.ok a : Except ε α).mapError f = .ok a := rfl

theorem mapError_eq_ok_iff {x : Except ε α} {f : ε → ε'} {a : α} :
    x.mapError f = .ok a ↔ x = .ok a := by
  constructor
  · intro h
    cases x with
    | error e => cases h
    | ok b => exact congrArg Except.ok (Except.ok.inj h)
  · rintro rfl
    rfl

theorem mapError_eq_error {x : Except ε α} {f : ε → ε'} {e : ε'} (h : x.mapError f = .error e) :
    ∃ cause, e = f cause := by
  cases x with
  | error cause => exact ⟨cause, (Except.error.inj h).symm⟩
  | ok a => cases h

/-- A single check passes exactly if what it looks for is not there. -/
theorem ite_error_eq_ok_iff {c : Prop} [Decidable c] {e : ε} :
    (if c then .error e else .ok ()) = (.ok () : Except ε Unit) ↔ ¬c := by
  by_cases h : c
  · rw [if_pos h]
    exact ⟨nofun, fun hnot => absurd h hnot⟩
  · rw [if_neg h]
    exact ⟨fun _ => h, fun _ => rfl⟩

/-- What a chain of checks fails with, if it fails. -/
def failure? : Except ε α → Option ε
  | .error e => some e
  | .ok _ => none

@[simp] theorem failure?_ok (a : α) : failure? (.ok a : Except ε α) = none := rfl

theorem failure?_eq_some_iff {x : Except ε α} {e : ε} : failure? x = some e ↔ x = .error e := by
  cases x with
  | error e' => exact ⟨fun h => congrArg Except.error (Option.some.inj h), fun h => by cases h; rfl⟩
  | ok a => exact ⟨fun h => (nomatch h), fun h => (nomatch h)⟩

theorem failure?_eq_none_iff {x : Except ε α} : failure? x = none ↔ ∃ a, x = .ok a := by
  cases x with
  | error e => exact ⟨fun h => (nomatch h), fun ⟨_, h⟩ => (nomatch h)⟩
  | ok a => exact ⟨fun _ => ⟨a, rfl⟩, fun _ => rfl⟩

/-- A chain in a world that cannot change gives a result if it does not fail. -/
theorem run_eq_ok_of_failure? {x : StateM Unit (Except ε α)} (h : failure? (x.run ()).1 = none) :
    ∃ a, x.run () = (.ok a, ()) := by
  obtain ⟨a, ha⟩ := failure?_eq_none_iff.mp h
  exact ⟨a, Prod.ext ha rfl⟩

/-- A chain in a world that cannot change fails with its failure. -/
theorem run_eq_error_of_failure? {x : StateM Unit (Except ε α)} {e : ε}
    (h : failure? (x.run ()).1 = some e) : x.run () = (.error e, ()) :=
  Prod.ext (failure?_eq_some_iff.mp h) rfl

end DidToken
