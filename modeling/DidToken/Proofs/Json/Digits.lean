import DidToken.Json.Number
import DidToken.Proofs.Json.Reading
/-!
# Rows of digits

A row of digits is taken whole if what follows does not go on with it (`digits_of_isDigits`), and so is the part of
a number before the point (`wholeDigits_of_isDigits`). Nothing that may stand after a value goes on with a number
(`Stops.head`).
-/

namespace DidToken.Json

/-! ### What follows a value -/

/-- What may stand after a value: nothing, a blank, or what separates or closes. -/
def Stops : Bytes → Prop
  | [] => True
  | x :: _ => isBlank x = true ∨ x = 0x2c ∨ x = 0x5d ∨ x = 0x7d

theorem Follows.stops {rest : Bytes} (h : Follows rest) : Stops rest := by
  cases rest with
  | nil => trivial
  | cons x tail => exact Or.inr h

/-- Blanks before what may stand after a value may stand after it too. -/
theorem Stops.blanks {w rest : Bytes} (hw : ∀ x ∈ w, isBlank x = true) (h : Stops rest) : Stops (w ++ rest) := by
  cases w with
  | nil => exact h
  | cons x tail => exact Or.inl (hw x (List.mem_cons_self ..))

/-- What follows a value does not begin with any of the bytes that go on with a number. -/
theorem Stops.head {rest : Bytes} (h : Stops rest) :
    ∀ x ∈ rest.head?, Literal.isDigit x = false ∧ x ∉ [0x2e] ∧ x ∉ [0x65, 0x45] := by
  intro x hx
  cases rest with
  | nil => cases hx
  | cons y tail =>
    cases hx
    rcases h with h | rfl | rfl | rfl
    · simp only [isBlank, Bool.or_eq_true, decide_eq_true_eq] at h
      rcases h with ((rfl | rfl) | rfl) | rfl <;> decide
    all_goals decide

namespace Literal

/-! ### Digits -/

/-- The byte of a digit. -/
abbrev digitByte (d : Nat) : UInt8 :=
  UInt8.ofNat (d + 0x30)

theorem digitByte_spec : ∀ d < 10,
    isDigit (digitByte d) = true ∧ (digitByte d).toNat - 0x30 = d := by
  decide

theorem isDigit_spec {x : UInt8} (h : isDigit x = true) :
    x ∉ [0x2d] ∧ x ∉ [0x2b] ∧ (x.toNat - 0x30 = 0 → x = 0x30) ∧ isBlank x = false ∧ x ≠ 0x5d := by
  obtain ⟨d, hd, rfl⟩ : ∃ d < 10, x = digitByte d := by
    rw [isDigit, Bool.and_eq_true, decide_eq_true_eq, decide_eq_true_eq, UInt8.le_iff_toNat_le,
      UInt8.le_iff_toNat_le] at h
    obtain ⟨hlow, hhigh⟩ : 48 ≤ x.toNat ∧ x.toNat ≤ 57 := h
    refine ⟨x.toNat - 0x30, by omega, ?_⟩
    rw [digitByte, Nat.sub_add_cancel hlow, UInt8.ofNat_toNat]
  revert d
  decide

end Literal

/-- At least one digit. -/
structure IsDigits (w : Bytes) : Prop where
  ne_nil : w ≠ []
  digit : ∀ x ∈ w, Literal.isDigit x = true

namespace Literal

theorem head_isDigits {ds : Bytes} (h : IsDigits ds) (rest : Bytes) :
    ∀ x ∈ (ds ++ rest).head?, isDigit x = true := by
  cases ds with
  | nil => exact absurd rfl h.ne_nil
  | cons x tail =>
    rintro y ⟨⟩
    exact h.digit x (List.mem_cons_self ..)

/-! ### Reading -/

/-- Nothing is taken if the text does not begin with one of the choices. -/
theorem takes_of_head {choices rest : Bytes} (h : ∀ x ∈ rest.head?, x ∉ choices) :
    takes choices rest = .ok (false, rest) := by
  cases rest with
  | nil => rfl
  | cons x tail => rw [takes, if_neg (h x rfl)]

theorem takes_cons {choices : Bytes} {x : UInt8} (h : x ∈ choices) (rest : Bytes) :
    takes choices (x :: rest) = .ok (true, rest) := by
  rw [takes, if_pos h]

/-- As many digits as there are. -/
theorem digits_of_isDigits {ds rest : Bytes} (h : ∀ x ∈ ds, isDigit x = true)
    (hrest : ∀ x ∈ rest.head?, isDigit x = false) :
    digits (ds ++ rest) = .ok (ds.map fun x => x.toNat - 0x30, rest) := by
  have hstop : rest.takeWhile isDigit = [] ∧ rest.dropWhile isDigit = rest := by
    cases rest with
    | nil => exact ⟨rfl, rfl⟩
    | cons x tail =>
      have hx : ¬isDigit x = true := Bool.not_eq_true _ ▸ hrest x rfl
      exact ⟨List.takeWhile_cons_of_neg hx, List.dropWhile_cons_of_neg hx⟩
  rw [digits, List.takeWhile_append_of_pos h, List.dropWhile_append_of_pos h, hstop.1, hstop.2,
    List.append_nil]

theorem someDigits_of_isDigits (atEnd : Fault) {ds rest : Bytes} (h : IsDigits ds)
    (hrest : ∀ x ∈ rest.head?, isDigit x = false) :
    someDigits atEnd (ds ++ rest) = .ok (ds.map fun x => x.toNat - 0x30, rest) := by
  have hdigits := digits_of_isDigits h.digit hrest
  cases ds with
  | nil => exact absurd rfl h.ne_nil
  | cons x tail =>
    rw [List.cons_append] at hdigits ⊢
    rw [someDigits, if_pos (h.digit x (List.mem_cons_self ..)), hdigits]

/-- A zero in front must stand alone. -/
theorem wholeDigits_of_isDigits (atEnd : Fault) {ds rest : Bytes} (h : IsDigits ds)
    (hzero : ds.head? = some 0x30 → ds = [0x30]) (hrest : ∀ x ∈ rest.head?, isDigit x = false) :
    wholeDigits atEnd (ds ++ rest) = .ok (ds.map fun x => x.toNat - 0x30, rest) := by
  have halone : ¬((ds.map fun x => x.toNat - 0x30).head? = some 0
      && 1 < (ds.map fun x => x.toNat - 0x30).length) = true := by
    rw [Bool.and_eq_true, decide_eq_true_eq, decide_eq_true_eq, List.length_map]
    rintro ⟨hhead, hlength⟩
    cases ds with
    | nil => exact absurd rfl h.ne_nil
    | cons x tail =>
      have hx : x = 0x30 :=
        (isDigit_spec (h.digit x (List.mem_cons_self ..))).2.2.1 (Option.some.inj hhead)
      rw [hzero (hx ▸ rfl)] at hlength
      exact absurd hlength (by decide)
  rw [wholeDigits, bind_apply_of_ok (someDigits_of_isDigits atEnd h hrest), if_neg halone]
  rfl

end Literal

end DidToken.Json
