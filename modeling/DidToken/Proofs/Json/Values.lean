import DidToken.Json.Printer
import DidToken.Proofs.Json.Integers
import DidToken.Proofs.Json.Strings
/-!
# Values and their bytes

What is said of a value is often meant of all values inside it too: that its numbers are integers
(`IsIntegral`), that no object has a name twice (`IsDistinct`). This module gives these properties, the
induction over values that goes with them, and the bytes of the compact text of a value in terms of the
bytes of its parts.
-/

namespace DidToken.Json

namespace Value

/-! ### Properties of all values inside a value -/

mutual

/-- The property holds of a value and of all values inside it. -/
def Everywhere (p : Value → Prop) : Value → Prop
  | .arr items => p (.arr items) ∧ EverywhereItems p items
  | .obj members => p (.obj members) ∧ EverywhereMembers p members
  | v => p v

/-- The property holds everywhere in the items. -/
def EverywhereItems (p : Value → Prop) : List Value → Prop
  | [] => True
  | v :: rest => Everywhere p v ∧ EverywhereItems p rest

/-- The property holds everywhere in the values of members. -/
def EverywhereMembers (p : Value → Prop) : List (String × Value) → Prop
  | [] => True
  | (_, v) :: rest => Everywhere p v ∧ EverywhereMembers p rest

end

theorem everywhereItems_iff {p : Value → Prop} {items : List Value} :
    EverywhereItems p items ↔ ∀ v ∈ items, Everywhere p v := by
  induction items with
  | nil => simp [EverywhereItems]
  | cons v rest ih => rw [EverywhereItems, ih, List.forall_mem_cons]

theorem everywhereMembers_iff {p : Value → Prop} {members : List (String × Value)} :
    EverywhereMembers p members ↔ ∀ m ∈ members, Everywhere p m.2 := by
  induction members with
  | nil => simp [EverywhereMembers]
  | cons m rest ih => rw [EverywhereMembers, ih, List.forall_mem_cons]

/-- Whether the value is a floating-point number. -/
def isFloat : Value → Bool
  | .float _ => true
  | _ => false

/-- If the value is an object, no name of it comes twice. -/
def HasDistinctNames : Value → Prop
  | .obj members => Assoc.Distinct members
  | _ => True

/-- All numbers in the value are integers. -/
def IsIntegral (v : Value) : Prop :=
  v.Everywhere fun u => u.isFloat = false

/-- No object in the value has a name twice. -/
def IsDistinct (v : Value) : Prop :=
  v.Everywhere HasDistinctNames

/-- Induction over values: arrays and objects come after the values inside them. -/
@[elab_as_elim]
theorem induction {motive : Value → Prop} (null : motive .null) (bool : ∀ b, motive (.bool b))
    (int : ∀ n, motive (.int n)) (float : ∀ x, motive (.float x)) (str : ∀ s, motive (.str s))
    (arr : ∀ items, (∀ v ∈ items, motive v) → motive (.arr items))
    (obj : ∀ members, (∀ m ∈ members, motive m.2) → motive (.obj members)) : ∀ v, motive v
  | .null => null
  | .bool b => bool b
  | .int n => int n
  | .float x => float x
  | .str s => str s
  | .arr items => arr items fun v _ => induction null bool int float str arr obj v
  | .obj members => obj members fun m _ => induction null bool int float str arr obj m.2
termination_by v => sizeOf v
decreasing_by
  · next h =>
    have := List.sizeOf_lt_of_mem h
    simp only [Value.arr.sizeOf_spec]
    omega
  · next h =>
    have := List.sizeOf_lt_of_mem h
    obtain ⟨name, v⟩ := m
    simp only [Value.obj.sizeOf_spec, Prod.mk.sizeOf_spec] at *
    omega

/-! ### Depth -/

theorem depthOfMembers_le_iff {members : List (String × Value)} {d : Nat} :
    depthOfMembers members ≤ d ↔ ∀ m ∈ members, m.2.depth ≤ d := by
  induction members with
  | nil => simp [depthOfMembers]
  | cons m rest ih => rw [depthOfMembers, Nat.max_le, ih, List.forall_mem_cons]

/-! ### The bytes of values -/

/-- The bytes of the compact text of a value. -/
def bytes (v : Value) : Bytes :=
  Bytes.ofString v.render

/-- The bytes of a member after the opening quote of its name. -/
def memberBytes (m : String × Value) : Bytes :=
  quotedBytes m.1 ++ quoteByte :: 0x3a :: m.2.bytes

end Value

theorem ofString_intercalate (parts : List String) :
    Bytes.ofString (String.intercalate "," parts) = [0x2c].intercalate (parts.map Bytes.ofString) := by
  have hcomma : Bytes.ofString "," = [0x2c] := by decide
  induction parts with
  | nil => rw [String.intercalate_nil]; rfl
  | cons s rest ih =>
    cases rest with
    | nil => rw [String.intercalate_singleton, List.map_cons, List.map_nil, List.intercalate_singleton]
    | cons t rest =>
      rw [String.intercalate_cons_cons, Bytes.ofString_append, Bytes.ofString_append, ih, hcomma,
        List.map_cons, List.map_cons, List.map_cons, List.intercalate_cons_cons]

namespace Value

theorem bytes_str (s : String) : bytes (.str s) = quoteByte :: (quotedBytes s ++ [quoteByte]) := by
  rw [bytes, render, ofString_quote]

theorem bytes_arr (items : List Value) :
    bytes (.arr items) = 0x5b :: ([0x2c].intercalate (items.map bytes) ++ [0x5d]) := by
  have hopen : Bytes.ofString "[" = [0x5b] := by decide
  have hclose : Bytes.ofString "]" = [0x5d] := by decide
  rw [bytes, render, Bytes.ofString_append, Bytes.ofString_append, hopen, hclose, renderItems_eq_map,
    ofString_intercalate, List.map_map]
  rfl

theorem bytes_obj (members : List (String × Value)) :
    bytes (.obj members)
      = 0x7b :: ([0x2c].intercalate (members.map fun m => quoteByte :: memberBytes m) ++ [0x7d]) := by
  have hopen : Bytes.ofString "\x7b" = [0x7b] := by decide
  have hclose : Bytes.ofString "\x7d" = [0x7d] := by decide
  have hcolon : Bytes.ofString ":" = [0x3a] := by decide
  -- the quotes of a name belong to the separators of members, see `memberBytes`
  have hmember : ∀ m : String × Value,
      Bytes.ofString (quote m.1 ++ ":" ++ m.2.render) = quoteByte :: memberBytes m := fun m => by
    rw [Bytes.ofString_append, Bytes.ofString_append, ofString_quote, hcolon, memberBytes]
    simp only [List.cons_append, List.append_assoc, List.nil_append]
    rfl
  rw [bytes, render, Bytes.ofString_append, Bytes.ofString_append, hopen, hclose,
    renderMembers_eq_map, ofString_intercalate, List.map_map]
  simp only [Function.comp_def, hmember]
  rfl

/-- An integer begins with its sign or with a digit. -/
theorem bytes_int_eq_cons (n : Integer) :
    ∃ x tail, bytes (.int n) = x :: tail ∧ (x = 0x2d ∨ ∃ d < 10, x = Literal.digitByte d) := by
  have hbytes : bytes (.int n) = (if decide (n.val < 0) then [0x2d] else [])
      ++ (digitsOf n.val.natAbs).map Literal.digitByte := Integer.ofString_toString n
  by_cases hneg : n.val < 0
  · rw [decide_eq_true hneg, if_pos rfl] at hbytes
    exact ⟨0x2d, _, hbytes, Or.inl rfl⟩
  · rw [decide_eq_false hneg, if_neg Bool.false_ne_true, List.nil_append] at hbytes
    cases hd : digitsOf n.val.natAbs with
    | nil => exact absurd hd (digitsOf_ne_nil _)
    | cons d ds =>
      have hlt : d < 10 :=
        lt_of_mem_digitsOf (n := n.val.natAbs) (by rw [hd]; exact List.mem_cons_self ..)
      rw [hd, List.map_cons] at hbytes
      exact ⟨_, _, hbytes, Or.inr ⟨d, hlt, rfl⟩⟩

/-- The first byte of a value is not blank and shows whether it is an array or an object. -/
theorem bytes_eq_cons {v : Value} (h : v.isFloat = false) :
    ∃ x tail, v.bytes = x :: tail ∧ isBlank x = false ∧ x ≠ 0x5d
      ∧ (x = 0x5b ↔ ∃ items, v = .arr items) ∧ (x = 0x7b ↔ ∃ members, v = .obj members) := by
  cases v with
  | null => exact ⟨0x6e, _, rfl, by decide, by decide, by simp, by simp⟩
  | bool b =>
    cases b with
    | true => exact ⟨0x74, _, rfl, by decide, by decide, by simp, by simp⟩
    | false => exact ⟨0x66, _, rfl, by decide, by decide, by simp, by simp⟩
  | int n =>
    obtain ⟨x, tail, hx, hfirst⟩ := bytes_int_eq_cons n
    obtain ⟨-, hblank, hclose, harr, hobj⟩ := Literal.start_spec hfirst
    exact ⟨x, tail, hx, hblank, hclose, ⟨fun h => absurd h harr, fun ⟨_, h⟩ => nomatch h⟩,
      ⟨fun h => absurd h hobj, fun ⟨_, h⟩ => nomatch h⟩⟩
  | float x => cases h
  | str s =>
    exact ⟨quoteByte, _, bytes_str s, by decide, by decide, by simp [quoteByte], by simp [quoteByte]⟩
  | arr items => exact ⟨0x5b, _, bytes_arr items, by decide, by decide, by simp, by simp⟩
  | obj members => exact ⟨0x7b, _, bytes_obj members, by decide, by decide, by simp, by simp⟩

theorem IsIntegral.isFloat_eq_false {v : Value} (h : v.IsIntegral) : v.isFloat = false := by
  cases v with
  | arr items => rfl
  | obj members => rfl
  | _ => exact h

theorem IsIntegral.of_mem_items {items : List Value} (h : (Value.arr items).IsIntegral) {v : Value}
    (hv : v ∈ items) : v.IsIntegral :=
  everywhereItems_iff.mp h.2 v hv

theorem IsIntegral.of_mem_members {members : List (String × Value)}
    (h : (Value.obj members).IsIntegral) {m : String × Value} (hm : m ∈ members) : m.2.IsIntegral :=
  everywhereMembers_iff.mp h.2 m hm

theorem IsDistinct.of_mem_items {items : List Value} (h : (Value.arr items).IsDistinct) {v : Value}
    (hv : v ∈ items) : v.IsDistinct :=
  everywhereItems_iff.mp h.2 v hv

theorem IsDistinct.of_mem_members {members : List (String × Value)}
    (h : (Value.obj members).IsDistinct) {m : String × Value} (hm : m ∈ members) : m.2.IsDistinct :=
  everywhereMembers_iff.mp h.2 m hm

theorem isIntegral_obj_iff {members : List (String × Value)} :
    (Value.obj members).IsIntegral ↔ ∀ m ∈ members, m.2.IsIntegral :=
  ⟨fun h _ hm => h.of_mem_members hm, fun h => ⟨rfl, everywhereMembers_iff.mpr h⟩⟩

theorem isDistinct_obj_iff {members : List (String × Value)} :
    (Value.obj members).IsDistinct ↔ Assoc.Distinct members ∧ ∀ m ∈ members, m.2.IsDistinct :=
  ⟨fun h => ⟨h.1, fun _ hm => h.of_mem_members hm⟩, fun h => ⟨h.1, everywhereMembers_iff.mpr h.2⟩⟩

theorem IsDistinct.distinct {members : List (String × Value)} (h : (Value.obj members).IsDistinct) :
    Assoc.Distinct members :=
  h.1

end Value

/-! ### Optional members -/

theorem get?_optionalMember {α : Type} (name : String) (make : α → Value) (a : Option α) (other : String) :
    Assoc.get? (optionalMember name make a) other = if name = other then a.map make else none := by
  cases a with
  | none => exact (ite_self none).symm
  | some x => rfl

theorem keys_optionalMember_sublist {α : Type} (name : String) (make : α → Value) (a : Option α) :
    (Assoc.keys (optionalMember name make a)).Sublist [name] := by
  cases a with
  | none => exact List.nil_sublist _
  | some x => exact List.Sublist.refl _

theorem mem_optionalMember_iff {α : Type} {name : String} {make : α → Value} {a : Option α} {m : String × Value} :
    m ∈ optionalMember name make a ↔ ∃ x, a = some x ∧ m = (name, make x) := by
  cases a with
  | none => simp [optionalMember]
  | some x => simp [optionalMember]

end DidToken.Json
