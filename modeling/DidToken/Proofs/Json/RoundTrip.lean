import DidToken.Proofs.Assoc
import DidToken.Proofs.Json.Values
/-!
# Values are read as they were written

A value without floating-point numbers, in whose objects no name comes twice, is read back from its
compact text exactly if it does not nest deeper than the reader allows; a deeper one is refused
(`takes_value`). The induction is on the value: a reader of arrays or objects one level further out
hands each part to the reader of the level below.
-/

namespace DidToken.Json

variable {α β : Type}

theorem map_apply (f : α → β) (x : Reader α) (b : Bytes) :
    (f <$> x) b = (x b).map fun r => (f r.1, r.2) := by
  show Except.bind (x b) _ = _
  cases x b <;> rfl

/-! ### The first byte decides -/

namespace Shape

variable {shape : Shape α} {inner : Option (Reader α)}

theorem step_number {x : UInt8} (hx : (x = 0x2d || Literal.isDigit x) = true)
    (hblank : isBlank x = false) (b : Bytes) : shape.step inner (x :: b) = shape.number (x :: b) := by
  rw [step, bind_apply_of_ok (peekMark_cons hblank b), if_pos hx]

/-- Past the first byte, which begins no number. -/
theorem step_of_not_number {x : UInt8} (hx : ¬(x = 0x2d || Literal.isDigit x) = true)
    (hblank : isBlank x = false) (b : Bytes) {res : Except Fault (α × Bytes)}
    (h : (if x = 0x6e then do
        expectAll [0x75, 0x6c, 0x6c]
        return shape.null
      else if x = 0x74 then do
        expectAll [0x72, 0x75, 0x65]
        return shape.bool true
      else if x = 0x66 then do
        expectAll [0x61, 0x6c, 0x73, 0x65]
        return shape.bool false
      else if x = quoteByte then shape.text
      else match inner with
        | none => throw .malformed
        | some reader =>
          if x = 0x5b then shape.array reader
          else if x = 0x7b then shape.object reader
          else throw .malformed : Reader α) b = res) : shape.step inner (x :: b) = res := by
  rw [step, bind_apply_of_ok (peekMark_cons hblank b), if_neg hx, bind_apply_of_ok (byte_cons x b)]
  exact h

theorem step_null (b : Bytes) :
    shape.step inner (0x6e :: 0x75 :: 0x6c :: 0x6c :: b) = .ok (shape.null, b) := by
  refine step_of_not_number (by decide) (by decide) _ ?_
  rw [if_pos rfl]
  exact bind_apply_of_ok (expectAll_append [0x75, 0x6c, 0x6c] b)

theorem step_true (b : Bytes) :
    shape.step inner (0x74 :: 0x72 :: 0x75 :: 0x65 :: b) = .ok (shape.bool true, b) := by
  refine step_of_not_number (by decide) (by decide) _ ?_
  rw [if_neg (by decide), if_pos rfl]
  exact bind_apply_of_ok (expectAll_append [0x72, 0x75, 0x65] b)

theorem step_false (b : Bytes) :
    shape.step inner (0x66 :: 0x61 :: 0x6c :: 0x73 :: 0x65 :: b) = .ok (shape.bool false, b) := by
  refine step_of_not_number (by decide) (by decide) _ ?_
  rw [if_neg (by decide), if_neg (by decide), if_pos rfl]
  exact bind_apply_of_ok (expectAll_append [0x61, 0x6c, 0x73, 0x65] b)

theorem step_text (b : Bytes) : shape.step inner (quoteByte :: b) = shape.text b :=
  step_of_not_number (by decide) (by decide) _ rfl

theorem step_array (reader : Reader α) (b : Bytes) :
    shape.step (some reader) (0x5b :: b) = shape.array reader b :=
  step_of_not_number (by decide) (by decide) _ rfl

theorem step_object (reader : Reader α) (b : Bytes) :
    shape.step (some reader) (0x7b :: b) = shape.object reader b :=
  step_of_not_number (by decide) (by decide) _ rfl

/-- Where no containers may stand, the first byte of one is refused. -/
theorem step_array_refused (b : Bytes) : shape.step none (0x5b :: b) = .error .malformed :=
  step_of_not_number (by decide) (by decide) _ rfl

theorem step_object_refused (b : Bytes) : shape.step none (0x7b :: b) = .error .malformed :=
  step_of_not_number (by decide) (by decide) _ rfl

end Shape

/-! ### Limits of depth -/

/-- The value, unless it nests deeper than `d`. -/
def Value.within (d : Nat) (v : Value) : Except Fault Value :=
  if v.depth ≤ d then .ok v else .error .malformed

theorem Value.within_of_le {d : Nat} {v : Value} (h : v.depth ≤ d) : v.within d = .ok v :=
  if_pos h

theorem Value.within_of_lt {d : Nat} {v : Value} (h : d < v.depth) :
    v.within d = .error .malformed :=
  if_neg (Nat.not_le.mpr h)

/-- Items are within a depth together if each is. -/
theorem mapM_within (d : Nat) (items : List Value) :
    items.mapM (Value.within d)
      = if Value.depthOfItems items ≤ d then .ok items else .error .malformed := by
  induction items with
  | nil => rfl
  | cons v rest ih =>
    rw [List.mapM_cons, ih, Value.depthOfItems]
    by_cases hv : v.depth ≤ d
    · by_cases hr : Value.depthOfItems rest ≤ d
      · rw [Value.within_of_le hv, if_pos hr, if_pos (Nat.max_le.mpr ⟨hv, hr⟩)]
        rfl
      · have hmax : ¬max v.depth (Value.depthOfItems rest) ≤ d := fun h => hr (Nat.max_le.mp h).2
        rw [Value.within_of_le hv, if_neg hr, if_neg hmax]
        rfl
    · have hmax : ¬max v.depth (Value.depthOfItems rest) ≤ d := fun h => hv (Nat.max_le.mp h).1
      rw [Value.within_of_lt (Nat.lt_of_not_le hv), if_neg hmax]
      rfl

/-- A member whose value is within a depth is inserted. -/
def insertWithin (d : Nat) (o : Object) (m : String × Value) : Except Fault Object :=
  (m.2.within d).map fun v => Assoc.insert o m.1 v

theorem foldlM_insertWithin (d : Nat) (members : List (String × Value)) (o : Object) :
    members.foldlM (insertWithin d) o
      = if Value.depthOfMembers members ≤ d then .ok (Assoc.insertAll o members)
        else .error .malformed := by
  induction members generalizing o with
  | nil => rfl
  | cons m rest ih =>
    rw [List.foldlM_cons, insertWithin, Value.depthOfMembers]
    by_cases hv : m.2.depth ≤ d
    · rw [Value.within_of_le hv]
      show rest.foldlM (insertWithin d) (Assoc.insert o m.1 m.2) = _
      rw [ih, Assoc.insertAll_cons]
      by_cases hr : Value.depthOfMembers rest ≤ d
      · rw [if_pos hr, if_pos (Nat.max_le.mpr ⟨hv, hr⟩)]
      · have hmax : ¬max m.2.depth (Value.depthOfMembers rest) ≤ d := fun h =>
          hr (Nat.max_le.mp h).2
        rw [if_neg hr, if_neg hmax]
    · have hmax : ¬max m.2.depth (Value.depthOfMembers rest) ≤ d := fun h => hv (Nat.max_le.mp h).1
      rw [Value.within_of_lt (Nat.lt_of_not_le hv), if_neg hmax]
      rfl

/-! ### Values -/

/-- A member is read if its value is. -/
theorem takes_member {reader : Reader Value} {m : String × Value} {res : Except Fault Value}
    (h : Takes reader m.2.bytes res) (o : Object) :
    Takes (member reader o) (Value.memberBytes m) (res.map fun v => Assoc.insert o m.1 v) := by
  intro rest hrest
  rw [Value.memberBytes, List.append_assoc, List.cons_append, List.cons_append, member,
    bind_apply_of_ok (text_quoted m.1 _), bind_apply_of_ok (colon_cons _)]
  cases res with
  | error e => exact bind_apply_of_error (h rest hrest)
  | ok v => exact bind_apply_of_ok (h rest hrest)

/-- What is read of an array whose items are read within a depth. -/
theorem takes_value_arr {d : Nat} {items : List Value} (hint : (Value.arr items).IsIntegral)
    (h : ∀ v ∈ items, Takes (value d) v.bytes (v.within d)) :
    Takes (value (d + 1)) (Value.arr items).bytes ((Value.arr items).within (d + 1)) := by
  intro rest _
  have hitems : Json.items (value d) ([0x2c].intercalate (items.map Value.bytes) ++ 0x5d :: rest)
      = (items.mapM (Value.within d)).map fun as => (as, rest) := by
    refine items_intercalate h (fun v hv => ?_) rest
    obtain ⟨x, tail, hx, hblank, hne, -, -⟩ :=
      Value.bytes_eq_cons (hint.of_mem_items hv).isFloat_eq_false
    exact ⟨x, tail, hx, hblank, hne⟩
  rw [Value.bytes_arr, List.cons_append, List.append_assoc, List.singleton_append]
  show building.step (some (value d)) _ = _
  rw [Shape.step_array]
  show (Value.arr <$> Json.items (value d)) _ = _
  rw [map_apply, hitems, mapM_within, Value.within, Value.depth]
  by_cases hd : Value.depthOfItems items ≤ d
  · rw [if_pos hd, if_pos (Nat.succ_le_succ hd)]
    rfl
  · rw [if_neg hd, if_neg (by omega)]
    rfl

/-- What is read of an object the values of whose members are read within a depth. -/
theorem takes_value_obj {d : Nat} {members : List (String × Value)}
    (hdist : (Value.obj members).IsDistinct)
    (h : ∀ m ∈ members, Takes (value d) m.2.bytes (m.2.within d)) :
    Takes (value (d + 1)) (Value.obj members).bytes ((Value.obj members).within (d + 1)) := by
  intro rest _
  have hmembers : Json.members (member (value d)) []
        ([0x2c].intercalate (members.map fun m => quoteByte :: Value.memberBytes m) ++ 0x7d :: rest)
      = (members.foldlM (insertWithin d) []).map fun o => (o, rest) :=
    members_intercalate (fun m hm o => takes_member (h m hm) o) [] rest
  rw [Value.bytes_obj, List.cons_append, List.append_assoc, List.singleton_append]
  show building.step (some (value d)) _ = _
  rw [Shape.step_object]
  show (Value.obj <$> Json.members (member (value d)) []) _ = _
  rw [map_apply, hmembers, foldlM_insertWithin, Value.within, Value.depth,
    Assoc.insertAll_nil_of_distinct hdist.distinct]
  by_cases hd : Value.depthOfMembers members ≤ d
  · rw [if_pos hd, if_pos (Nat.succ_le_succ hd)]
    rfl
  · rw [if_neg hd, if_neg (by omega)]
    rfl

theorem value_eq_step (d : Nat) : ∃ inner, value d = building.step inner := by
  cases d with
  | zero => exact ⟨none, rfl⟩
  | succ d => exact ⟨some (value d), rfl⟩

theorem within_of_depth_eq_zero {v : Value} (h : v.depth = 0) (d : Nat) : v.within d = .ok v :=
  Value.within_of_le (by rw [h]; exact Nat.zero_le d)

/-- A value is read back if it is within the depth of the reader, and is refused otherwise. -/
theorem takes_value {v : Value} (hint : v.IsIntegral) (hdist : v.IsDistinct) (d : Nat) :
    Takes (value d) v.bytes (v.within d) := by
  obtain ⟨inner, hstep⟩ := value_eq_step d
  -- on the value, for readers of every depth: those of scalars are alike, containers go one level down
  induction v using Value.induction generalizing d inner with
  | null =>
    intro rest _
    rw [hstep, within_of_depth_eq_zero rfl d]
    exact Shape.step_null rest
  | bool b =>
    intro rest _
    rw [hstep, within_of_depth_eq_zero rfl d]
    cases b with
    | true => exact Shape.step_true rest
    | false => exact Shape.step_false rest
  | int n =>
    intro rest hrest
    obtain ⟨x, tail, hx, hfirst⟩ := Value.bytes_int_eq_cons n
    obtain ⟨hnumber, hblank, -⟩ := Literal.start_spec hfirst
    rw [hstep, within_of_depth_eq_zero rfl d, hx, List.cons_append,
      Shape.step_number hnumber hblank, ← List.cons_append, ← hx]
    exact takes_number n rest hrest
  | float x => exact absurd hint.isFloat_eq_false Bool.noConfusion
  | str s =>
    intro rest _
    rw [hstep, within_of_depth_eq_zero rfl d, Value.bytes_str, List.cons_append, Shape.step_text,
      List.append_assoc, List.singleton_append]
    show (Value.str <$> text) _ = _
    rw [map_apply, text_quoted]
    rfl
  | arr items ih =>
    cases d with
    | zero =>
      intro rest _
      rw [Value.within_of_lt (by rw [Value.depth]; exact Nat.succ_pos _), Value.bytes_arr]
      exact Shape.step_array_refused _
    | succ d =>
      obtain ⟨inner, hstep⟩ := value_eq_step d
      exact takes_value_arr hint fun v hv =>
        ih v hv (hint.of_mem_items hv) (hdist.of_mem_items hv) d inner hstep
  | obj members ih =>
    cases d with
    | zero =>
      intro rest _
      rw [Value.within_of_lt (by rw [Value.depth]; exact Nat.succ_pos _), Value.bytes_obj]
      exact Shape.step_object_refused _
    | succ d =>
      obtain ⟨inner, hstep⟩ := value_eq_step d
      exact takes_value_obj hdist fun m hm =>
        ih m hm (hint.of_mem_members hm) (hdist.of_mem_members hm) d inner hstep

end DidToken.Json
