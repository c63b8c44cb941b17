import DidToken.Json.Record
import DidToken.Proofs.Json.RoundTrip
/-!
# Typed readers on written values

A typed reader makes of a value what its view makes of it (`takes_scalar`, `takes_object`), and a record
reader makes of an object what comes of bringing its members into a draft one after the other
(`takes_readObject`). Neither depends on where the value stands, so what a reader makes of a value can be
said by running it on the value alone (`outcome`).
-/

namespace DidToken.Json

variable {α β δ : Type}

/-! ### Outcomes -/

/-- What a reader makes of the text of a value. -/
def outcome (reader : Reader α) (v : Value) : Except Fault α :=
  (reader v.bytes).map Prod.fst

theorem Takes.outcome_eq {reader : Reader α} {v : Value} {res : Except Fault α}
    (h : Takes reader v.bytes res) : outcome reader v = res := by
  have hv := h [] trivial
  rw [List.append_nil] at hv
  rw [outcome, hv]
  cases res <;> rfl

theorem Takes.takes_outcome {reader : Reader α} {v : Value} {res : Except Fault α}
    (h : Takes reader v.bytes res) : Takes reader v.bytes (outcome reader v) :=
  h.outcome_eq.symm ▸ h

/-- What comes of a view: something that does not fit is of another shape. -/
def fit : Option α → Except Fault α
  | some a => .ok a
  | none => .error .mismatch

/-! ### Scalars and objects -/

/-- A scalar is read by its view. Arrays and objects are refused at their first byte, so the view must
refuse them too. -/
theorem takes_scalar {view : Value → Option α} (harr : ∀ items, view (.arr items) = none)
    (hobj : ∀ members, view (.obj members) = none) {v : Value} (hint : v.IsIntegral)
    (hdist : v.IsDistinct) : Takes (scalar view) v.bytes (fit (view v)) := by
  intro rest hrest
  obtain ⟨x, tail, hx, hblank, -, hxarr, hxobj⟩ := Value.bytes_eq_cons hint.isFloat_eq_false
  have hpeek : peekMark (v.bytes ++ rest) = .ok (x, v.bytes ++ rest) := by
    rw [hx, List.cons_append]
    exact peekMark_cons hblank _
  rw [scalar, bind_apply_of_ok hpeek]
  -- the first byte shows whether the value is a container
  by_cases hcontainer : x = 0x5b ∨ x = 0x7b
  · have hview : view v = none := by
      rcases hcontainer with h | h
      · obtain ⟨items, rfl⟩ := hxarr.mp h
        exact harr items
      · obtain ⟨members, rfl⟩ := hxobj.mp h
        exact hobj members
    rw [if_pos (by simpa using hcontainer), hview]
    rfl
  · have hdepth : v.depth = 0 := by
      cases v with
      | arr items => exact absurd (Or.inl (hxarr.mpr ⟨items, rfl⟩)) hcontainer
      | obj members => exact absurd (Or.inr (hxobj.mpr ⟨members, rfl⟩)) hcontainer
      | _ => rfl
    have hvalue := (takes_value hint hdist 0).apply_ok (within_of_depth_eq_zero hdepth 0) hrest
    rw [if_neg (by simpa using hcontainer), bind_apply_of_ok hvalue]
    cases view v <;> rfl

theorem takes_string {v : Value} (hint : v.IsIntegral) (hdist : v.IsDistinct) :
    Takes string v.bytes (fit v.str?) :=
  takes_scalar (fun _ => rfl) (fun _ => rfl) hint hdist

theorem takes_stringOrNull {v : Value} (hint : v.IsIntegral) (hdist : v.IsDistinct) :
    Takes stringOrNull v.bytes (fit (orNull Value.str? v)) :=
  takes_scalar (fun _ => rfl) (fun _ => rfl) hint hdist

theorem takes_int64OrNull {v : Value} (hint : v.IsIntegral) (hdist : v.IsDistinct) :
    Takes int64OrNull v.bytes (fit (orNull Value.int64? v)) :=
  takes_scalar (fun _ => rfl) (fun _ => rfl) hint hdist

/-- Nothing that is there fits. -/
theorem takes_unfit {v : Value} (hint : v.IsIntegral) (hdist : v.IsDistinct) :
    Takes (unfit : Reader α) v.bytes (.error .mismatch) :=
  takes_scalar (fun _ => rfl) (fun _ => rfl) hint hdist

/-- The object that a value is, unless it nests deeper than `d`. -/
def Value.objectWithin (d : Nat) (v : Value) : Except Fault Object :=
  match v.obj? with
  | some o => (v.within d).map fun _ => o
  | none => .error .mismatch

theorem Value.objectWithin_obj (o : Object) (d : Nat) :
    (Value.obj o).objectWithin d = if (Value.obj o).depth ≤ d then .ok o else .error .malformed := by
  show ((Value.obj o).within d).map (fun _ => o) = _
  rw [Value.within]
  split <;> rfl

theorem takes_object {v : Value} (hint : v.IsIntegral) (hdist : v.IsDistinct) (d : Nat) :
    Takes (object d) v.bytes (v.objectWithin d) := by
  intro rest hrest
  obtain ⟨x, tail, hx, hblank, -, -, hxobj⟩ := Value.bytes_eq_cons hint.isFloat_eq_false
  have hpeek : peekMark (v.bytes ++ rest) = .ok (x, v.bytes ++ rest) := by
    rw [hx, List.cons_append]
    exact peekMark_cons hblank _
  rw [object, bind_apply_of_ok hpeek]
  by_cases hobj : x = 0x7b
  · obtain ⟨members, rfl⟩ := hxobj.mp hobj
    have hvalue := takes_value hint hdist d rest hrest
    rw [if_pos hobj, Value.objectWithin]
    simp only [Value.obj?]
    cases hw : (Value.obj members).within d with
    | error e =>
      rw [hw] at hvalue
      exact bind_apply_of_error hvalue
    | ok u =>
      have hu : Value.obj members = u := by
        rw [Value.within] at hw
        split at hw
        · exact Except.ok.inj hw
        · cases hw
      subst hu
      rw [hw] at hvalue
      exact bind_apply_of_ok hvalue
  · have hnone : v.obj? = none := by
      cases v with
      | obj members => exact absurd (hxobj.mpr ⟨members, rfl⟩) hobj
      | _ => rfl
    rw [if_neg hobj, Value.objectWithin, hnone]
    exact takes_unfit hint hdist rest hrest

theorem takes_objectOrNull_null (d : Nat) :
    Takes (objectOrNull d) Value.null.bytes (.ok none) := by
  intro rest hrest
  have hpeek : peekMark (Value.null.bytes ++ rest) = .ok (0x6e, Value.null.bytes ++ rest) :=
    peekMark_cons (by decide) _
  have hscalar : Takes (scalar (orNull fun _ => (none : Option Object))) Value.null.bytes (.ok none) :=
    takes_scalar (fun _ => rfl) (fun _ => rfl) (v := .null) rfl trivial
  rw [objectOrNull, bind_apply_of_ok hpeek, if_neg (by decide)]
  exact hscalar rest hrest

theorem takes_objectOrNull_obj {o : Object} {d : Nat} (hint : (Value.obj o).IsIntegral)
    (hdist : (Value.obj o).IsDistinct) (hdepth : (Value.obj o).depth ≤ d) :
    Takes (objectOrNull d) (Value.obj o).bytes (.ok (some o)) := by
  intro rest hrest
  have hpeek : peekMark ((Value.obj o).bytes ++ rest) = .ok (0x7b, (Value.obj o).bytes ++ rest) := by
    rw [Value.bytes_obj, List.cons_append]
    exact peekMark_cons (by decide) _
  have hobject : (Value.obj o).objectWithin d = .ok o := by
    rw [Value.objectWithin_obj, if_pos hdepth]
  rw [objectOrNull, bind_apply_of_ok hpeek, if_pos rfl, map_apply,
    (takes_object hint hdist d).apply_ok hobject hrest]
  rfl

/-! ### Records -/

/-- A field that is kept in one place of the draft is read if its value is. -/
theorem takes_field_of {name : String} {reader : Reader β} {get : δ → Option β} {set : δ → β → δ}
    {mayBeMissing : Bool} {w : Bytes} {res : Except Fault β} (h : Takes reader w res) (d : δ) :
    Takes ((Field.of name reader get set mayBeMissing).read d) w (res.map (set d)) := by
  intro rest hrest
  show (reader >>= _) _ = _
  cases res with
  | error e => exact bind_apply_of_error (h rest hrest)
  | ok b => exact bind_apply_of_ok (h rest hrest)

namespace Record

variable (r : Record δ α)

/-- The draft with a member brought in. -/
def bring (d : δ) (m : String × Value) : Except Fault δ :=
  match r.field? m.1 with
  | some f => if f.isSet d then .error .mismatch else outcome (f.read d) m.2
  | none => outcome (r.unknown m.1 d) m.2

/-- What the record does with a member, as a field or otherwise, does not depend on where the value
stands. -/
structure ReadsMember (m : String × Value) : Prop where
  field : ∀ f, r.field? m.1 = some f → ∀ d, Takes (f.read d) m.2.bytes (outcome (f.read d) m.2)
  unknown : r.field? m.1 = none →
    ∀ d, Takes (r.unknown m.1 d) m.2.bytes (outcome (r.unknown m.1 d) m.2)

variable {r}

theorem ReadsMember.of_field {m : String × Value} {name : String} {reader : Reader β}
    {get : δ → Option β} {set : δ → β → δ} {mayBeMissing : Bool} {res : Except Fault β}
    (hf : r.field? m.1 = some (.of name reader get set mayBeMissing))
    (h : Takes reader m.2.bytes res) : r.ReadsMember m where
  field f hsome d := by
    obtain rfl := Option.some.inj (hf.symm.trans hsome)
    exact (takes_field_of h d).takes_outcome
  unknown hnone := by
    rw [hf] at hnone
    cases hnone

theorem ReadsMember.of_unknown {m : String × Value} {res : δ → Except Fault δ}
    (hf : r.field? m.1 = none) (h : ∀ d, Takes (r.unknown m.1 d) m.2.bytes (res d)) :
    r.ReadsMember m where
  field f hsome := by
    rw [hf] at hsome
    cases hsome
  unknown _ d := (h d).takes_outcome

/-- A field that has not come yet is set. -/
theorem bring_of_field {m : String × Value} {name : String} {reader : Reader β} {get : δ → Option β}
    {set : δ → β → δ} {mayBeMissing : Bool} {b : β} {d : δ}
    (hf : r.field? m.1 = some (.of name reader get set mayBeMissing)) (hnew : get d = none)
    (h : Takes reader m.2.bytes (.ok b)) : r.bring d m = .ok (set d b) := by
  have hunset : (Field.of name reader get set mayBeMissing).isSet d = false := by
    show (get d).isSome = false
    rw [hnew]
    rfl
  rw [bring, hf]
  simp only [hunset]
  exact (takes_field_of h d).outcome_eq

theorem bring_of_unknown {m : String × Value} {res : Except Fault δ} {d : δ}
    (hf : r.field? m.1 = none) (h : Takes (r.unknown m.1 d) m.2.bytes res) : r.bring d m = res := by
  rw [bring, hf]
  exact h.outcome_eq

theorem ReadsMember.takes {m : String × Value} (h : r.ReadsMember m) (d : δ) :
    Takes (r.member d) (Value.memberBytes m) (r.bring d m) := by
  intro rest hrest
  rw [Value.memberBytes, List.append_assoc, List.cons_append, List.cons_append, member,
    bind_apply_of_ok (text_quoted m.1 _), bring]
  cases hf : r.field? m.1 with
  | some f =>
    simp only
    cases f.isSet d with
    | true => rfl
    | false =>
      rw [if_neg Bool.false_ne_true, if_neg Bool.false_ne_true, bind_apply_of_ok (colon_cons _)]
      exact h.field f hf d rest hrest
  | none =>
    simp only
    rw [bind_apply_of_ok (colon_cons _)]
    exact h.unknown hf d rest hrest

/-- The record that a draft makes. -/
def finished (r : Record δ α) (d : δ) : Except Fault α :=
  fit (r.finish d)

theorem close_apply (d : δ) (b : Bytes) : r.close d b = (r.finished d).map fun a => (a, b) := by
  rw [close, finished]
  cases r.finish d <;> rfl

/-- The record in its object form is made from the drafts that its members lead to. -/
theorem takes_readObject {members : List (String × Value)} (h : ∀ m ∈ members, r.ReadsMember m) :
    Takes r.readObject (Value.obj members).bytes (members.foldlM r.bring r.empty >>= r.finished) := by
  intro rest _
  have hmembers : Json.members r.member r.empty
        ([0x2c].intercalate (members.map fun m => quoteByte :: Value.memberBytes m) ++ 0x7d :: rest)
      = (members.foldlM r.bring r.empty).map fun d => (d, rest) :=
    members_intercalate (fun m hm => (h m hm).takes) r.empty rest
  rw [Value.bytes_obj, List.cons_append, List.append_assoc, List.singleton_append, readObject,
    bind_apply_of_ok (peekMark_cons (by decide) _), if_pos rfl, bind_apply_of_ok (byte_cons _ _),
    ofMembers]
  cases hd : members.foldlM r.bring r.empty with
  | error e =>
    rw [hd] at hmembers
    exact bind_apply_of_error hmembers
  | ok d =>
    rw [hd] at hmembers
    exact (bind_apply_of_ok hmembers).trans (close_apply d rest)

/-- An object is read in its object form. -/
theorem takes_read {members : List (String × Value)} (h : ∀ m ∈ members, r.ReadsMember m) :
    Takes r.read (Value.obj members).bytes (members.foldlM r.bring r.empty >>= r.finished) := by
  intro rest hrest
  have hpeek : peekMark ((Value.obj members).bytes ++ rest)
      = .ok (0x7b, (Value.obj members).bytes ++ rest) := by
    rw [Value.bytes_obj, List.cons_append]
    exact peekMark_cons (by decide) _
  rw [read, bind_apply_of_ok hpeek, if_neg (by decide)]
  exact takes_readObject h rest hrest

end Record

end DidToken.Json
