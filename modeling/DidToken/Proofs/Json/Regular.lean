import DidToken.Proofs.Json.Simulation
/-!
# What reading makes

Whatever text a value is read from, no object in it has a name twice, and it nests no deeper than the reader
goes (`yields_value`): a name that comes again takes the place of the first, and a container hands the reader
of the level below to what stands in it. Nothing is assumed of the text. Together with `takes_value` this
says that a value without floating-point numbers, once read, is read again from its own compact text.
-/

namespace DidToken.Json

variable {α β σ : Type}

/-! ### Properties of results -/

/-- Whenever the reader succeeds, its result has the property. -/
def Yields (p : α → Prop) (reader : Reader α) : Prop :=
  ∀ b a rest, reader b = .ok (a, rest) → p a

variable {p : α → Prop}

theorem yields_pure {a : α} (h : p a) : Yields p (pure a) := by
  intro b c rest hc
  cases hc
  exact h

theorem yields_throw (e : Fault) : Yields p (throw e) := by
  intro b a rest h
  cases h

theorem Yields.bind {q : β → Prop} {x : Reader α} {f : α → Reader β} (hx : Yields p x)
    (hf : ∀ a, p a → Yields q (f a)) : Yields q (x >>= f) := by
  intro b c rest h
  obtain ⟨a, mid, hxb, hfa⟩ := bind_apply_eq_ok h
  exact hf a (hx b a mid hxb) mid c rest hfa

/-- Of what comes first, nothing need be known. -/
theorem yields_bind {x : Reader β} {f : β → Reader α} (hf : ∀ c, Yields p (f c)) : Yields p (x >>= f) := by
  intro b a rest h
  obtain ⟨c, mid, -, hfc⟩ := bind_apply_eq_ok h
  exact hf c mid a rest hfc

theorem Yields.map {q : β → Prop} {x : Reader α} {f : α → β} (hx : Yields p x)
    (hf : ∀ a, p a → q (f a)) : Yields q (f <$> x) :=
  hx.bind (f := fun a => pure (f a)) fun a ha => yields_pure (hf a ha)

theorem Yields.ite {c : Prop} [Decidable c] {x y : Reader α} (hx : Yields p x) (hy : Yields p y) :
    Yields p (if c then x else y) := by
  split
  · exact hx
  · exact hy

theorem Yields.whole {reader : Reader α} (h : Yields p reader) {b : Bytes} {a : α}
    (ha : whole reader b = .ok a) : p a := by
  obtain ⟨⟨a', rest⟩, hreader, ha⟩ := bind_eq_ok_iff.mp ha
  have hp := h b a' rest hreader
  simp only at ha
  split at ha
  · cases ha
    exact hp
  · cases ha

/-! ### Loops -/

/-- What a round leads to: a state that is sound, or a result that is. -/
def Round.Holds (again : σ → Prop) (done : α → Prop) : Round σ α → Prop
  | .again s => again s
  | .done a => done a

theorem yields_rounds {again : σ → Prop} {round : σ → Reader (Round σ α)}
    (h : ∀ s, again s → Yields (Round.Holds again p) (round s)) (n : Nat) {s : σ} (hs : again s) :
    Yields p (rounds round n s) := by
  induction n generalizing s with
  | zero => exact yields_throw _
  | succ n ih =>
    refine (h s hs).bind fun r hr => ?_
    cases r with
    | again t => exact ih hr
    | done a => exact yields_pure hr

theorem yields_loop {again : σ → Prop} {round : σ → Reader (Round σ α)}
    (h : ∀ s, again s → Yields (Round.Holds again p) (round s)) {s : σ} (hs : again s) :
    Yields p (loop round s) := by
  intro b a rest hb
  exact yields_rounds h (b.length + 1) hs b a rest hb

theorem yields_items {item : Reader α} (h : Yields p item) :
    Yields (fun as => ∀ a ∈ as, p a) (items item) := by
  have hround : ∀ done : List α, (∀ a ∈ done, p a) →
      Yields (Round.Holds (fun as => ∀ a ∈ as, p a) fun as => ∀ a ∈ as, p a) (itemsRound item done) := by
    intro done hdone
    refine h.bind fun a ha => ?_
    have hmore : ∀ c ∈ a :: done, p c := List.forall_mem_cons.mpr ⟨ha, hdone⟩
    refine yields_bind fun x => .ite (yields_pure hmore) (.ite (yields_pure fun c hc => ?_) (yields_throw _))
    exact hmore c (List.mem_reverse.mp hc)
  exact yields_bind fun x => .ite (yields_bind fun _ => yields_pure (List.forall_mem_nil p))
    (yields_loop hround (List.forall_mem_nil p))

theorem yields_members {q : σ → Prop} {member : σ → Reader σ} (h : ∀ s, q s → Yields q (member s)) {s : σ}
    (hs : q s) : Yields q (members member s) := by
  have hround : ∀ s, q s → Yields (Round.Holds q q) (membersRound member s) := fun s hs =>
    yields_bind fun x => .ite
      ((h s hs).bind fun t ht => yields_bind fun y =>
        .ite (yields_pure ht) (.ite (yields_pure ht) (yields_throw _)))
      (yields_throw _)
  exact yields_bind fun x => .ite (yields_bind fun _ => yields_pure hs) (yields_loop hround hs)

/-! ### Walks -/

/-- What is made of each kind of value. -/
theorem Shape.yields_step {shape : Shape α} {inner : Option (Reader α)} (null : p shape.null)
    (bool : ∀ b, p (shape.bool b)) (number : Yields p shape.number) (text : Yields p shape.text)
    (array : ∀ reader, inner = some reader → Yields p (shape.array reader))
    (object : ∀ reader, inner = some reader → Yields p (shape.object reader)) :
    Yields p (shape.step inner) := by
  refine yields_bind fun x => .ite number <| yields_bind fun _ => .ite (yields_bind fun _ => yields_pure null) <|
    .ite (yields_bind fun _ => yields_pure (bool true)) <|
    .ite (yields_bind fun _ => yields_pure (bool false)) <| .ite text ?_
  cases inner with
  | none => exact yields_throw _
  | some reader => exact .ite (array reader rfl) (.ite (object reader rfl) (yields_throw _))

/-! ### Values -/

namespace Value

theorem depthOfItems_le_iff {items : List Value} {d : Nat} :
    depthOfItems items ≤ d ↔ ∀ v ∈ items, v.depth ≤ d := by
  induction items with
  | nil => simp [depthOfItems]
  | cons v rest ih => rw [depthOfItems, Nat.max_le, ih, List.forall_mem_cons]

/-- No object in the value has a name twice, and it nests at most `d` deep. -/
structure IsRegular (d : Nat) (v : Value) : Prop where
  distinct : v.IsDistinct
  depth : v.depth ≤ d

theorem isRegular_arr {d : Nat} {items : List Value} (h : ∀ v ∈ items, v.IsRegular d) :
    (Value.arr items).IsRegular (d + 1) where
  distinct := ⟨trivial, everywhereItems_iff.mpr fun v hv => (h v hv).distinct⟩
  depth := Nat.succ_le_succ (depthOfItems_le_iff.mpr fun v hv => (h v hv).depth)

theorem isRegular_obj {d : Nat} {o : Object} (hdist : Assoc.Distinct o)
    (h : ∀ m ∈ o, m.2.IsRegular d) : (Value.obj o).IsRegular (d + 1) where
  distinct := isDistinct_obj_iff.mpr ⟨hdist, fun m hm => (h m hm).distinct⟩
  depth := Nat.succ_le_succ (depthOfMembers_le_iff.mpr fun m hm => (h m hm).depth)

theorem isRegular_of_literal {l : Literal} {v : Value} (h : l.value? = some v) (d : Nat) :
    v.IsRegular d := by
  rw [Literal.value?] at h
  split at h
  · cases h
    exact ⟨trivial, Nat.zero_le d⟩
  · obtain ⟨x, -, rfl⟩ := Option.map_eq_some_iff.mp h
    exact ⟨trivial, Nat.zero_le d⟩

end Value

theorem yields_number (d : Nat) : Yields (Value.IsRegular d) number := by
  refine yields_bind fun l => ?_
  cases hv : l.value? with
  | none => exact yields_throw _
  | some v => exact yields_pure (Value.isRegular_of_literal hv d)

/-- The members of an object that is being read. -/
structure Gathers (d : Nat) (o : Object) : Prop where
  distinct : Assoc.Distinct o
  members : ∀ m ∈ o, m.2.IsRegular d

theorem yields_member {d : Nat} {reader : Reader Value} (h : Yields (Value.IsRegular d) reader) (o : Object)
    (ho : Gathers d o) : Yields (Gathers d) (member reader o) := by
  refine yields_bind fun name => yields_bind fun _ => h.bind fun v hv => yields_pure ?_
  refine ⟨Assoc.distinct_insert ho.distinct name v, fun m hm => ?_⟩
  rcases Assoc.mem_insert hm with hm | rfl
  · exact ho.members m hm
  · exact hv

/-- A value is regular if what may stand in it is, one level below. -/
theorem yields_building {d : Nat} {inner : Option (Reader Value)}
    (h : ∀ reader, inner = some reader → ∃ k, d = k + 1 ∧ Yields (Value.IsRegular k) reader) :
    Yields (Value.IsRegular d) (building.step inner) := by
  refine building.yields_step ⟨trivial, Nat.zero_le d⟩ (fun b => ⟨trivial, Nat.zero_le d⟩) (yields_number d)
    ?_ ?_ ?_
  · exact Yields.map (p := fun _ => True) (fun _ _ _ _ => trivial) fun s _ => ⟨trivial, Nat.zero_le d⟩
  · intro reader hreader
    obtain ⟨k, rfl, hk⟩ := h reader hreader
    exact (yields_items hk).map fun items => Value.isRegular_arr
  · intro reader hreader
    obtain ⟨k, rfl, hk⟩ := h reader hreader
    have hempty : Gathers k [] := ⟨List.nodup_nil, List.forall_mem_nil _⟩
    exact (yields_members (yields_member hk) hempty).map fun o ho =>
      Value.isRegular_obj ho.distinct ho.members

/-- A value that is read has distinct names and is as deep as the reader goes at most. -/
theorem yields_value (d : Nat) : Yields (Value.IsRegular d) (value d) := by
  induction d with
  | zero =>
    show Yields _ (building.step none)
    exact yields_building nofun
  | succ d ih =>
    show Yields _ (building.step (some (value d)))
    refine yields_building fun reader hreader => ⟨d, rfl, ?_⟩
    rwa [← Option.some.inj hreader]

theorem yields_object (d : Nat) : Yields (fun o => (Value.obj o).IsRegular d) (object d) := by
  intro b o rest h
  obtain ⟨v, hv, rfl⟩ := simulates_object d b o rest h
  exact yields_value d b _ rest hv

end DidToken.Json
