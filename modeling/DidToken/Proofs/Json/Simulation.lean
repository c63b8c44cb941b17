import DidToken.Json.Record
import DidToken.Proofs.Checks
import DidToken.Proofs.Json.RoundTrip
/-!
# Typed readers accept no more than values

A typed reader walks over a text as the value reader does, and makes something else of it. Whenever it
succeeds, so does the value reader, on the same text and up to the same place (`Simulates`). This holds of
the scalar readers (`simulates_scalar`) and passes on through the loop over members: a record whose drafts
keep up with the object that is read from the same members (`Record.Mirrors`) is read from texts of such
objects only (`simulates_readObject`). Nothing is assumed of the text.
-/

namespace DidToken.Json

variable {α β γ ε σ τ δ : Type}

/-! ### Readers side by side -/

/-- Whenever the reader succeeds, the other one does, up to the same place and with a related result. -/
def Simulates (rel : α → β → Prop) (reader : Reader α) (other : Reader β) : Prop :=
  ∀ b a rest, reader b = .ok (a, rest) → ∃ c, other b = .ok (c, rest) ∧ rel a c

variable {rel : α → β → Prop}

theorem simulates_pure {a : α} {c : β} (h : rel a c) : Simulates rel (pure a) (pure c) := by
  intro b x rest hx
  cases hx
  exact ⟨c, rfl, h⟩

theorem simulates_throw (e : Fault) (other : Reader β) : Simulates rel (throw e) other := by
  intro b a rest h
  cases h

theorem Simulates.bind {rel' : γ → ε → Prop} {x : Reader α} {y : Reader β} {f : α → Reader γ}
    {g : β → Reader ε} (hx : Simulates rel x y)
    (hf : ∀ a c, rel a c → Simulates rel' (f a) (g c)) : Simulates rel' (x >>= f) (y >>= g) := by
  intro b r rest h
  obtain ⟨a, mid, hxb, hfa⟩ := bind_apply_eq_ok h
  obtain ⟨c, hyb, hac⟩ := hx b a mid hxb
  obtain ⟨t, hgc, hrt⟩ := hf a c hac mid r rest hfa
  exact ⟨t, (bind_apply_of_ok hyb).trans hgc, hrt⟩

/-- Both readers begin alike. -/
theorem Simulates.bind_left {x : Reader γ} {f : γ → Reader α} {g : γ → Reader β}
    (h : ∀ c, Simulates rel (f c) (g c)) : Simulates rel (x >>= f) (x >>= g) := by
  intro b a rest hb
  obtain ⟨c, mid, hx, hf⟩ := bind_apply_eq_ok hb
  obtain ⟨t, hg, ht⟩ := h c mid a rest hf
  exact ⟨t, (bind_apply_of_ok hx).trans hg, ht⟩

theorem Simulates.ite {p : Prop} [Decidable p] {x x' : Reader α} {y y' : Reader β}
    (h : Simulates rel x y) (h' : Simulates rel x' y') :
    Simulates rel (if p then x else x') (if p then y else y') := by
  split
  · exact h
  · exact h'

theorem Simulates.mono {rel' : α → β → Prop} {x : Reader α} {y : Reader β} (h : Simulates rel x y)
    (himp : ∀ a c, rel a c → rel' a c) : Simulates rel' x y := by
  intro b a rest hb
  obtain ⟨c, hy, hac⟩ := h b a rest hb
  exact ⟨c, hy, himp a c hac⟩

theorem simulates_refl (x : Reader α) : Simulates Eq x x := by
  intro b a rest h
  exact ⟨a, h, rfl⟩

/-- A whole text that one reader accepts is one that the other accepts. -/
theorem Simulates.whole {x : Reader α} {y : Reader β} (h : Simulates rel x y) {b : Bytes} {a : α}
    (ha : whole x b = .ok a) : ∃ c, whole y b = .ok c ∧ rel a c := by
  rw [Json.whole] at ha
  cases hx : x b with
  | error e => rw [hx] at ha; cases ha
  | ok r =>
    obtain ⟨a', rest⟩ := r
    rw [hx, ok_bind] at ha
    simp only at ha
    split at ha
    · next hrest =>
      cases ha
      obtain ⟨c, hy, hac⟩ := h b a rest hx
      refine ⟨c, ?_, hac⟩
      rw [Json.whole, hy, ok_bind]
      exact if_pos hrest
    · cases ha

/-! ### Loops side by side -/

/-- Rounds are related if both go on from related states or both are done with related results. -/
inductive Round.Rel (again : σ → τ → Prop) (done : α → β → Prop) : Round σ α → Round τ β → Prop
  | again {s : σ} {t : τ} (h : again s t) : Round.Rel again done (.again s) (.again t)
  | done {a : α} {c : β} (h : done a c) : Round.Rel again done (.done a) (.done c)

theorem simulates_rounds {again : σ → τ → Prop} {round : σ → Reader (Round σ α)}
    {other : τ → Reader (Round τ β)}
    (h : ∀ s t, again s t → Simulates (Round.Rel again rel) (round s) (other t)) (n : Nat) {s : σ} {t : τ}
    (hst : again s t) : Simulates rel (rounds round n s) (rounds other n t) := by
  induction n generalizing s t with
  | zero => exact simulates_throw _ _
  | succ n ih =>
    refine (h s t hst).bind fun r r' hr => ?_
    cases hr with
    | again hst' => exact ih hst'
    | done hac => exact simulates_pure hac

theorem simulates_members {again : σ → τ → Prop} {member : σ → Reader σ} {other : τ → Reader τ}
    (h : ∀ s t, again s t → Simulates again (member s) (other t)) {s : σ} {t : τ} (hst : again s t) :
    Simulates again (members member s) (members other t) := by
  have hround : ∀ s t, again s t →
      Simulates (Round.Rel again again) (membersRound member s) (membersRound other t) := fun s t hst =>
    .bind_left fun x => .ite
      ((h s t hst).bind fun s' t' hst' => .bind_left fun y => .ite (simulates_pure (.again hst')) <|
        .ite (simulates_pure (.done hst')) (simulates_throw _ _))
      (simulates_throw _ _)
  refine .bind_left fun x => .ite (.bind_left fun _ => simulates_pure hst) ?_
  -- the count of rounds is the same, since it comes from the text
  intro b a rest hb
  exact simulates_rounds hround (b.length + 1) hst b a rest hb

/-! ### Values -/

/-- The mark that is found is not blank and stays where it is. -/
theorem peekMark_eq_ok {b rest : Bytes} {x : UInt8} (h : peekMark b = .ok (x, rest)) :
    isBlank x = false ∧ ∃ tail, rest = x :: tail := by
  obtain ⟨_, mid, hblanks, hpeek⟩ := bind_apply_eq_ok h
  cases hblanks
  cases hmid : b.dropWhile isBlank with
  | nil => rw [hmid] at hpeek; cases hpeek
  | cons y tail =>
    rw [hmid] at hpeek
    cases hpeek
    refine ⟨?_, tail, rfl⟩
    have hne : b.dropWhile isBlank ≠ [] := by rw [hmid]; exact List.cons_ne_nil _ _
    have hhead := List.head_dropWhile_not isBlank hne
    simpa only [hmid, List.head_cons] using hhead

/-- A reader that begins with a mark does not depend on the blanks in front of it. -/
theorem peekMark_bind_of_eq_ok {b rest : Bytes} {x : UInt8} (h : peekMark b = .ok (x, rest))
    (f : UInt8 → Reader α) : (peekMark >>= f) b = (peekMark >>= f) rest := by
  obtain ⟨hblank, tail, rfl⟩ := peekMark_eq_ok h
  rw [bind_apply_of_ok h, bind_apply_of_ok (peekMark_cons hblank tail)]

theorem value_of_peekMark {b rest : Bytes} {x : UInt8} (h : peekMark b = .ok (x, rest)) (d : Nat) :
    value d b = value d rest := by
  obtain ⟨inner, hstep⟩ := value_eq_step d
  rw [hstep]
  exact peekMark_bind_of_eq_ok h _

/-- Where no containers may stand, nothing is read that would be read otherwise where they may. -/
theorem simulates_value_zero (d : Nat) : Simulates Eq (value 0) (value d) := by
  obtain ⟨inner, hstep⟩ := value_eq_step d
  rw [hstep]
  refine .bind_left fun x => .ite (simulates_refl _) <| .bind_left fun _ =>
    .ite (simulates_refl _) <| .ite (simulates_refl _) <| .ite (simulates_refl _) <|
      .ite (simulates_refl _) (simulates_throw _ _)

/-! ### Typed readers -/

/-- A scalar is a value that fits the view. -/
theorem simulates_scalar (view : Value → Option α) (d : Nat) :
    Simulates (fun a v => view v = some a) (scalar view) (value d) := by
  intro b a rest h
  obtain ⟨x, mid, hpeek, h⟩ := bind_apply_eq_ok h
  split at h
  · cases h
  · obtain ⟨v, mid', hvalue, h⟩ := bind_apply_eq_ok h
    obtain ⟨u, hu, rfl⟩ := simulates_value_zero d mid v mid' hvalue
    rw [value_of_peekMark hpeek]
    cases hview : view v with
    | none => rw [hview] at h; cases h
    | some c =>
      rw [hview] at h
      cases h
      exact ⟨v, hu, hview⟩

theorem simulates_object (d : Nat) :
    Simulates (fun o v => v = .obj o) (object d) (value d) := by
  intro b o rest h
  obtain ⟨x, mid, hpeek, h⟩ := bind_apply_eq_ok h
  split at h
  · obtain ⟨v, mid', hvalue, h⟩ := bind_apply_eq_ok h
    rw [value_of_peekMark hpeek]
    cases v with
    | obj members => cases h; exact ⟨_, hvalue, rfl⟩
    | _ => cases h
  · obtain ⟨v, -, hnone⟩ := simulates_scalar (fun _ => none) d mid o rest h
    cases hnone

theorem simulates_objectOrNull (d : Nat) :
    Simulates (fun o v => orNull Value.obj? v = some o) (objectOrNull d) (value d) := by
  intro b o rest h
  obtain ⟨x, mid, hpeek, h⟩ := bind_apply_eq_ok h
  rw [value_of_peekMark hpeek]
  split at h
  · rw [map_apply] at h
    cases hobject : object d mid with
    | error e => rw [hobject] at h; cases h
    | ok r =>
      obtain ⟨members, rest'⟩ := r
      rw [hobject] at h
      cases h
      obtain ⟨v, hv, rfl⟩ := simulates_object d mid members rest' hobject
      exact ⟨_, hv, rfl⟩
  · -- what is no object is null, the only value that fits the view
    obtain ⟨v, hv, hview⟩ := simulates_scalar (orNull fun _ => none) d mid o rest h
    cases v with
    | null => exact ⟨_, hv, hview⟩
    | _ => cases hview

/-! ### Records -/

/-- A field that is kept in one place of the draft is read from a value that fits. -/
theorem simulates_field_of {name : String} {reader : Reader β} {get : δ → Option β} {set : δ → β → δ}
    {mayBeMissing : Bool} {inner : Reader Value} {fits : β → Value → Prop} {rel : δ → Value → Prop}
    (h : Simulates fits reader inner) {d : δ} (hset : ∀ a v, fits a v → rel (set d a) v) :
    Simulates rel ((Field.of name reader get set mayBeMissing).read d) inner := by
  intro b d' rest hb
  obtain ⟨a, mid, hreader, hpure⟩ := bind_apply_eq_ok hb
  cases hpure
  obtain ⟨v, hv, hfits⟩ := h b a rest hreader
  exact ⟨v, hv, hset a v hfits⟩

namespace Record

/-- Drafts keep up with the objects that are read from the same members: what a member does to a draft
corresponds to its insertion into the object. -/
structure Mirrors (r : Record δ α) (inner : Reader Value) (rel : δ → Object → Prop) : Prop where
  empty : rel r.empty []
  field {name : String} {f : Field δ} {d : δ} {o : Object} : r.field? name = some f →
    f.isSet d = false → rel d o →
      Simulates (fun d' v => rel d' (Assoc.insert o name v)) (f.read d) inner
  unknown {name : String} {d : δ} {o : Object} : r.field? name = none → rel d o →
    Simulates (fun d' v => rel d' (Assoc.insert o name v)) (r.unknown name d) inner

variable {r : Record δ α} {inner : Reader Value} {rel : δ → Object → Prop}

theorem mem_fields_of_field? {f : Field δ} {name : String} (h : r.field? name = some f) :
    f ∈ r.fields ∧ f.name = name := by
  rw [field?] at h
  have hname := List.find?_some h
  exact ⟨List.mem_of_find?_eq_some h, of_decide_eq_true hname⟩

theorem Mirrors.simulates_member (h : r.Mirrors inner rel) {d : δ} {o : Object} (hdo : rel d o) :
    Simulates rel (r.member d) (Json.member inner o) := by
  refine .bind_left fun name => ?_
  -- after the value, the object takes it in and the draft is left as it is
  have hinsert : ∀ reader : Reader δ,
      Simulates (fun d' v => rel d' (Assoc.insert o name v)) reader inner →
        Simulates rel (colon >>= fun _ => reader)
          (colon >>= fun _ => inner >>= fun v => pure (Assoc.insert o name v)) := by
    intro reader hreader
    refine .bind_left fun _ b d' rest hb => ?_
    obtain ⟨v, hv, hrel⟩ := hreader b d' rest hb
    exact ⟨_, bind_apply_of_ok hv, hrel⟩
  cases hf : r.field? name with
  | some f =>
    cases hset : f.isSet d with
    | true =>
      simp only [hset, if_true]
      exact simulates_throw _ _
    | false =>
      simp only [hset, Bool.false_eq_true, if_false]
      exact hinsert _ (h.field hf hset hdo)
  | none => exact hinsert _ (h.unknown hf hdo)

/-- What is read as a record is read as an object, of which the record keeps what its last draft does. -/
theorem Mirrors.simulates_readObject {n : Nat} (h : r.Mirrors (value n) rel) :
    Simulates (fun a o => ∃ d, rel d o ∧ r.finish d = some a) r.readObject (object (n + 1)) := by
  intro b a rest hb
  obtain ⟨x, mid, hpeek, hb⟩ := bind_apply_eq_ok hb
  split at hb
  · next hx =>
    obtain ⟨hblank, tail, rfl⟩ := peekMark_eq_ok hpeek
    subst hx
    rw [bind_apply_of_ok (byte_cons _ _)] at hb
    obtain ⟨d, mid', hmembers, hclose⟩ := bind_apply_eq_ok hb
    obtain ⟨o, ho, hdo⟩ := simulates_members (fun _ _ => h.simulates_member) h.empty tail d mid' hmembers
    have hvalue : value (n + 1) (0x7b :: tail) = .ok (.obj o, mid') := by
      show building.step (some (value n)) _ = _
      rw [Shape.step_object]
      show (Value.obj <$> Json.members (Json.member (value n)) []) tail = _
      rw [map_apply, ho]
      rfl
    rw [close] at hclose
    cases hfinish : r.finish d with
    | none => rw [hfinish] at hclose; cases hclose
    | some c =>
      rw [hfinish] at hclose
      cases hclose
      refine ⟨o, ?_, d, hdo, hfinish⟩
      rw [object, bind_apply_of_ok hpeek, if_pos rfl, bind_apply_of_ok hvalue]
      rfl
  · obtain ⟨v, -, hnone⟩ := simulates_scalar (fun _ => none) 0 mid a rest hb
    cases hnone

end Record

end DidToken.Json
