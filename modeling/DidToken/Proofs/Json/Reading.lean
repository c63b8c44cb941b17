import DidToken.Json.Reader
/-!
# Readers on texts whose parts are known

A reader is a function on all texts; what is said here is how it acts on a text that begins with a
part it is meant for. `Takes reader w res` says that the reader takes `w` off the front, wherever `w`
stands, and makes `res` of it. The two loops pass this on from items to arrays (`items_intercalate`)
and from members to objects (`members_intercalate`): an array is read item by item, and the first
problem among the items, from left to right, is the problem of the array.
-/

namespace DidToken.Json

variable {α β σ μ : Type}

/-! ### Running readers -/

theorem bind_apply_of_ok {x : Reader α} {f : α → Reader β} {b rest : Bytes} {a : α}
    (h : x b = .ok (a, rest)) : (x >>= f) b = f a rest := by
  show Except.bind (x b) _ = _
  rw [h]
  rfl

theorem bind_apply_of_error {x : Reader α} {f : α → Reader β} {b : Bytes} {e : Fault}
    (h : x b = .error e) : (x >>= f) b = .error e := by
  show Except.bind (x b) _ = _
  rw [h]
  rfl

@[simp] theorem pure_apply (a : α) (b : Bytes) : (pure a : Reader α) b = .ok (a, b) := rfl

/-- A successful sequence of two readers is a success of the first and then of the second. -/
theorem bind_apply_eq_ok {x : Reader α} {f : α → Reader β} {b rest : Bytes} {c : β}
    (h : (x >>= f) b = .ok (c, rest)) : ∃ a mid, x b = .ok (a, mid) ∧ f a mid = .ok (c, rest) := by
  cases hx : x b with
  | error e => rw [bind_apply_of_error hx] at h; cases h
  | ok r => exact ⟨r.1, r.2, rfl, (bind_apply_of_ok hx).symm.trans h⟩

@[simp] theorem byte_cons (x : UInt8) (b : Bytes) : byte (x :: b) = .ok (x, b) := rfl

theorem skipBlanks_cons {x : UInt8} (h : isBlank x = false) (b : Bytes) :
    skipBlanks (x :: b) = .ok ((), x :: b) := by
  rw [skipBlanks, List.dropWhile_cons_of_neg (by simp [h])]

theorem peekMark_cons {x : UInt8} (h : isBlank x = false) (b : Bytes) :
    peekMark (x :: b) = .ok (x, x :: b) := by
  rw [peekMark, bind_apply_of_ok (skipBlanks_cons h b)]
  rfl

theorem mark_cons {x : UInt8} (h : isBlank x = false) (b : Bytes) :
    mark (x :: b) = .ok (x, b) := by
  rw [mark, bind_apply_of_ok (skipBlanks_cons h b)]
  rfl

theorem colon_cons (b : Bytes) : colon (0x3a :: b) = .ok ((), b) := by
  rw [colon, bind_apply_of_ok (mark_cons (by decide) b)]
  rfl

theorem expect_cons (x : UInt8) (b : Bytes) : expect x (x :: b) = .ok ((), b) := by
  rw [expect, bind_apply_of_ok (byte_cons x b), if_pos rfl]
  rfl

theorem expectAll_append (w b : Bytes) : expectAll w (w ++ b) = .ok ((), b) := by
  induction w with
  | nil => rfl
  | cons x rest ih =>
    rw [expectAll, List.cons_append, bind_apply_of_ok (expect_cons x _)]
    exact ih

/-! ### Readers only take off the front -/

/-- What is left is never longer than the text. -/
def Shrinks (reader : Reader α) : Prop :=
  ∀ b a rest, reader b = .ok (a, rest) → rest.length ≤ b.length

theorem shrinks_pure (a : α) : Shrinks (pure a : Reader α) := by
  intro b c rest h
  cases h
  exact Nat.le_refl _

theorem shrinks_throw (e : Fault) : Shrinks (throw e : Reader α) := by
  intro b c rest h
  cases h

theorem Shrinks.bind {x : Reader α} {f : α → Reader β} (hx : Shrinks x) (hf : ∀ a, Shrinks (f a)) :
    Shrinks (x >>= f) := by
  intro b c rest h
  obtain ⟨a, mid, hxb, hfa⟩ := bind_apply_eq_ok h
  exact Nat.le_trans (hf a mid c rest hfa) (hx b a mid hxb)

theorem Shrinks.ite {p : Prop} [Decidable p] {x y : Reader α} (hx : Shrinks x) (hy : Shrinks y) :
    Shrinks (if p then x else y) := by
  split
  · exact hx
  · exact hy

theorem length_of_byte_eq_ok {b rest : Bytes} {x : UInt8} (h : byte b = .ok (x, rest)) :
    b.length = rest.length + 1 := by
  cases b with
  | nil => cases h
  | cons y tail => cases h; rfl

theorem shrinks_byte : Shrinks byte := by
  intro b x rest h
  have := length_of_byte_eq_ok h
  omega

theorem shrinks_expect (x : UInt8) : Shrinks (expect x) :=
  shrinks_byte.bind fun _ => .ite (shrinks_pure ()) (shrinks_throw _)

/-- A reader that begins with a byte takes at least that byte. -/
theorem length_lt_of_byte_bind {f : UInt8 → Reader β} (hf : ∀ x, Shrinks (f x)) {b rest : Bytes}
    {c : β} (h : (byte >>= f) b = .ok (c, rest)) : rest.length < b.length := by
  obtain ⟨x, mid, hb, hfx⟩ := bind_apply_eq_ok h
  have := length_of_byte_eq_ok hb
  have := hf x mid c rest hfx
  omega

/-! ### What readers take -/

/-- What may stand after a value: nothing, or what separates or closes. -/
def Follows : Bytes → Prop
  | [] => True
  | x :: _ => x = 0x2c ∨ x = 0x5d ∨ x = 0x7d

theorem follows_comma (b : Bytes) : Follows (0x2c :: b) := Or.inl rfl

theorem follows_bracket (b : Bytes) : Follows (0x5d :: b) := Or.inr (Or.inl rfl)

theorem follows_brace (b : Bytes) : Follows (0x7d :: b) := Or.inr (Or.inr rfl)

/-- Wherever `w` stands, the reader takes it off the front and makes `res` of it. -/
def Takes (reader : Reader α) (w : Bytes) (res : Except Fault α) : Prop :=
  ∀ rest, Follows rest → reader (w ++ rest) = res.map fun a => (a, rest)

theorem Takes.apply_ok {reader : Reader α} {w rest : Bytes} {res : Except Fault α} {a : α}
    (h : Takes reader w res) (hres : res = .ok a) (hrest : Follows rest) :
    reader (w ++ rest) = .ok (a, rest) := by
  rw [h rest hrest, hres]
  rfl

theorem Takes.apply_error {reader : Reader α} {w rest : Bytes} {res : Except Fault α} {e : Fault}
    (h : Takes reader w res) (hres : res = .error e) (hrest : Follows rest) :
    reader (w ++ rest) = .error e := by
  rw [h rest hrest, hres]
  rfl

/-- What is made of a text by a reader is handed on to a pure step. -/
theorem Takes.bind {reader : Reader α} {w : Bytes} {res : Except Fault α} (h : Takes reader w res)
    {f : α → Reader β} {g : α → Except Fault β}
    (hf : ∀ a b, f a b = (g a).map fun c => (c, b)) : Takes (reader >>= f) w (res >>= g) := by
  intro rest hrest
  cases hres : res with
  | error e => exact bind_apply_of_error (h.apply_error hres hrest)
  | ok a => exact (bind_apply_of_ok (h.apply_ok hres hrest)).trans (hf a rest)

/-- A whole text is read if it is one that a reader takes. -/
theorem Takes.whole {reader : Reader α} {w : Bytes} {res : Except Fault α}
    (h : Takes reader w res) : whole reader w = res := by
  have hw := h [] trivial
  rw [List.append_nil] at hw
  rw [Json.whole, hw]
  cases res <;> rfl

/-! ### Parts with commas between them -/

/-- A first part is followed by as many bytes as there are other parts, at least. -/
theorem exists_intercalate_cons (w : Bytes) (ws : List Bytes) (b : Bytes) :
    ∃ more, [0x2c].intercalate (w :: ws) ++ b = w ++ more ∧ ws.length + b.length ≤ more.length := by
  induction ws generalizing w with
  | nil => exact ⟨b, by rw [List.intercalate_singleton], by simp⟩
  | cons u us ih =>
    obtain ⟨more, hmore, hlength⟩ := ih u
    refine ⟨0x2c :: (u ++ more), ?_, ?_⟩
    · rw [List.intercalate_cons_cons, List.append_assoc, List.append_assoc, hmore, List.singleton_append]
    · simp only [List.length_cons, List.length_append]
      omega

/-! ### Arrays -/

section Arrays

variable {item : Reader α} {w : β → Bytes} {res : β → Except Fault α}

/-- A round over the last item. -/
theorem itemsRound_last {u : Bytes} {r : Except Fault α} (h : Takes item u r) (done : List α)
    (rest : Bytes) :
    itemsRound item done (u ++ 0x5d :: rest)
      = r.map fun a => (.done (a :: done).reverse, rest) := by
  cases hr : r with
  | error e => exact bind_apply_of_error (h.apply_error hr (follows_bracket rest))
  | ok a =>
    rw [itemsRound, bind_apply_of_ok (h.apply_ok hr (follows_bracket rest)),
      bind_apply_of_ok (mark_cons (by decide) rest)]
    rfl

/-- A round over an item that others follow. -/
theorem itemsRound_more {u : Bytes} {r : Except Fault α} (h : Takes item u r) (done : List α)
    (rest : Bytes) :
    itemsRound item done (u ++ 0x2c :: rest) = r.map fun a => (.again (a :: done), rest) := by
  cases hr : r with
  | error e => exact bind_apply_of_error (h.apply_error hr (follows_comma rest))
  | ok a =>
    rw [itemsRound, bind_apply_of_ok (h.apply_ok hr (follows_comma rest)),
      bind_apply_of_ok (mark_cons (by decide) rest)]
    rfl

/-- The rounds over all items, the first of which is there. Each leaves at least a comma behind, so the
count of rounds suffices. -/
theorem rounds_itemsRound {v : β} {vs : List β} (h : ∀ u ∈ v :: vs, Takes item (w u) (res u))
    (rest : Bytes) {n : Nat} (hn : ([0x2c].intercalate ((v :: vs).map w)).length < n)
    (done : List α) :
    rounds (itemsRound item) n done ([0x2c].intercalate ((v :: vs).map w) ++ 0x5d :: rest)
      = ((v :: vs).mapM res).map fun as => (done.reverse ++ as, rest) := by
  -- on the items after the first, which decides whether a comma or the bracket follows
  induction vs generalizing v n done with
  | nil =>
    obtain ⟨n, rfl⟩ := Nat.exists_eq_succ_of_ne_zero (Nat.ne_zero_of_lt hn)
    rw [Nat.succ_eq_add_one, rounds_succ, List.map_cons, List.map_nil, List.intercalate_singleton,
      itemsRound_last (h v (List.mem_cons_self ..)), List.mapM_cons, List.mapM_nil]
    cases res v with
    | error e => rfl
    | ok a =>
      show Except.ok ((a :: done).reverse, rest) = Except.ok (done.reverse ++ [a], rest)
      rw [List.reverse_cons]
  | cons u us ih =>
    obtain ⟨n, rfl⟩ := Nat.exists_eq_succ_of_ne_zero (Nat.ne_zero_of_lt hn)
    rw [List.map_cons, List.map_cons, List.intercalate_cons_cons] at hn ⊢
    rw [← List.map_cons] at hn ⊢
    simp only [List.length_append, List.length_cons, List.length_nil] at hn
    -- the comma alone pays for the round
    have htail := @ih u (fun t ht => h t (List.mem_cons_of_mem _ ht)) n (by omega)
    rw [Nat.succ_eq_add_one, rounds_succ, List.append_assoc, List.append_assoc, List.singleton_append,
      itemsRound_more (h v (List.mem_cons_self ..)), List.mapM_cons]
    cases res v with
    | error e => rfl
    | ok a =>
      show rounds (itemsRound item) n (a :: done) _ = _
      rw [htail (a :: done)]
      show _ = Except.map _ (Except.bind ((u :: us).mapM res) _)
      cases (u :: us).mapM res with
      | error e => rfl
      | ok as =>
        show Except.ok ((a :: done).reverse ++ as, rest) = Except.ok (done.reverse ++ a :: as, rest)
        rw [List.reverse_cons, List.append_assoc, List.singleton_append]

/-- An array after its opening bracket is read item by item. -/
theorem items_intercalate {vs : List β} (h : ∀ v ∈ vs, Takes item (w v) (res v))
    (hw : ∀ v ∈ vs, ∃ x tail, w v = x :: tail ∧ isBlank x = false ∧ x ≠ 0x5d) (rest : Bytes) :
    items item ([0x2c].intercalate (vs.map w) ++ 0x5d :: rest)
      = (vs.mapM res).map fun as => (as, rest) := by
  cases vs with
  | nil =>
    show items item (0x5d :: rest) = _
    rw [items, bind_apply_of_ok (peekMark_cons (by decide) rest)]
    rfl
  | cons v vs =>
    -- the first byte is that of the first item, so the bracket does not close at once
    obtain ⟨x, tail, hx, hblank, hne⟩ := hw v (List.mem_cons_self ..)
    have hstart : ∃ more, [0x2c].intercalate ((v :: vs).map w) ++ 0x5d :: rest = x :: more := by
      obtain ⟨more, hmore, -⟩ := exists_intercalate_cons (w v) (vs.map w) (0x5d :: rest)
      exact ⟨tail ++ more, by rw [List.map_cons, hmore, hx, List.cons_append]⟩
    obtain ⟨more, hmore⟩ := hstart
    have hrounds := rounds_itemsRound h rest (n := (x :: more).length + 1)
      (by rw [← hmore, List.length_append]; omega) []
    rw [items, hmore, bind_apply_of_ok (peekMark_cons hblank more), if_neg hne, loop, ← hmore]
    rw [← hmore] at hrounds
    exact hrounds

end Arrays

/-! ### Objects -/

section Objects

variable {member : σ → Reader σ} {w : μ → Bytes} {step : σ → μ → Except Fault σ}

/-- A round over the last member. -/
theorem membersRound_last {u : Bytes} {s : σ} {r : Except Fault σ} (h : Takes (member s) u r)
    (rest : Bytes) :
    membersRound member s (quoteByte :: (u ++ 0x7d :: rest)) = r.map fun t => (.done t, rest) := by
  rw [membersRound, bind_apply_of_ok (mark_cons (by decide) _), if_pos rfl]
  cases hr : r with
  | error e => exact bind_apply_of_error (h.apply_error hr (follows_brace rest))
  | ok t =>
    rw [bind_apply_of_ok (h.apply_ok hr (follows_brace rest)),
      bind_apply_of_ok (mark_cons (by decide) rest)]
    rfl

/-- A round over a member that others follow. -/
theorem membersRound_more {u : Bytes} {s : σ} {r : Except Fault σ} (h : Takes (member s) u r)
    (rest : Bytes) :
    membersRound member s (quoteByte :: (u ++ 0x2c :: rest)) = r.map fun t => (.again t, rest) := by
  rw [membersRound, bind_apply_of_ok (mark_cons (by decide) _), if_pos rfl]
  cases hr : r with
  | error e => exact bind_apply_of_error (h.apply_error hr (follows_comma rest))
  | ok t =>
    rw [bind_apply_of_ok (h.apply_ok hr (follows_comma rest)),
      bind_apply_of_ok (mark_cons (by decide) rest)]
    rfl

/-- The rounds over all members, the first of which is there. -/
theorem rounds_membersRound {m : μ} {ms : List μ}
    (h : ∀ k ∈ m :: ms, ∀ s, Takes (member s) (w k) (step s k)) (rest : Bytes) {n : Nat}
    (hn : ([0x2c].intercalate ((m :: ms).map fun k => quoteByte :: w k)).length < n) (s : σ) :
    rounds (membersRound member) n s
        ([0x2c].intercalate ((m :: ms).map fun k => quoteByte :: w k) ++ 0x7d :: rest)
      = ((m :: ms).foldlM step s).map fun t => (t, rest) := by
  -- as for arrays, but here every member begins with a quote
  induction ms generalizing m n s with
  | nil =>
    obtain ⟨n, rfl⟩ := Nat.exists_eq_succ_of_ne_zero (Nat.ne_zero_of_lt hn)
    rw [Nat.succ_eq_add_one, rounds_succ, List.map_cons, List.map_nil, List.intercalate_singleton,
      List.cons_append, membersRound_last (h m (List.mem_cons_self ..) s), List.foldlM_cons]
    cases step s m <;> rfl
  | cons k ks ih =>
    obtain ⟨n, rfl⟩ := Nat.exists_eq_succ_of_ne_zero (Nat.ne_zero_of_lt hn)
    rw [List.map_cons, List.map_cons, List.intercalate_cons_cons] at hn ⊢
    rw [← List.map_cons (f := fun k => quoteByte :: w k)] at hn ⊢
    simp only [List.length_append, List.length_cons, List.length_nil] at hn
    have htail := @ih k (fun t ht => h t (List.mem_cons_of_mem _ ht)) n (by omega)
    rw [Nat.succ_eq_add_one, rounds_succ, List.append_assoc, List.append_assoc, List.cons_append,
      List.singleton_append, membersRound_more (h m (List.mem_cons_self ..) s), List.foldlM_cons]
    cases step s m with
    | error e => rfl
    | ok t => exact htail t

/-- An object after its opening brace is read member by member. -/
theorem members_intercalate {ms : List μ}
    (h : ∀ m ∈ ms, ∀ s, Takes (member s) (w m) (step s m)) (start : σ) (rest : Bytes) :
    members member start ([0x2c].intercalate (ms.map fun m => quoteByte :: w m) ++ 0x7d :: rest)
      = (ms.foldlM step start).map fun t => (t, rest) := by
  cases ms with
  | nil =>
    show members member start (0x7d :: rest) = _
    rw [members, bind_apply_of_ok (peekMark_cons (by decide) rest)]
    rfl
  | cons m ms =>
    have hstart : ∃ more, [0x2c].intercalate ((m :: ms).map fun k => quoteByte :: w k) ++ 0x7d :: rest
        = quoteByte :: more := by
      obtain ⟨more, hmore, -⟩ := exists_intercalate_cons (quoteByte :: w m)
        (ms.map fun k => quoteByte :: w k) (0x7d :: rest)
      exact ⟨w m ++ more, by rw [List.map_cons, hmore, List.cons_append]⟩
    obtain ⟨more, hmore⟩ := hstart
    have hrounds := rounds_membersRound h rest (n := (quoteByte :: more).length + 1)
      (by rw [← hmore, List.length_append]; omega) start
    rw [members, hmore, bind_apply_of_ok (peekMark_cons (by decide) more), if_neg (by decide), loop,
      ← hmore]
    rw [← hmore] at hrounds
    exact hrounds

end Objects

end DidToken.Json
