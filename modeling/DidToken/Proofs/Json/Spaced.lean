import DidToken.Proofs.Json.Reading
/-!
# Arrays and objects with blanks

Blanks may stand around every item, name and value (`Spaced`, `MemberText`). The loops pass over them: an array is
read item by item (`items_spaced`), and the members of an object lead from one state to the next
(`members_spaced`). What the loop over members has come to may depend on all the members before, so the states are
given by the members that have been taken.
-/

namespace DidToken.Json

variable {α β σ : Type}

/-! ### Words between blanks -/

/-- A word and the blanks around it. -/
structure Spaced where
  before : Bytes
  word : Bytes
  after : Bytes
  blank_before : ∀ x ∈ before, isBlank x = true
  blank_after : ∀ x ∈ after, isBlank x = true

def Spaced.bytes (s : Spaced) : Bytes :=
  s.before ++ (s.word ++ s.after)

/-- A member of an object. -/
structure MemberText where
  name : Spaced
  value : Spaced

def MemberText.bytes (m : MemberText) : Bytes :=
  m.name.bytes ++ 0x3a :: m.value.bytes

theorem Spaced.length_word_le (p : Spaced) : p.word.length ≤ p.bytes.length := by
  rw [bytes, List.length_append, List.length_append]
  omega

theorem MemberText.length_word_le (m : MemberText) : m.value.word.length ≤ m.bytes.length := by
  have := m.value.length_word_le
  rw [bytes, List.length_append, List.length_cons]
  omega

/-! ### Blanks are passed over -/

theorem bind_congr_apply {x : Reader α} {f : α → Reader β} {b c : Bytes} (h : x b = x c) :
    (x >>= f) b = (x >>= f) c := by
  show Except.bind (x b) _ = Except.bind (x c) _
  rw [h]

section Blanks

variable {w : Bytes} (hw : ∀ x ∈ w, isBlank x = true) (b : Bytes)
include hw

theorem skipBlanks_append : skipBlanks (w ++ b) = skipBlanks b := by
  rw [skipBlanks, skipBlanks, List.dropWhile_append_of_pos hw]

theorem mark_append : mark (w ++ b) = mark b :=
  bind_congr_apply (skipBlanks_append hw b)

theorem peekMark_append : peekMark (w ++ b) = peekMark b :=
  bind_congr_apply (skipBlanks_append hw b)

theorem colon_append : colon (w ++ b) = colon b :=
  bind_congr_apply (mark_append hw b)

end Blanks

/-! ### Loops over parts -/

theorem length_le_intercalate {w : Bytes} {ws : List Bytes} (h : w ∈ ws) :
    w.length ≤ ([0x2c].intercalate ws).length := by
  induction ws with
  | nil => cases h
  | cons u us ih =>
    cases us with
    | nil =>
      obtain rfl := List.mem_singleton.mp h
      exact Nat.le_of_eq (congrArg List.length List.intercalate_singleton.symm)
    | cons v vs =>
      rw [List.intercalate_cons_cons, List.length_append, List.length_append]
      rcases List.mem_cons.mp h with rfl | h
      · omega
      · have := ih h
        omega

section Parts

variable {round : σ → Reader (Round σ α)} {parts : List β} {w : β → Bytes} (state : List β → σ) {result : α}
  {close : UInt8}
  (more : ∀ before p after, parts = before ++ p :: after → ∀ rest,
    round (state before) (w p ++ 0x2c :: rest) = .ok (.again (state (before ++ [p])), rest))
  (last : ∀ before p, parts = before ++ [p] → ∀ rest,
    round (state before) (w p ++ close :: rest) = .ok (.done result, rest))
include more last

/-- The rounds of a loop over parts with commas between them. The state is what comes of the parts that have
been taken, and there are no more rounds than parts. -/
theorem rounds_parts (rest : Bytes) {before after : List β} (hparts : parts = before ++ after)
    (hafter : after ≠ []) {n : Nat} (hn : after.length ≤ n) :
    rounds round n (state before) ([0x2c].intercalate (after.map w) ++ close :: rest) = .ok (result, rest) := by
  -- on the parts that are still to come
  induction after generalizing before n with
  | nil => exact absurd rfl hafter
  | cons p ps ih =>
    obtain ⟨n, rfl⟩ := Nat.exists_eq_succ_of_ne_zero (Nat.ne_zero_of_lt hn)
    cases ps with
    | nil =>
      rw [Nat.succ_eq_add_one, rounds_succ, List.map_cons, List.map_nil, List.intercalate_singleton,
        last before p hparts]
    | cons q qs =>
      have hstep : parts = (before ++ [p]) ++ q :: qs := by
        rw [hparts, List.append_assoc, List.singleton_append]
      rw [Nat.succ_eq_add_one, rounds_succ, List.map_cons, List.map_cons, List.intercalate_cons_cons,
        List.append_assoc, List.append_assoc, List.singleton_append, more before p (q :: qs) hparts]
      exact ih hstep (List.cons_ne_nil _ _) (Nat.le_of_succ_le_succ hn)

/-- A loop over parts, when the blanks before the first part are gone. -/
theorem loop_parts {p : β} {ps : List β} (hparts : parts = p :: ps) {blanks tail : Bytes}
    (hfirst : w p = blanks ++ tail)
    (hround : ∀ b, round (state []) (blanks ++ b) = round (state []) b) (rest : Bytes) :
    ∃ b, [0x2c].intercalate (parts.map w) ++ close :: rest = blanks ++ (tail ++ b)
      ∧ loop round (state []) (tail ++ b) = .ok (result, rest) := by
  obtain ⟨b, hb, hlength⟩ := exists_intercalate_cons (w p) (ps.map w) (close :: rest)
  have htext : [0x2c].intercalate (parts.map w) ++ close :: rest = blanks ++ (tail ++ b) := by
    rw [hparts, List.map_cons, hb, hfirst, List.append_assoc]
  refine ⟨b, htext, ?_⟩
  have hcount : parts.length ≤ (tail ++ b).length + 1 := by
    rw [hparts]
    simp only [List.length_map, List.length_cons, List.length_append] at hlength ⊢
    omega
  have hrounds := rounds_parts state more last rest (List.nil_append parts).symm
    (hparts ▸ List.cons_ne_nil p ps) hcount
  rw [htext, rounds_succ, hround] at hrounds
  rw [loop, rounds_succ, hrounds]

end Parts

/-! ### Arrays -/

/-- An item is taken, and the blanks after it are left. -/
def Spaced.Gives (item : Reader α) (p : Spaced) (a : α) : Prop :=
  ∀ rest, Follows rest → item (p.bytes ++ rest) = .ok (a, p.after ++ rest)

section Items

variable {item : Reader α} {p : Spaced} {a : α}

theorem itemsRound_more_of_gives (h : p.Gives item a) (done : List α) (rest : Bytes) :
    itemsRound item done (p.bytes ++ 0x2c :: rest) = .ok (.again (a :: done), rest) := by
  rw [itemsRound, bind_apply_of_ok (h _ (follows_comma rest)),
    bind_apply_of_ok ((mark_append p.blank_after _).trans (mark_cons (by decide) rest))]
  rfl

theorem itemsRound_last_of_gives (h : p.Gives item a) (done : List α) (rest : Bytes) :
    itemsRound item done (p.bytes ++ 0x5d :: rest) = .ok (.done (a :: done).reverse, rest) := by
  rw [itemsRound, bind_apply_of_ok (h _ (follows_bracket rest)),
    bind_apply_of_ok ((mark_append p.blank_after _).trans (mark_cons (by decide) rest))]
  rfl

/-- An array with blanks is read item by item. -/
theorem items_spaced {parts : List Spaced} {f : Spaced → α} (hparts : parts ≠ [])
    (h : ∀ p ∈ parts, p.Gives item (f p))
    (hfirst : ∀ p ∈ parts, ∃ x tail, p.word = x :: tail ∧ isBlank x = false ∧ x ≠ 0x5d)
    (hitem : ∀ w, (∀ x ∈ w, isBlank x = true) → ∀ b, item (w ++ b) = item b) (rest : Bytes) :
    items item ([0x2c].intercalate (parts.map Spaced.bytes) ++ 0x5d :: rest) = .ok (parts.map f, rest) := by
  cases parts with
  | nil => exact absurd rfl hparts
  | cons p ps =>
    obtain ⟨x, tail, hword, hblank, hne⟩ := hfirst p (List.mem_cons_self ..)
    have hmem : ∀ {before q after}, p :: ps = before ++ q :: after → q ∈ p :: ps := fun heq => by
      rw [heq]
      exact List.mem_append_right _ (List.mem_cons_self ..)
    have hmore : ∀ before q after, p :: ps = before ++ q :: after → ∀ rest,
        itemsRound item (before.map f).reverse (q.bytes ++ 0x2c :: rest)
          = .ok (.again ((before ++ [q]).map f).reverse, rest) := fun before q after heq rest => by
      rw [itemsRound_more_of_gives (h q (hmem heq)), List.map_append, List.reverse_append]
      rfl
    have hlast : ∀ before q, p :: ps = before ++ [q] → ∀ rest,
        itemsRound item (before.map f).reverse (q.bytes ++ 0x5d :: rest)
          = .ok (.done ((p :: ps).map f), rest) := fun before q heq rest => by
      rw [itemsRound_last_of_gives (h q (hmem heq)), heq, List.map_append, List.reverse_cons,
        List.reverse_reverse]
      rfl
    obtain ⟨b, htext, hloop⟩ := loop_parts (fun before => (before.map f).reverse) hmore hlast rfl
      (show p.bytes = _ from rfl) (fun b => bind_congr_apply (hitem _ p.blank_before b)) rest
    rw [hword, List.append_assoc, List.cons_append] at htext hloop
    rw [items, htext, bind_apply_of_ok ((peekMark_append p.blank_before _).trans (peekMark_cons hblank _)),
      if_neg hne]
    exact hloop

end Items

/-- Nothing but blanks between the brackets. -/
theorem items_blanks {w : Bytes} (hw : ∀ x ∈ w, isBlank x = true) (item : Reader α) (rest : Bytes) :
    items item (w ++ 0x5d :: rest) = .ok ([], rest) := by
  rw [items, bind_apply_of_ok ((peekMark_append hw _).trans (peekMark_cons (by decide) rest)), if_pos rfl]
  rfl

/-! ### Objects -/

theorem MemberText.bytes_append {m : MemberText} {body : Bytes}
    (hword : m.name.word = quoteByte :: (body ++ [quoteByte])) (b : Bytes) :
    m.bytes ++ b
      = m.name.before ++ quoteByte :: (body ++ quoteByte :: (m.name.after ++ 0x3a :: (m.value.bytes ++ b))) := by
  rw [bytes, Spaced.bytes, hword]
  simp only [List.append_assoc, List.cons_append, List.nil_append]

/-- After the opening quote of its name, a member is taken and leads from one state to another. The blanks
after its value are left. -/
def MemberText.Leads (member : σ → Reader σ) (m : MemberText) (s t : σ) : Prop :=
  ∃ body, m.name.word = quoteByte :: (body ++ [quoteByte]) ∧ ∀ rest, Follows rest →
    member s (body ++ quoteByte :: (m.name.after ++ 0x3a :: (m.value.bytes ++ rest)))
      = .ok (t, m.value.after ++ rest)

section Members

variable {member : σ → Reader σ} {m : MemberText} {s t : σ}

theorem membersRound_append {w : Bytes} (hw : ∀ x ∈ w, isBlank x = true) (b : Bytes) :
    membersRound member s (w ++ b) = membersRound member s b :=
  bind_congr_apply (mark_append hw b)

theorem membersRound_more_of_leads (h : m.Leads member s t) (rest : Bytes) :
    membersRound member s (m.bytes ++ 0x2c :: rest) = .ok (.again t, rest) := by
  obtain ⟨body, hword, hmember⟩ := h
  rw [MemberText.bytes_append hword, membersRound_append m.name.blank_before, membersRound,
    bind_apply_of_ok (mark_cons (by decide) _), if_pos rfl, bind_apply_of_ok (hmember _ (follows_comma rest)),
    bind_apply_of_ok ((mark_append m.value.blank_after _).trans (mark_cons (by decide) rest))]
  rfl

theorem membersRound_last_of_leads (h : m.Leads member s t) (rest : Bytes) :
    membersRound member s (m.bytes ++ 0x7d :: rest) = .ok (.done t, rest) := by
  obtain ⟨body, hword, hmember⟩ := h
  rw [MemberText.bytes_append hword, membersRound_append m.name.blank_before, membersRound,
    bind_apply_of_ok (mark_cons (by decide) _), if_pos rfl, bind_apply_of_ok (hmember _ (follows_brace rest)),
    bind_apply_of_ok ((mark_append m.value.blank_after _).trans (mark_cons (by decide) rest))]
  rfl

/-- Nothing but blanks between the braces. -/
theorem members_blanks {w : Bytes} (hw : ∀ x ∈ w, isBlank x = true) (rest : Bytes) :
    members member s (w ++ 0x7d :: rest) = .ok (s, rest) := by
  rw [members, bind_apply_of_ok ((peekMark_append hw _).trans (peekMark_cons (by decide) rest)), if_pos rfl]
  rfl

/-- An object with blanks is read member by member, and the members lead from state to state. -/
theorem members_spaced {parts : List β} {w : β → MemberText} (state : List β → σ)
    (h : ∀ before p after, parts = before ++ p :: after →
      (w p).Leads member (state before) (state (before ++ [p]))) (rest : Bytes) :
    members member (state []) ([0x2c].intercalate (parts.map fun p => (w p).bytes) ++ 0x7d :: rest)
      = .ok (state parts, rest) := by
  cases parts with
  | nil => exact members_blanks (List.forall_mem_nil _) rest
  | cons p ps =>
    obtain ⟨body, hword, -⟩ := h [] p ps rfl
    have hlast : ∀ before q, p :: ps = before ++ [q] → ∀ rest,
        membersRound member (state before) ((w q).bytes ++ 0x7d :: rest)
          = .ok (.done (state (p :: ps)), rest) := fun before q heq => by
      rw [heq]
      exact membersRound_last_of_leads (h before q [] heq)
    have hfirst := MemberText.bytes_append hword []
    rw [List.append_nil] at hfirst
    obtain ⟨b, htext, hloop⟩ := loop_parts state
      (fun before q after heq => membersRound_more_of_leads (h before q after heq)) hlast rfl hfirst
      (fun b => membersRound_append (w p).name.blank_before b) rest
    rw [List.cons_append] at htext hloop
    rw [members, htext,
      bind_apply_of_ok ((peekMark_append (w p).name.blank_before _).trans (peekMark_cons (by decide) _)),
      if_neg (by decide)]
    exact hloop

end Members

end DidToken.Json
