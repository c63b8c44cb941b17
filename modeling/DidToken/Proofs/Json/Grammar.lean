import DidToken.Proofs.Json.RoundTrip
import DidToken.Proofs.Json.Spaced
/-!
# Passing over grammatical values

The grammar of JSON on bytes (`IsValue`): blanks may stand around every item, name and value, numbers are of any
size, escapes in strings may be half a pair of surrogates, and containers nest to any depth. Passing over a value
takes exactly its text (`walk_of_isValue`, `Spaced.gives_skip`). The induction is on the grammar; the depth that
`skip` allows is the length of the text, and a container is longer than what stands in it.
-/

namespace DidToken.Json

variable {α β σ : Type}

/-! ### Grammar -/

inductive IsFraction : Bytes → Prop
  | absent : IsFraction []
  | point {digits : Bytes} (h : IsDigits digits) : IsFraction (0x2e :: digits)

inductive IsExponent : Bytes → Prop
  | absent : IsExponent []
  | letter {x : UInt8} {sign digits : Bytes} (hletter : x ∈ [0x65, 0x45])
      (hsign : sign ∈ [[], [0x2b], [0x2d]]) (h : IsDigits digits) : IsExponent (x :: (sign ++ digits))

/-- A number. A zero before the point stands alone. -/
inductive IsNumber : Bytes → Prop
  | mk {sign whole fraction exponent : Bytes} (hsign : sign ∈ [[], [0x2d]]) (hwhole : IsDigits whole)
      (hzero : whole.head? = some 0x30 → whole = [0x30]) (hfraction : IsFraction fraction)
      (hexponent : IsExponent exponent) : IsNumber (sign ++ (whole ++ (fraction ++ exponent)))

/-- Four hexadecimal digits, in either case, and their number. -/
inductive IsUnit : Bytes → Nat → Prop
  | mk {x y z t : UInt8} {a b c d : Nat} (hx : Text.Hex.value? x = some a) (hy : Text.Hex.value? y = some b)
      (hz : Text.Hex.value? z = some c) (ht : Text.Hex.value? t = some d) :
      IsUnit [x, y, z, t] (16 * (16 * (16 * a + b) + c) + d)

/-- The letters that stand for a character after a backslash. -/
def escapes : List (UInt8 × Char) :=
  [(0x22, '"'), (0x5c, '\\'), (0x2f, '/'), (0x62, '\x08'), (0x66, '\x0c'), (0x6e, '\n'), (0x72, '\r'),
   (0x74, '\t')]

/-- What may stand between the quotes of a string. The number of an escape may be half a pair of surrogates. -/
inductive IsBody : Bytes → Prop
  | nil : IsBody []
  | plain {x : UInt8} {body : Bytes} (hquote : x ≠ quoteByte) (hbackslash : x ≠ backslash) (hcontrol : 0x20 ≤ x)
      (h : IsBody body) : IsBody (x :: body)
  | letter {x : UInt8} {c : Char} {body : Bytes} (hletter : (x, c) ∈ escapes) (h : IsBody body) :
      IsBody (backslash :: x :: body)
  | number {w body : Bytes} {n : Nat} (hunit : IsUnit w n) (h : IsBody body) :
      IsBody (backslash :: 0x75 :: (w ++ body))

def IsString (w : Bytes) : Prop :=
  ∃ body, IsBody body ∧ w = quoteByte :: (body ++ [quoteByte])

/-- A value, without the blanks around it. -/
inductive IsValue : Bytes → Prop
  | null : IsValue [0x6e, 0x75, 0x6c, 0x6c]
  | yes : IsValue [0x74, 0x72, 0x75, 0x65]
  | no : IsValue [0x66, 0x61, 0x6c, 0x73, 0x65]
  | number {w : Bytes} (h : IsNumber w) : IsValue w
  | string {w : Bytes} (h : IsString w) : IsValue w
  | noItems {blanks : Bytes} (h : ∀ x ∈ blanks, isBlank x = true) : IsValue (0x5b :: (blanks ++ [0x5d]))
  | items {parts : List Spaced} (hparts : parts ≠ []) (h : ∀ p ∈ parts, IsValue p.word) :
      IsValue (0x5b :: ([0x2c].intercalate (parts.map Spaced.bytes) ++ [0x5d]))
  | noMembers {blanks : Bytes} (h : ∀ x ∈ blanks, isBlank x = true) : IsValue (0x7b :: (blanks ++ [0x7d]))
  | members {parts : List MemberText} (hparts : parts ≠ []) (hname : ∀ m ∈ parts, IsString m.name.word)
      (h : ∀ m ∈ parts, IsValue m.value.word) :
      IsValue (0x7b :: ([0x2c].intercalate (parts.map MemberText.bytes) ++ [0x7d]))

/-! ### Numbers -/

/-- What both branches hand on is read alike. -/
theorem ite_bind_apply_of_ok {p : Prop} [Decidable p] {x y : Reader α} {f : α → Reader β} {b rest : Bytes} {a : α}
    (h : (if p then x else y) b = .ok (a, rest)) : (if p then x >>= f else y >>= f) b = f a rest := by
  split at h
  · next hp => rw [if_pos hp, bind_apply_of_ok h]
  · next hp => rw [if_neg hp, bind_apply_of_ok h]

namespace Literal

theorem exponentDigits_of_isDigits (atEnd : Fault) {sign ds rest : Bytes} (hsign : sign ∈ [[], [0x2b], [0x2d]])
    (h : IsDigits ds) (hrest : ∀ x ∈ rest.head?, isDigit x = false) :
    ∃ e, exponentDigits atEnd (sign ++ (ds ++ rest)) = .ok (e, rest) := by
  have hds := someDigits_of_isDigits atEnd h hrest
  have hhead := head_isDigits h rest
  have hminus := takes_of_head fun x hx => (isDigit_spec (hhead x hx)).1
  have hplus := takes_of_head fun x hx => (isDigit_spec (hhead x hx)).2.1
  simp only [List.mem_cons, List.not_mem_nil, or_false] at hsign
  rcases hsign with rfl | rfl | rfl
  · exact ⟨_, (bind_apply_of_ok hminus).trans ((bind_apply_of_ok hplus).trans (bind_apply_of_ok hds))⟩
  · exact ⟨_, (bind_apply_of_ok (takes_of_head (by rintro x ⟨⟩; decide))).trans
      ((bind_apply_of_ok (takes_cons (by decide) _)).trans (bind_apply_of_ok hds))⟩
  · exact ⟨_, (bind_apply_of_ok (takes_cons (by decide) _)).trans
      ((bind_apply_of_ok (pure_apply false _)).trans (bind_apply_of_ok hds))⟩

theorem takes_sign {sign w : Bytes} (hsign : sign ∈ [[], [0x2d]]) (hw : ∀ x ∈ w.head?, isDigit x = true) :
    ∃ isNegative, takes [0x2d] (sign ++ w) = .ok (isNegative, w) := by
  simp only [List.mem_cons, List.not_mem_nil, or_false] at hsign
  rcases hsign with rfl | rfl
  · exact ⟨false, takes_of_head fun x hx => (isDigit_spec (hw x hx)).1⟩
  · exact ⟨true, takes_cons (by decide) w⟩

theorem takes_fraction (atEnd : Fault) {fraction rest : Bytes} (h : IsFraction fraction)
    (hrest : ∀ x ∈ rest.head?, isDigit x = false ∧ x ∉ [0x2e]) :
    ∃ isThere mid ds, takes [0x2e] (fraction ++ rest) = .ok (isThere, mid)
      ∧ (if isThere then someDigits atEnd else pure []) mid = .ok (ds, rest) := by
  cases h with
  | absent => exact ⟨false, rest, [], takes_of_head fun x hx => (hrest x hx).2, rfl⟩
  | point h =>
    exact ⟨true, _, _, takes_cons (by decide) _, someDigits_of_isDigits atEnd h fun x hx => (hrest x hx).1⟩

theorem takes_exponent (atEnd : Fault) {exponent rest : Bytes} (h : IsExponent exponent)
    (hrest : ∀ x ∈ rest.head?, isDigit x = false ∧ x ∉ [0x65, 0x45]) :
    ∃ isThere mid e, takes [0x65, 0x45] (exponent ++ rest) = .ok (isThere, mid)
      ∧ (if isThere then some <$> exponentDigits atEnd else pure none) mid = .ok (e, rest) := by
  cases h with
  | absent => exact ⟨false, rest, none, takes_of_head fun x hx => (hrest x hx).2, rfl⟩
  | @letter x sign digits hletter hsign h =>
    obtain ⟨e, he⟩ := exponentDigits_of_isDigits atEnd hsign h fun x hx => (hrest x hx).1
    refine ⟨true, sign ++ (digits ++ rest), some e, ?_, ?_⟩
    · rw [List.cons_append, List.append_assoc]
      exact takes_cons hletter _
    · rw [if_pos rfl, map_apply, he]
      rfl

/-- The first byte after the digits of a fraction. -/
theorem head_exponent {exponent rest : Bytes} (h : IsExponent exponent) (hrest : Stops rest) :
    ∀ x ∈ (exponent ++ rest).head?, isDigit x = false ∧ x ∉ [0x2e] := by
  cases h with
  | absent =>
    exact fun x hx => ⟨(hrest.head x hx).1, (hrest.head x hx).2.1⟩
  | @letter x sign digits hletter =>
    have hletters : ∀ x ∈ ([0x65, 0x45] : Bytes), isDigit x = false ∧ x ∉ [0x2e] :=
      List.forall_mem_cons.mpr ⟨by decide, List.forall_mem_singleton.mpr (by decide)⟩
    rintro y ⟨⟩
    exact hletters x hletter

/-- The first byte after the digits before the point. -/
theorem head_fraction {fraction rest : Bytes} (h : IsFraction fraction)
    (hrest : ∀ x ∈ rest.head?, isDigit x = false) : ∀ x ∈ (fraction ++ rest).head?, isDigit x = false := by
  cases h with
  | absent => exact hrest
  | point =>
    rintro x ⟨⟩
    decide

/-- A number begins with a sign or a digit. -/
theorem eq_cons_of_isNumber {w : Bytes} (h : IsNumber w) :
    ∃ x tail, w = x :: tail ∧ (x = 0x2d || isDigit x) = true ∧ isBlank x = false ∧ x ≠ 0x5d := by
  obtain @⟨sign, whole, fraction, exponent, hsign, hwhole, -, -, -⟩ := h
  simp only [List.mem_cons, List.not_mem_nil, or_false] at hsign
  rcases hsign with rfl | rfl
  · cases whole with
    | nil => exact absurd rfl hwhole.ne_nil
    | cons x tail =>
      have hx := hwhole.digit x (List.mem_cons_self ..)
      obtain ⟨-, -, -, hblank, hne⟩ := isDigit_spec hx
      exact ⟨x, _, rfl, by rw [hx, Bool.or_true], hblank, hne⟩
  · exact ⟨0x2d, _, rfl, by decide, by decide, by decide⟩

/-- A number is taken up to where it ends. -/
theorem read_of_isNumber (atEnd : Fault) {w rest : Bytes} (h : IsNumber w) (hrest : Stops rest) :
    ∃ l, read atEnd (w ++ rest) = .ok (l, rest) := by
  obtain @⟨sign, whole, fraction, exponent, hsign, hwhole, hzero, hfraction, hexponent⟩ := h
  have hafter := head_exponent hexponent hrest
  obtain ⟨isNegative, hminus⟩ := takes_sign hsign (head_isDigits hwhole (fraction ++ (exponent ++ rest)))
  obtain ⟨hasFraction, mid, ds, hpoint, hds⟩ := takes_fraction atEnd hfraction hafter
  obtain ⟨hasExponent, mid', e, hletter, he⟩ := takes_exponent atEnd hexponent fun x hx =>
    ⟨(hrest.head x hx).1, (hrest.head x hx).2.2⟩
  have hdigits := wholeDigits_of_isDigits atEnd hwhole hzero
    (head_fraction hfraction fun x hx => (hafter x hx).1)
  rw [List.append_assoc, List.append_assoc, List.append_assoc]
  refine ⟨⟨isNegative, whole.map fun x => x.toNat - 0x30, ds, e⟩, ?_⟩
  rw [read, bind_apply_of_ok hminus, bind_apply_of_ok hdigits, bind_apply_of_ok hpoint, ite_bind_apply_of_ok hds]
  exact (bind_apply_of_ok hletter).trans (ite_bind_apply_of_ok he)

end Literal

/-! ### Strings -/

theorem shrinks_skipEscaped : Shrinks skipEscaped :=
  shrinks_byte.bind fun _ => .ite (shrinks_codeUnit.bind fun _ => shrinks_pure _) <|
    .ite (shrinks_pure _) (shrinks_throw _)

theorem progresses_skipTextRound : Progresses skipTextRound := by
  intro s b next rest h
  exact length_lt_of_byte_bind (fun x => .ite (shrinks_pure _) <|
    .ite (shrinks_skipEscaped.bind fun _ => shrinks_pure _) <| .ite (shrinks_throw _) (shrinks_pure _)) h

/-- A part of a string that is not its end is passed over. -/
theorem loop_skipTextRound {w b : Bytes} (h : skipTextRound () w = .ok (.again (), b)) :
    loop skipTextRound () w = loop skipTextRound () b := by
  rw [loop_eq progresses_skipTextRound, h]

theorem skipTextRound_escaped {w b : Bytes} (h : skipEscaped w = .ok ((), b)) :
    skipTextRound () (backslash :: w) = .ok (.again (), b) := by
  rw [skipTextRound, bind_apply_of_ok (byte_cons backslash w), if_neg (by decide), if_pos rfl,
    bind_apply_of_ok h]
  rfl

/-- A letter after a backslash is read as the character that it stands for. -/
theorem unescape?_of_mem_escapes {x : UInt8} {c : Char} (h : (x, c) ∈ escapes) :
    x ≠ 0x75 ∧ ∃ y, unescape? x = some y ∧ Bytes.utf8 c = [y] := by
  have hall : ∀ e ∈ escapes, e.1 ≠ 0x75 ∧ ∃ y ∈ unescape? e.1, Bytes.utf8 e.2 = [y] := by decide
  exact hall _ h

theorem codeUnit_of_isUnit {w : Bytes} {n : Nat} (h : IsUnit w n) (rest : Bytes) :
    codeUnit (w ++ rest) = .ok (n, rest) := by
  obtain @⟨x, y, z, t, a, b, c, d, hx, hy, hz, ht⟩ := h
  have hdigits : [x, y, z, t].mapM Text.Hex.value? = some [a, b, c, d] := by
    simp only [List.mapM_cons, List.mapM_nil, hx, hy, hz, ht]
    rfl
  show codeUnit (x :: y :: z :: t :: rest) = _
  simp only [codeUnit, hdigits, List.foldl_cons, List.foldl_nil, Nat.mul_zero, Nat.zero_add]

/-- A string is passed over after its opening quote. -/
theorem skipText_of_isBody {body : Bytes} (h : IsBody body) (rest : Bytes) :
    skipText (body ++ quoteByte :: rest) = .ok ((), rest) := by
  induction h with
  | nil =>
    rw [skipText, List.nil_append, loop_eq progresses_skipTextRound, skipTextRound,
      bind_apply_of_ok (byte_cons quoteByte rest), if_pos rfl]
    rfl
  | @plain x body hquote hbackslash hcontrol h ih =>
    have hround : skipTextRound () (x :: (body ++ quoteByte :: rest))
        = .ok (.again (), body ++ quoteByte :: rest) := by
      rw [skipTextRound, bind_apply_of_ok (byte_cons x _), if_neg hquote, if_neg hbackslash,
        if_neg (UInt8.not_lt.mpr hcontrol)]
      rfl
    exact (loop_skipTextRound hround).trans ih
  | @letter x c body hletter h ih =>
    obtain ⟨hu, y, hy, -⟩ := unescape?_of_mem_escapes hletter
    have hescaped : skipEscaped (x :: (body ++ quoteByte :: rest)) = .ok ((), body ++ quoteByte :: rest) := by
      rw [skipEscaped, bind_apply_of_ok (byte_cons x _), if_neg hu, hy]
      rfl
    exact (loop_skipTextRound (skipTextRound_escaped hescaped)).trans ih
  | @number w body n hunit h ih =>
    have hescaped : skipEscaped (0x75 :: (w ++ (body ++ quoteByte :: rest)))
        = .ok ((), body ++ quoteByte :: rest) := by
      rw [skipEscaped, bind_apply_of_ok (byte_cons 0x75 _), if_pos rfl,
        bind_apply_of_ok (codeUnit_of_isUnit hunit _)]
      rfl
    rw [List.cons_append, List.cons_append, List.append_assoc]
    exact (loop_skipTextRound (skipTextRound_escaped hescaped)).trans ih

/-! ### Values -/

/-- The first byte of a value. -/
theorem IsValue.eq_cons {w : Bytes} (h : IsValue w) : ∃ x tail, w = x :: tail ∧ isBlank x = false ∧ x ≠ 0x5d := by
  cases h with
  | null => exact ⟨_, _, rfl, by decide, by decide⟩
  | yes => exact ⟨_, _, rfl, by decide, by decide⟩
  | no => exact ⟨_, _, rfl, by decide, by decide⟩
  | number h =>
    obtain ⟨x, tail, hw, -, hblank, hne⟩ := Literal.eq_cons_of_isNumber h
    exact ⟨x, tail, hw, hblank, hne⟩
  | string h =>
    obtain ⟨body, -, rfl⟩ := h
    exact ⟨_, _, rfl, by decide, by decide⟩
  | noItems => exact ⟨_, _, rfl, by decide, by decide⟩
  | items => exact ⟨_, _, rfl, by decide, by decide⟩
  | noMembers => exact ⟨_, _, rfl, by decide, by decide⟩
  | members => exact ⟨_, _, rfl, by decide, by decide⟩

theorem Shape.walk_append (shape : Shape α) (d : Nat) {w : Bytes} (hw : ∀ x ∈ w, isBlank x = true) (b : Bytes) :
    shape.walk d (w ++ b) = shape.walk d b := by
  cases d with
  | zero => exact bind_congr_apply (peekMark_append hw b)
  | succ d => exact bind_congr_apply (peekMark_append hw b)

/-- What is no container is read alike at every depth. -/
theorem Shape.walk_of_step {shape : Shape α} {b : Bytes} {res : Except Fault (α × Bytes)}
    (h : ∀ inner, shape.step inner b = res) (d : Nat) : shape.walk d b = res := by
  cases d with
  | zero => exact h none
  | succ d => exact h (some (shape.walk d))

/-- An item is passed over, and the blanks before it too. -/
theorem Spaced.gives_of_walk {p : Spaced} {d : Nat}
    (h : ∀ rest, Stops rest → skipping.walk d (p.word ++ rest) = .ok ((), rest)) :
    p.Gives (skipping.walk d) () := by
  intro rest hrest
  rw [bytes, List.append_assoc, List.append_assoc, Shape.walk_append _ _ p.blank_before]
  exact h _ (hrest.stops.blanks p.blank_after)

/-- A member is passed over: its name as a string, and its value. -/
theorem MemberText.leads_of_walk {m : MemberText} {d : Nat} (hname : IsString m.name.word)
    (h : m.value.Gives (skipping.walk d) ()) : m.Leads (skipMember (skipping.walk d)) () () := by
  obtain ⟨body, hbody, hword⟩ := hname
  refine ⟨body, hword, fun rest hrest => ?_⟩
  rw [skipMember, bind_apply_of_ok (skipText_of_isBody hbody _),
    bind_apply_of_ok ((colon_append m.name.blank_after _).trans (colon_cons _))]
  exact h rest hrest

/-- Every value is passed over by a walk that may go as deep as the value is long. -/
theorem walk_of_isValue {w : Bytes} (h : IsValue w) {d : Nat} (hd : w.length ≤ d) {rest : Bytes}
    (hrest : Stops rest) : skipping.walk d (w ++ rest) = .ok ((), rest) := by
  -- on the grammar, for walks of every depth: what stands in a container is shorter than the container
  induction h generalizing d rest with
  | null => exact Shape.walk_of_step (fun _ => Shape.step_null rest) d
  | yes => exact Shape.walk_of_step (fun _ => Shape.step_true rest) d
  | no => exact Shape.walk_of_step (fun _ => Shape.step_false rest) d
  | @number w h =>
    obtain ⟨x, tail, hw, hnumber, hblank, -⟩ := Literal.eq_cons_of_isNumber h
    obtain ⟨l, hl⟩ := Literal.read_of_isNumber .malformed h hrest
    refine Shape.walk_of_step (fun inner => ?_) d
    rw [hw, List.cons_append, Shape.step_number hnumber hblank, ← List.cons_append, ← hw]
    exact bind_apply_of_ok hl
  | string h =>
    obtain ⟨body, hbody, rfl⟩ := h
    refine Shape.walk_of_step (fun inner => ?_) d
    rw [List.cons_append, Shape.step_text, List.append_assoc]
    exact skipText_of_isBody hbody rest
  | noItems h =>
    obtain ⟨d, rfl⟩ := Nat.exists_eq_succ_of_ne_zero (Nat.ne_zero_of_lt hd)
    rw [List.cons_append, List.append_assoc]
    exact (Shape.step_array _ _).trans (bind_apply_of_ok (items_blanks h _ rest))
  | @items parts hparts h ih =>
    obtain ⟨d, rfl⟩ := Nat.exists_eq_succ_of_ne_zero (Nat.ne_zero_of_lt hd)
    simp only [List.length_cons, List.length_append] at hd
    have hgives : ∀ p ∈ parts, p.Gives (skipping.walk d) () := fun p hp => by
      have hlength := length_le_intercalate (List.mem_map_of_mem (f := Spaced.bytes) hp)
      have hword := p.length_word_le
      exact p.gives_of_walk fun rest hrest => ih p hp (by omega) hrest
    rw [List.cons_append, List.append_assoc]
    exact (Shape.step_array _ _).trans (bind_apply_of_ok (items_spaced hparts hgives
      (fun p hp => (h p hp).eq_cons) (fun w hw => Shape.walk_append skipping d hw) rest))
  | noMembers h =>
    obtain ⟨d, rfl⟩ := Nat.exists_eq_succ_of_ne_zero (Nat.ne_zero_of_lt hd)
    rw [List.cons_append, List.append_assoc]
    exact (Shape.step_object _ _).trans (members_blanks h rest)
  | @members parts hparts hname h ih =>
    obtain ⟨d, rfl⟩ := Nat.exists_eq_succ_of_ne_zero (Nat.ne_zero_of_lt hd)
    simp only [List.length_cons, List.length_append] at hd
    have hleads : ∀ m ∈ parts, m.Leads (skipMember (skipping.walk d)) () () := fun m hm => by
      have hlength := length_le_intercalate (List.mem_map_of_mem (f := MemberText.bytes) hm)
      have hword := m.length_word_le
      exact m.leads_of_walk (hname m hm) (m.value.gives_of_walk fun rest hrest => ih m hm (by omega) hrest)
    rw [List.cons_append, List.append_assoc]
    refine (Shape.step_object _ _).trans (members_spaced (fun _ => ()) (fun before m after heq => ?_) rest)
    exact hleads m (heq ▸ List.mem_append_right _ (List.mem_cons_self ..))

/-- A value is passed over, and the blanks before it too. -/
theorem Spaced.gives_skip {p : Spaced} (h : IsValue p.word) : p.Gives skip () := by
  intro rest hrest
  have hlength := p.length_word_le
  exact p.gives_of_walk
    (fun rest hrest => walk_of_isValue h (by rw [List.length_append]; omega) hrest) rest hrest

end DidToken.Json
