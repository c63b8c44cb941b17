import DidToken.Proofs.Json.Grammar
/-!
# Names in any spelling

A character may stand in a string as it is, as a letter after a backslash, or by its number: four hexadecimal
digits in either case, or a pair of surrogates beyond the basic plane (`IsSpelling`). However a name is spelled,
it is read as the name (`text_of_spells`), so what a member is called does not depend on how it is written.
-/

namespace DidToken.Json

open Bytes (utf8)

/-! ### Spellings -/

/-- A way to write a character inside a string. -/
inductive IsSpelling : Char → Bytes → Prop
  | plain {c : Char} (hquote : c ≠ '"') (hbackslash : c ≠ '\\') (hcontrol : ¬c.toNat < 0x20) :
      IsSpelling c (utf8 c)
  | letter {c : Char} {x : UInt8} (h : (x, c) ∈ escapes) : IsSpelling c [backslash, x]
  | number {c : Char} {w : Bytes} (h : IsUnit w c.toNat) : IsSpelling c (backslash :: 0x75 :: w)
  | pair {c : Char} {lead trail : Bytes} {n m : Nat} (hlead : IsUnit lead n) (htrail : IsUnit trail m)
      (hn : 0xd800 ≤ n ∧ n ≤ 0xdbff) (hm : 0xdc00 ≤ m ∧ m ≤ 0xdfff)
      (hc : c.toNat = 0x10000 + (n - 0xd800) * 0x400 + (m - 0xdc00)) :
      IsSpelling c (backslash :: 0x75 :: (lead ++ backslash :: 0x75 :: trail))

/-- What stands between the quotes of a string spells its characters. -/
inductive Spells : List Char → Bytes → Prop
  | nil : Spells [] []
  | cons {c : Char} {cs : List Char} {w body : Bytes} (h : IsSpelling c w) (hrest : Spells cs body) :
      Spells (c :: cs) (w ++ body)

/-- A member of a name, in any spelling, and a grammatical value. -/
structure MemberText.IsMember (m : MemberText) (name : String) : Prop where
  name : ∃ body, Spells name.toList body ∧ m.name.word = quoteByte :: (body ++ [quoteByte])
  value : IsValue m.value.word

/-! ### Reading -/

/-- The number of a character is not half a pair. -/
theorem isTrail_isLead_toNat (c : Char) : isTrail c.toNat = false ∧ isLead c.toNat = false := by
  have hvalid : c.toNat < 0xd800 ∨ 0xdfff < c.toNat ∧ c.toNat < 0x110000 := c.valid
  simp only [isTrail, isLead, Bool.and_eq_false_iff, decide_eq_false_iff_not]
  omega

theorem escaped_of_codePoint {w b : Bytes} {c : Char} (h : codePoint w = .ok (c, b)) :
    escaped (0x75 :: w) = .ok (utf8 c, b) := by
  rw [escaped, bind_apply_of_ok (byte_cons 0x75 w), if_pos rfl, bind_apply_of_ok h, Bytes.ofString_toString]
  rfl

theorem codePoint_of_isUnit {c : Char} {w : Bytes} (h : IsUnit w c.toNat) (b : Bytes) :
    codePoint (w ++ b) = .ok (c, b) := by
  obtain ⟨htrail, hlead⟩ := isTrail_isLead_toNat c
  rw [codePoint, bind_apply_of_ok (codeUnit_of_isUnit h b), if_neg (htrail ▸ Bool.false_ne_true),
    if_neg (hlead ▸ Bool.false_ne_true), Char.ofNat_toNat]
  rfl

theorem codePoint_of_pair {c : Char} {lead trail : Bytes} {n m : Nat} (hlead : IsUnit lead n)
    (htrail : IsUnit trail m) (hn : 0xd800 ≤ n ∧ n ≤ 0xdbff) (hm : 0xdc00 ≤ m ∧ m ≤ 0xdfff)
    (hc : c.toNat = 0x10000 + (n - 0xd800) * 0x400 + (m - 0xdc00)) (b : Bytes) :
    codePoint (lead ++ backslash :: 0x75 :: (trail ++ b)) = .ok (c, b) := by
  have hfirst : ¬isTrail n = true ∧ isLead n = true := by
    simp only [isTrail, isLead, Bool.and_eq_true, decide_eq_true_eq]
    omega
  have hsecond : isTrail m = true := by
    simp only [isTrail, Bool.and_eq_true, decide_eq_true_eq]
    omega
  rw [codePoint, bind_apply_of_ok (codeUnit_of_isUnit hlead _), if_neg hfirst.1, if_pos hfirst.2,
    bind_apply_of_ok (expect_cons backslash _), bind_apply_of_ok (expect_cons 0x75 _),
    bind_apply_of_ok (codeUnit_of_isUnit htrail b), if_pos hsecond, ← hc, Char.ofNat_toNat]
  rfl

/-- A character is read as its bytes, however it is written. -/
theorem loop_textRound_of_isSpelling {c : Char} {w : Bytes} (h : IsSpelling c w) (done b : Bytes) :
    loop textRound done (w ++ b) = loop textRound ((utf8 c).reverse ++ done) b := by
  cases h with
  | plain hquote hbackslash hcontrol =>
    exact loop_textRound_plains (fun x hx => plain_of_mem_utf8 hquote hbackslash hcontrol hx) done b
  | letter h =>
    obtain ⟨hu, y, hy, hc⟩ := unescape?_of_mem_escapes h
    rw [hc]
    exact loop_textRound_escaped (escaped_letter hu hy b) done
  | number h => exact loop_textRound_escaped (escaped_of_codePoint (codePoint_of_isUnit h b)) done
  | pair hlead htrail hn hm hc =>
    rw [List.cons_append, List.cons_append, List.append_assoc, List.cons_append, List.cons_append]
    exact loop_textRound_escaped (escaped_of_codePoint (codePoint_of_pair hlead htrail hn hm hc b)) done

theorem loop_textRound_of_spells {cs : List Char} {body : Bytes} (h : Spells cs body) (done b : Bytes) :
    loop textRound done (body ++ b) = loop textRound ((cs.flatMap utf8).reverse ++ done) b := by
  induction h generalizing done with
  | nil => rfl
  | cons h hrest ih =>
    rw [List.append_assoc, loop_textRound_of_isSpelling h, ih, List.flatMap_cons, List.reverse_append,
      List.append_assoc]

/-- A name is read after its opening quote, however it is spelled. -/
theorem text_of_spells {s : String} {body : Bytes} (h : Spells s.toList body) (b : Bytes) :
    text (body ++ quoteByte :: b) = .ok (s, b) := by
  rw [text, loop_textRound_of_spells h, loop_textRound_close]

end DidToken.Json
