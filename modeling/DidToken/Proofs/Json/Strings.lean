import DidToken.Json.Printer
import DidToken.Proofs.Json.Reading
import DidToken.Proofs.Text.Utf8
/-!
# Strings are read as they were written

Writing escapes some characters and leaves the others as their bytes. Reading undoes an escape
character by character (`loop_textRound_escape`), so that the bytes between the quotes come out as the
bytes of the text (`text_quoted`).
-/

namespace DidToken.Json

open Bytes (utf8)

/-! ### Reading strings takes bytes off the front -/

theorem shrinks_codeUnit : Shrinks codeUnit := by
  intro b n rest h
  match b with
  | [] | [_] | [_, _] | [_, _, _] => cases h
  | x :: y :: z :: w :: tail =>
    simp only [codeUnit] at h
    split at h
    · cases h
      simp only [List.length_cons]
      omega
    · cases h

theorem shrinks_codePoint : Shrinks codePoint :=
  shrinks_codeUnit.bind fun _ =>
    .ite (shrinks_throw _) <| .ite
      ((shrinks_expect _).bind fun _ => (shrinks_expect _).bind fun _ => shrinks_codeUnit.bind fun _ =>
        .ite (shrinks_pure _) (shrinks_throw _))
      (shrinks_pure _)

theorem shrinks_escaped : Shrinks escaped := by
  refine shrinks_byte.bind fun x => .ite (shrinks_codePoint.bind fun _ => shrinks_pure _) ?_
  cases unescape? x with
  | none => exact shrinks_throw _
  | some y => exact shrinks_pure _

theorem progresses_textRound : Progresses textRound := by
  intro done b next rest h
  refine length_lt_of_byte_bind (fun x => .ite ?_ <| .ite (shrinks_escaped.bind fun _ => shrinks_pure _) <|
    .ite (shrinks_throw _) (shrinks_pure _)) h
  cases Bytes.toString? done.reverse with
  | none => exact shrinks_throw _
  | some s => exact shrinks_pure _

/-! ### One part of a string -/

/-- A byte that needs no escape stands for itself. -/
theorem loop_textRound_plain {x : UInt8} (hq : x ≠ quoteByte) (hb : x ≠ backslash) (hs : 0x20 ≤ x)
    (done b : Bytes) : loop textRound done (x :: b) = loop textRound (x :: done) b := by
  have hround : textRound done (x :: b) = .ok (.again (x :: done), b) := by
    rw [textRound, bind_apply_of_ok (byte_cons x b), if_neg hq, if_neg hb, if_neg (UInt8.not_lt.mpr hs)]
    rfl
  rw [loop_eq progresses_textRound, hround]

theorem loop_textRound_plains {w : Bytes} (h : ∀ x ∈ w, x ≠ quoteByte ∧ x ≠ backslash ∧ 0x20 ≤ x)
    (done b : Bytes) : loop textRound done (w ++ b) = loop textRound (w.reverse ++ done) b := by
  induction w generalizing done with
  | nil => rfl
  | cons x rest ih =>
    obtain ⟨hq, hb, hs⟩ := h x (List.mem_cons_self ..)
    rw [List.cons_append, loop_textRound_plain hq hb hs, ih fun y hy => h y (List.mem_cons_of_mem _ hy),
      List.reverse_cons, List.append_assoc, List.singleton_append]

/-- A backslash and what follows it stand for the bytes that the escape is read as. -/
theorem loop_textRound_escaped {w e b : Bytes} (h : escaped w = .ok (e, b)) (done : Bytes) :
    loop textRound done (backslash :: w) = loop textRound (e.reverse ++ done) b := by
  have hround : textRound done (backslash :: w) = .ok (.again (e.reverse ++ done), b) := by
    rw [textRound, bind_apply_of_ok (byte_cons backslash w), if_neg (by decide), if_pos rfl,
      bind_apply_of_ok h]
    rfl
  rw [loop_eq progresses_textRound, hround]

/-- A letter after a backslash. -/
theorem escaped_letter {x y : UInt8} (hu : x ≠ 0x75) (h : unescape? x = some y) (b : Bytes) :
    escaped (x :: b) = .ok ([y], b) := by
  rw [escaped, bind_apply_of_ok (byte_cons x b), if_neg hu]
  simp only [h]
  rfl

theorem value?_digitChar : ∀ n < 16,
    Text.Hex.value? (UInt8.ofNat (Nat.digitChar n).toNat) = some n ∧ (Nat.digitChar n).toNat < 0x80 := by
  decide

/-- Four hexadecimal digits after `\u`, for a character below the surrogates whose first two digits are
zero. -/
theorem escaped_codeUnit {h l : Nat} (hh : h < 16) (hl : l < 16) (b : Bytes) :
    escaped (0x75 :: 0x30 :: 0x30 :: UInt8.ofNat (Nat.digitChar h).toNat
        :: UInt8.ofNat (Nat.digitChar l).toNat :: b)
      = .ok (utf8 (Char.ofNat (16 * h + l)), b) := by
  have hdigits : [0x30, 0x30, UInt8.ofNat (Nat.digitChar h).toNat,
      UInt8.ofNat (Nat.digitChar l).toNat].mapM Text.Hex.value? = some [0, 0, h, l] := by
    have hz : Text.Hex.value? 0x30 = some 0 := by decide
    simp only [List.mapM_cons, List.mapM_nil, hz, (value?_digitChar h hh).1, (value?_digitChar l hl).1]
    rfl
  have hunit : codeUnit (0x30 :: 0x30 :: UInt8.ofNat (Nat.digitChar h).toNat
      :: UInt8.ofNat (Nat.digitChar l).toNat :: b) = .ok (16 * h + l, b) := by
    simp only [codeUnit, hdigits, List.foldl_cons, List.foldl_nil]
    congr 2
    omega
  have hpoint : codePoint (0x30 :: 0x30 :: UInt8.ofNat (Nat.digitChar h).toNat
      :: UInt8.ofNat (Nat.digitChar l).toNat :: b) = .ok (Char.ofNat (16 * h + l), b) := by
    have htrail : ¬isTrail (16 * h + l) = true := by
      simp only [isTrail, Bool.and_eq_true, decide_eq_true_eq]
      omega
    have hlead : ¬isLead (16 * h + l) = true := by
      simp only [isLead, Bool.and_eq_true, decide_eq_true_eq]
      omega
    rw [codePoint, bind_apply_of_ok hunit, if_neg htrail, if_neg hlead]
    rfl
  rw [escaped, bind_apply_of_ok (byte_cons 0x75 _), if_pos rfl, bind_apply_of_ok hpoint,
    Bytes.ofString_toString]
  rfl

/-! ### Characters -/

/-- The letters of escapes are read as the characters that they are written for. -/
theorem escapeLetter?_eq_some {c letter : Char} (h : escapeLetter? c = some letter) :
    Bytes.ofString (String.ofList ['\\', letter]) = [backslash, UInt8.ofNat letter.toNat]
      ∧ UInt8.ofNat letter.toNat ≠ 0x75
      ∧ ∃ y, unescape? (UInt8.ofNat letter.toNat) = some y ∧ utf8 c = [y] := by
  unfold escapeLetter? at h
  split at h
  · next hc => subst hc; cases h; exact ⟨by decide, by decide, 0x08, by decide, by decide⟩
  split at h
  · next hc => subst hc; cases h; exact ⟨by decide, by decide, 0x09, by decide, by decide⟩
  split at h
  · next hc => subst hc; cases h; exact ⟨by decide, by decide, 0x0a, by decide, by decide⟩
  split at h
  · next hc => subst hc; cases h; exact ⟨by decide, by decide, 0x0c, by decide, by decide⟩
  split at h
  · next hc => subst hc; cases h; exact ⟨by decide, by decide, 0x0d, by decide, by decide⟩
  · cases h

/-- The bytes of a character that is written as it is need no escape. -/
theorem plain_of_mem_utf8 {c : Char} (hq : c ≠ '"') (hb : c ≠ '\\') (hs : ¬c.toNat < 0x20) {x : UInt8}
    (hx : x ∈ utf8 c) : x ≠ quoteByte ∧ x ≠ backslash ∧ 0x20 ≤ x := by
  have hne : ∀ d : Char, c ≠ d → c.toNat ≠ d.toNat := fun d hd heq => hd (by
    rw [← Char.ofNat_toNat c, heq, Char.ofNat_toNat])
  by_cases hlt : c.toNat < 0x80
  -- an ASCII character is its own byte; the bytes of others are above all three bounds
  · rw [Bytes.utf8_of_lt hlt, List.mem_singleton] at hx
    have hval : x.toNat = c.toNat := by
      rw [hx, UInt8.toNat_ofNat', Nat.mod_eq_of_lt (by omega)]
    have h1 : c.toNat ≠ 34 := hne '"' hq
    have h2 : c.toNat ≠ 92 := hne '\\' hb
    refine ⟨?_, ?_, ?_⟩
    · rintro rfl
      exact h1 hval.symm
    · rintro rfl
      exact h2 hval.symm
    · rw [UInt8.le_iff_toNat_le, hval]
      show 32 ≤ c.toNat
      omega
  · have hle := UInt8.le_iff_toNat_le.mp (Bytes.le_of_mem_utf8 (Nat.le_of_not_lt hlt) hx)
    have hge : 128 ≤ x.toNat := hle
    refine ⟨?_, ?_, ?_⟩
    · rintro rfl
      exact absurd hge (by decide)
    · rintro rfl
      exact absurd hge (by decide)
    · rw [UInt8.le_iff_toNat_le]
      show 32 ≤ x.toNat
      omega

/-- A character as it stands inside a string is read as its bytes. -/
theorem loop_textRound_escape (c : Char) (done b : Bytes) :
    loop textRound done (Bytes.ofString (escape c) ++ b)
      = loop textRound ((utf8 c).reverse ++ done) b := by
  unfold escape
  -- one case for each way of writing: quote, backslash, letter, number, as it is
  split
  · next hc =>
    subst hc
    exact loop_textRound_escaped (escaped_letter (by decide) (by decide) b) done
  next hq =>
  split
  · next hc =>
    subst hc
    exact loop_textRound_escaped (escaped_letter (by decide) (by decide) b) done
  next hb =>
  cases hl : escapeLetter? c with
  | some letter =>
    obtain ⟨hw, hu, y, hy, hc⟩ := escapeLetter?_eq_some hl
    simp only [hw, hc, List.cons_append, List.nil_append]
    exact loop_textRound_escaped (escaped_letter hu hy b) done
  | none =>
    simp only
    split
    · next hs =>
      have hhigh : c.toNat / 16 < 16 := by omega
      have hlow : c.toNat % 16 < 16 := Nat.mod_lt _ (by decide)
      have hw : Bytes.ofString (String.ofList ['\\', 'u', '0', '0', Nat.digitChar (c.toNat / 16),
            Nat.digitChar (c.toNat % 16)])
          = backslash :: 0x75 :: 0x30 :: 0x30 :: UInt8.ofNat (Nat.digitChar (c.toNat / 16)).toNat
            :: [UInt8.ofNat (Nat.digitChar (c.toNat % 16)).toNat] := by
        rw [Bytes.ofString_ofList_of_ascii]
        · rfl
        · have h1 := (value?_digitChar _ hhigh).2
          have h2 := (value?_digitChar _ hlow).2
          simp only [List.mem_cons, List.not_mem_nil, or_false]
          rintro d (rfl | rfl | rfl | rfl | rfl | rfl)
          · decide
          · decide
          · decide
          · decide
          · exact h1
          · exact h2
      -- the two digits are put together to the number of the character
      have hc : Char.ofNat (16 * (c.toNat / 16) + c.toNat % 16) = c := by
        rw [Nat.div_add_mod, Char.ofNat_toNat]
      have he := escaped_codeUnit hhigh hlow b
      rw [hc] at he
      rw [hw]
      exact loop_textRound_escaped he done
    · next hs =>
      rw [Bytes.ofString_toString]
      exact loop_textRound_plains (fun x hx => plain_of_mem_utf8 hq hb hs hx) done b

/-! ### Strings -/

/-- What stands between the quotes of a string. -/
def quotedBytes (s : String) : Bytes :=
  s.toList.flatMap fun c => Bytes.ofString (escape c)

theorem ofString_join (parts : List String) :
    Bytes.ofString (String.join parts) = parts.flatMap Bytes.ofString := by
  have h : Bytes.ofString = fun s => s.toList.flatMap utf8 := funext Bytes.ofString_eq_flatMap
  rw [Bytes.ofString_eq_flatMap, String.toList_join, List.flatMap_assoc, h]

theorem ofString_quote (s : String) :
    Bytes.ofString (quote s) = quoteByte :: (quotedBytes s ++ [quoteByte]) := by
  have hq : Bytes.ofString "\"" = [quoteByte] := by decide
  rw [quote, Bytes.ofString_append, Bytes.ofString_append, hq, ofString_join, List.flatMap_map]
  rfl

theorem loop_textRound_quoted (cs : List Char) (done b : Bytes) :
    loop textRound done (cs.flatMap (fun c => Bytes.ofString (escape c)) ++ b)
      = loop textRound ((cs.flatMap utf8).reverse ++ done) b := by
  induction cs generalizing done with
  | nil => rfl
  | cons c rest ih =>
    rw [List.flatMap_cons, List.append_assoc, loop_textRound_escape, ih, List.flatMap_cons,
      List.reverse_append, List.append_assoc]

/-- At the closing quote the bytes of a text are the text. -/
theorem loop_textRound_close (s : String) (b : Bytes) :
    loop textRound ((s.toList.flatMap utf8).reverse ++ []) (quoteByte :: b) = .ok (s, b) := by
  have hs : Bytes.toString? (((s.toList.flatMap utf8).reverse ++ []).reverse) = some s := by
    rw [List.append_nil, List.reverse_reverse, ← Bytes.ofString_eq_flatMap, Bytes.toString?_ofString]
  have hclose : textRound ((s.toList.flatMap utf8).reverse ++ []) (quoteByte :: b)
      = .ok (.done s, b) := by
    rw [textRound, bind_apply_of_ok (byte_cons quoteByte b), if_pos rfl]
    simp only [hs]
    rfl
  rw [loop_eq progresses_textRound, hclose]

/-- A string is read back after its opening quote. -/
theorem text_quoted (s : String) (b : Bytes) :
    text (quotedBytes s ++ quoteByte :: b) = .ok (s, b) := by
  rw [text, quotedBytes, loop_textRound_quoted, loop_textRound_close]

end DidToken.Json
