import DidToken.Proofs.Did
/-!
# DIDs and their texts

What is read as a DID is the text of that DID, and its method has no colon (`parse_eq_ok`). A DID can also be
made from a method and an identifier, of which neither has to come from a text. It is read back from its text
exactly if its method has no colon; otherwise the method that is read ends at the first colon, and what is left
of it goes to the identifier (`parse_text_iff`).
-/

namespace DidToken.Did

theorem eq_colon_of_dropWhile {cs rest : List Char} {c : Char}
    (h : cs.dropWhile (· ≠ ':') = c :: rest) : c = ':' := by
  have hhead := List.head?_dropWhile_not (fun c => decide (c ≠ ':')) cs
  rw [h] at hhead
  exact of_decide_eq_true (by simpa using hhead)

theorem not_mem_takeWhile (cs : List Char) : ':' ∉ cs.takeWhile (· ≠ ':') := by
  intro hmem
  exact of_decide_eq_true (List.all_eq_true.mp List.all_takeWhile ':' hmem) rfl

/-- Nothing of a text is lost in the DID that it is read as. -/
theorem parse_eq_ok {text : String} {did : Did} (h : parse text = .ok did) :
    did.text = text ∧ ':' ∉ did.method.toList := by
  rw [parse] at h
  split at h
  · next rest hrest =>
    split at h
    · next c identifier hdrop =>
      obtain ⟨hmethod, hidentifier⟩ := make_eq_ok_iff.mp h
      obtain rfl := eq_colon_of_dropWhile hdrop
      have hsplit : rest.takeWhile (· ≠ ':') ++ ':' :: identifier = rest := by
        rw [← hdrop, List.takeWhile_append_dropWhile]
      constructor
      · rw [← String.toList_inj, Did.text, toList_append, hmethod, hidentifier, String.toList_ofList,
          String.toList_ofList, hsplit, hrest]
      · rw [hmethod, String.toList_ofList]
        exact not_mem_takeWhile rest
    · cases h
  · cases h

theorem parse_eq_ok_iff {text : String} {did : Did} :
    parse text = .ok did ↔ did.text = text ∧ ':' ∉ did.method.toList := by
  constructor
  · exact parse_eq_ok
  · rintro ⟨rfl, hcolon⟩
    exact parse_text hcolon

/-- The text of a DID with a colon in its method is read as if the method ended there. -/
theorem parse_text_of_colon {did : Did} {start rest : String} (hstart : ':' ∉ start.toList)
    (hmethod : did.method = start ++ ":" ++ rest) :
    parse did.text = make start (rest ++ ":" ++ did.identifier) := by
  have htext : did.text = scheme ++ start ++ ":" ++ (rest ++ ":" ++ did.identifier) := by
    rw [Did.text, hmethod]
    simp only [String.append_assoc]
  rw [htext, parse_append hstart]

/-- What a text is read as has that text. A DID made from a method and an identifier is read back from its
text if and only if the method has no colon. If it has one, the text is read as what its part before the first
colon makes with all that follows: another DID, or none if that part is empty. -/
theorem parse_text_iff (text method identifier : String) (did : Did) :
    (parse text = .ok did → did.text = text)
    ∧ (make method identifier = .ok did →
      did.method = method ∧ did.identifier = identifier
      ∧ (parse did.text = .ok did ↔ ':' ∉ method.toList)
      ∧ ∀ start rest, ':' ∉ start.toList → method = start ++ ":" ++ rest →
        parse did.text = make start (rest ++ ":" ++ identifier)) := by
  refine ⟨fun h => (parse_eq_ok h).1, fun h => ?_⟩
  obtain ⟨rfl, rfl⟩ := make_eq_ok_iff.mp h
  refine ⟨rfl, rfl, ?_, fun start rest hstart hmethod => parse_text_of_colon hstart hmethod⟩
  rw [parse_eq_ok_iff]
  exact ⟨fun h => h.2, fun h => ⟨rfl, h⟩⟩

/-- A text with more than two colons, and a method with a colon. -/
theorem parse_text_iff_colons :
    (∃ did, parse "did:ethr:rinkeby:0x1" = .ok did ∧ did.text = "did:ethr:rinkeby:0x1")
    ∧ ∃ did, make "ethr:rinkeby" "0x1" = .ok did ∧ parse did.text ≠ .ok did
      ∧ parse did.text = make "ethr" "rinkeby:0x1" := by
  constructor
  · let did : Did := ⟨"ethr", "rinkeby:0x1", by decide, by decide⟩
    have hparse : parse "did:ethr:rinkeby:0x1" = .ok did := parse_eq_ok_iff.mpr ⟨by decide, by decide⟩
    exact ⟨did, hparse, (parse_text_iff _ did.method did.identifier did).1 hparse⟩
  · let did : Did := ⟨"ethr:rinkeby", "0x1", by decide, by decide⟩
    have hmake : make "ethr:rinkeby" "0x1" = .ok did := make_eq_ok_iff.mpr ⟨rfl, rfl⟩
    obtain ⟨-, -, hiff, hsplit⟩ := (parse_text_iff did.text _ _ did).2 hmake
    have hread := hsplit "ethr" "rinkeby" (by decide) (by decide)
    have hjoin : "rinkeby" ++ ":" ++ "0x1" = "rinkeby:0x1" := by decide
    rw [hjoin] at hread
    exact ⟨did, hmake, fun h => hiff.mp h (by decide), hread⟩

/-- A method and an identifier make a DID with the text of another one, and the text is read as the other one.
A method that begins with a colon makes a DID with a text that is not read at all. -/
theorem parse_text_ne :
    (∃ did other, make "a:b" "c" = .ok did ∧ make "a" "b:c" = .ok other ∧ did.text = other.text
      ∧ parse did.text = .ok other ∧ other.method ≠ did.method)
    ∧ ∃ did, make ":b" "c" = .ok did ∧ parse did.text = .error .emptyMethod := by
  let did : Did := ⟨"a:b", "c", by decide, by decide⟩
  let other : Did := ⟨"a", "b:c", by decide, by decide⟩
  let unread : Did := ⟨":b", "c", by decide, by decide⟩
  have hread : parse did.text = .ok other := parse_eq_ok_iff.mpr ⟨by decide, by decide⟩
  have hunread : parse unread.text = make "" ("b" ++ ":" ++ "c") :=
    parse_text_of_colon (List.not_mem_nil) (by decide)
  exact ⟨⟨did, other, make_eq_ok_iff.mpr ⟨rfl, rfl⟩, make_eq_ok_iff.mpr ⟨rfl, rfl⟩, by decide, hread,
      by decide⟩,
    unread, make_eq_ok_iff.mpr ⟨rfl, rfl⟩, hunread.trans (dif_pos rfl)⟩

end DidToken.Did
