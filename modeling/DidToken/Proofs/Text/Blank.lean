import DidToken.Text.Characters
import Mathlib.Data.List.DropRight
/-!
# Trimmed texts

A text without blanks at its ends neither begins nor ends with a blank character (`isTrimmed_trim`), and no
other text is left as it is (`trim_eq_self_iff`). Nothing is left of a text of blanks only
(`trim_eq_empty_iff`).
-/

namespace DidToken.Text

/-- A text that neither begins nor ends with a blank character. -/
structure IsTrimmed (s : String) : Prop where
  head : ∀ c, s.toList.head? = some c → isBlank c = false
  last : ∀ c, s.toList.getLast? = some c → isBlank c = false

theorem toList_trim (s : String) :
    (trim s).toList = (s.toList.dropWhile isBlank).rdropWhile isBlank :=
  String.toList_ofList

theorem isTrimmed_trim (s : String) : IsTrimmed (trim s) where
  head c hc := by
    -- the text begins as what is left after the blanks in front
    rw [toList_trim] at hc
    have hprefix := List.rdropWhile_prefix isBlank (s.toList.dropWhile isBlank)
    have hfront : (s.toList.dropWhile isBlank).head? = some c := by
      obtain ⟨tail, htail⟩ := hprefix
      rw [← htail, List.head?_append, hc]
      rfl
    have hnot := List.head?_dropWhile_not isBlank s.toList
    rw [hfront] at hnot
    simpa using hnot
  last c hc := by
    rw [toList_trim] at hc
    have hne : (s.toList.dropWhile isBlank).rdropWhile isBlank ≠ [] := by
      intro hnil
      rw [hnil] at hc
      cases hc
    have hnot := List.rdropWhile_last_not isBlank (s.toList.dropWhile isBlank) hne
    rw [List.getLast?_eq_some_getLast hne, Option.some.injEq] at hc
    simpa [hc] using hnot

theorem trim_eq_self_iff {s : String} : trim s = s ↔ IsTrimmed s := by
  refine ⟨fun h => h ▸ isTrimmed_trim s, fun h => ?_⟩
  have hfront : s.toList.dropWhile isBlank = s.toList := by
    cases hs : s.toList with
    | nil => rfl
    | cons c rest =>
      have hc := h.head c (by rw [hs]; rfl)
      rw [List.dropWhile_cons, hc, if_neg Bool.false_ne_true]
  rw [← String.toList_inj, toList_trim, hfront, List.rdropWhile_eq_self_iff]
  intro hne hlast
  rw [h.last _ (List.getLast?_eq_some_getLast hne)] at hlast
  cases hlast

theorem trim_eq_empty_iff {s : String} : trim s = "" ↔ ∀ c ∈ s.toList, isBlank c = true := by
  rw [← String.toList_inj, toList_trim, String.toList_empty, List.rdropWhile_eq_nil_iff]
  constructor
  · intro hback
    -- what is left after the blanks in front would begin with no blank
    have hnil : s.toList.dropWhile isBlank = [] := by
      by_contra hne
      have hhead := List.head_dropWhile_not isBlank hne
      rw [hback _ (List.head_mem hne)] at hhead
      cases hhead
    exact List.dropWhile_eq_nil_iff.mp hnil
  · intro hall c hc
    exact hall c ((List.dropWhile_suffix _).subset hc)

end DidToken.Text
