import Mathlib.Data.List.Basic
import Mathlib.Data.List.Induction
import DidToken.Assoc
/-!
# Laws of association lists

How insertion and erasure act on lists as a whole. Inserting the entries of a list whose names are
distinct gives back the list (`insertAll_nil_of_distinct`); reading an object is such a sequence of
insertions.
-/

namespace DidToken.Assoc

variable {β : Type}

@[simp] theorem keys_nil : keys ([] : Assoc β) = [] := rfl

@[simp] theorem keys_cons (e : String × β) (rest : Assoc β) : keys (e :: rest) = e.1 :: keys rest := rfl

@[simp] theorem keys_append (l m : Assoc β) : keys (l ++ m) = keys l ++ keys m :=
  List.map_append

theorem get?_eq_none_iff {entries : Assoc β} {name : String} :
    get? entries name = none ↔ name ∉ keys entries := by
  rw [← get?_isSome_iff, Option.not_isSome_iff_eq_none]

theorem erase_of_not_mem {entries : Assoc β} {name : String} (h : name ∉ keys entries) :
    erase entries name = entries := by
  refine List.filter_eq_self.mpr fun e he => decide_eq_true ?_
  rintro rfl
  exact h (List.mem_map.mpr ⟨e, he, rfl⟩)

theorem mem_insert {entries : Assoc β} {name : String} {b : β} {e : String × β}
    (h : e ∈ insert entries name b) : e ∈ entries ∨ e = (name, b) := by
  induction entries with
  | nil => exact Or.inr (List.mem_singleton.mp h)
  | cons f rest ih =>
    rw [insert] at h
    by_cases hn : f.1 = name
    · rw [if_pos hn, List.mem_cons, hn] at h
      rcases h with h | h
      · exact Or.inr h
      · exact Or.inl (List.mem_cons_of_mem _ h)
    · rw [if_neg hn, List.mem_cons] at h
      rcases h with rfl | h
      · exact Or.inl (List.mem_cons_self ..)
      · exact (ih h).imp_left (List.mem_cons_of_mem _)

/-- A new entry is selected with the others if its name is. -/
theorem filter_insert_of_pos {p : String → Prop} [DecidablePred p] (entries : Assoc β) {name : String}
    (h : p name) (b : β) :
    (insert entries name b).filter (fun e => p e.1) = insert (entries.filter fun e => p e.1) name b := by
  induction entries with
  | nil => simp [insert, h]
  | cons e rest ih =>
    rw [insert]
    by_cases hn : e.1 = name
    · simp [insert, hn, h]
    · by_cases he : p e.1 <;> simp [insert, hn, he, ih]

theorem filter_insert_of_neg {p : String → Prop} [DecidablePred p] (entries : Assoc β) {name : String}
    (h : ¬p name) (b : β) :
    (insert entries name b).filter (fun e => p e.1) = entries.filter fun e => p e.1 := by
  induction entries with
  | nil => simp [insert, h]
  | cons e rest ih =>
    rw [insert]
    by_cases hn : e.1 = name
    · simp [hn, h]
    · rw [if_neg hn, List.filter_cons, List.filter_cons, ih]

theorem mem_of_mem_erase {entries : Assoc β} {name : String} {e : String × β}
    (h : e ∈ erase entries name) : e ∈ entries :=
  (List.mem_filter.mp h).1

theorem get?_of_mem {entries : Assoc β} (h : Distinct entries) {e : String × β} (he : e ∈ entries) :
    get? entries e.1 = some e.2 := by
  induction entries with
  | nil => cases he
  | cons f rest ih =>
    have hdist : f.1 ∉ keys rest ∧ Distinct rest := List.nodup_cons.mp h
    rcases List.mem_cons.mp he with rfl | he
    · rw [get?, if_pos rfl]
    · have hne : f.1 ≠ e.1 := fun heq => hdist.1 (heq ▸ List.mem_map_of_mem he)
      rw [get?, if_neg hne, ih hdist.2 he]

theorem mem_of_get? {entries : Assoc β} {name : String} {b : β} (h : get? entries name = some b) :
    (name, b) ∈ entries := by
  induction entries with
  | nil => cases h
  | cons e rest ih =>
    rw [get?] at h
    split at h
    · next hname =>
      cases h
      exact hname ▸ List.mem_cons_self ..
    · exact List.mem_cons_of_mem _ (ih h)

theorem get?_append (l m : Assoc β) (name : String) :
    get? (l ++ m) name = (get? l name).or (get? m name) := by
  induction l with
  | nil => rfl
  | cons e rest ih =>
    rw [List.cons_append, get?, get?]
    split
    · rfl
    · exact ih

theorem eq_of_get?_singleton {name other : String} {b c : β} (h : get? [(name, b)] other = some c) :
    c = b := by
  change (if name = other then some b else none) = some c at h
  split at h
  · exact (Option.some.inj h).symm
  · cases h

theorem not_mem_keys_of_distinct {acc rest : Assoc β} {e : String × β}
    (h : Distinct (acc ++ e :: rest)) : e.1 ∉ keys acc := by
  intro hm
  rw [Distinct, keys_append, keys_cons] at h
  exact (List.nodup_append.mp h).2.2 e.1 hm e.1 (List.mem_cons_self ..) rfl

theorem insertAll_cons (acc : Assoc β) (e : String × β) (rest : Assoc β) :
    insertAll acc (e :: rest) = insertAll (insert acc e.1 e.2) rest := rfl

theorem insertAll_append (acc more rest : Assoc β) :
    insertAll acc (more ++ rest) = insertAll (insertAll acc more) rest :=
  List.foldl_append

theorem insertAll_concat (acc more : Assoc β) (e : String × β) :
    insertAll acc (more ++ [e]) = insert (insertAll acc more) e.1 e.2 :=
  insertAll_append acc more [e]

theorem insertAll_of_distinct {acc more : Assoc β} (h : Distinct (acc ++ more)) :
    insertAll acc more = acc ++ more := by
  induction more generalizing acc with
  | nil => exact (List.append_nil acc).symm
  | cons e rest ih =>
    -- the next name is new, so its entry goes to the end
    have hnew := not_mem_keys_of_distinct h
    have happ : acc ++ e :: rest = (acc ++ [e]) ++ rest := by
      rw [List.append_assoc, List.singleton_append]
    rw [insertAll_cons, insert_of_not_mem hnew, happ]
    exact ih (by rw [← happ]; exact h)

/-- Entries with distinct names are what they are when inserted one after the other. -/
theorem insertAll_nil_of_distinct {entries : Assoc β} (h : Distinct entries) :
    insertAll [] entries = entries :=
  insertAll_of_distinct (by rwa [List.nil_append])

/-! ### Entries with repeated names -/

/-- The entries by name: the names in the order in which they first came, each with its last value. -/
def collected (entries : Assoc β) : Assoc β :=
  (keys entries).eraseDups.filterMap fun name => (get? entries.reverse name).map (name, ·)

/-- Entries with distinct names are given by their names and values. -/
theorem eq_filterMap_keys {entries : Assoc β} (h : Distinct entries) :
    entries = (keys entries).filterMap fun name => (get? entries name).map (name, ·) := by
  have hself : ∀ e ∈ entries, (get? entries e.1).map (e.1, ·) = some e := fun e he => by
    rw [get?_of_mem h he]
    rfl
  rw [keys, List.filterMap_map]
  exact (List.filterMap_some.symm).trans (List.filterMap_congr fun e he => (hself e he).symm)

theorem distinct_insertAll {acc : Assoc β} (h : Distinct acc) (more : Assoc β) :
    Distinct (insertAll acc more) := by
  induction more generalizing acc with
  | nil => exact h
  | cons e rest ih => exact ih (distinct_insert h e.1 e.2)

theorem keys_insertAll_nil (entries : Assoc β) :
    keys (insertAll [] entries) = (keys entries).eraseDups := by
  induction entries using List.reverseRecOn with
  | nil => rfl
  | append_singleton rest e ih =>
    have hmem : e.1 ∈ keys (insertAll [] rest) ↔ e.1 ∈ keys rest := by
      rw [ih, List.mem_eraseDups]
    rw [insertAll_concat, keys_append, List.eraseDups_append, ← ih]
    by_cases he : e.1 ∈ keys rest
    · have hold : (keys [e]).removeAll (keys rest) = [] := by simp [List.removeAll, he]
      rw [keys_insert_of_mem (hmem.mpr he), hold, List.eraseDups_nil, List.append_nil]
    · have hnew : (keys [e]).removeAll (keys rest) = [e.1] := by simp [List.removeAll, he]
      rw [insert_of_not_mem (mt hmem.mp he), keys_append, hnew]
      rfl

theorem get?_insertAll_nil (entries : Assoc β) (name : String) :
    get? (insertAll [] entries) name = get? entries.reverse name := by
  induction entries using List.reverseRecOn with
  | nil => rfl
  | append_singleton rest e ih =>
    rw [insertAll_concat, List.reverse_append, List.reverse_singleton, List.singleton_append, get?]
    by_cases he : e.1 = name
    · rw [if_pos he, ← he, get?_insert_self]
    · rw [if_neg he, get?_insert_of_ne _ he, ih]

/-- Inserted one after the other, entries are collected by name. -/
theorem insertAll_nil (entries : Assoc β) : insertAll [] entries = collected entries := by
  have hnil : Distinct ([] : Assoc β) := List.nodup_nil
  have hdist := distinct_insertAll hnil entries
  rw [eq_filterMap_keys hdist, keys_insertAll_nil, collected]
  simp only [get?_insertAll_nil]

end DidToken.Assoc
