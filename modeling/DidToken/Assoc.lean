/-!
# Association lists in order of insertion

Named entries kept in the order in which their names first came. Inserting under a name that is
already there changes the entry in its place; erasing keeps the order of the rest. Insertion is
last-writer-wins (`get?_insert_self`, `get?_insert_of_ne`) and keeps names distinct
(`distinct_insert`).
-/

namespace DidToken

/-- Entries by name, in order. -/
abbrev Assoc (β : Type) := List (String × β)

namespace Assoc

variable {β : Type}

def keys (entries : Assoc β) : List String :=
  entries.map Prod.fst

def Distinct (entries : Assoc β) : Prop :=
  (keys entries).Nodup

def get? (entries : Assoc β) (name : String) : Option β :=
  match entries with
  | [] => none
  | (n, b) :: rest => if n = name then some b else get? rest name

def contains (entries : Assoc β) (name : String) : Bool :=
  (get? entries name).isSome

/-- The entries with `b` under `name`: in place of the first entry of that name, or at the end. -/
def insert (entries : Assoc β) (name : String) (b : β) : Assoc β :=
  match entries with
  | [] => [(name, b)]
  | (n, c) :: rest => if n = name then (n, b) :: rest else (n, c) :: insert rest name b

def erase (entries : Assoc β) (name : String) : Assoc β :=
  entries.filter fun entry => entry.1 ≠ name

def insertAll (entries more : Assoc β) : Assoc β :=
  more.foldl (fun acc entry => insert acc entry.1 entry.2) entries

@[simp] theorem get?_insert_self (entries : Assoc β) (name : String) (b : β) :
    get? (insert entries name b) name = some b := by
  induction entries with
  | nil => simp [insert, get?]
  | cons e rest ih => by_cases h : e.1 = name <;> simp [insert, get?, h, ih]

theorem get?_insert_of_ne (entries : Assoc β) {name other : String} (h : name ≠ other) (b : β) :
    get? (insert entries name b) other = get? entries other := by
  induction entries with
  | nil => simp [insert, get?, h]
  | cons e rest ih =>
    by_cases hn : e.1 = name
    · simp [insert, get?, hn, h]
    · rw [insert, if_neg hn, get?, get?, ih]

theorem get?_isSome_iff (entries : Assoc β) (name : String) :
    (get? entries name).isSome ↔ name ∈ keys entries := by
  induction entries with
  | nil => simp [get?, keys]
  | cons e rest ih =>
    by_cases h : e.1 = name
    · simp [get?, keys, h]
    · simp only [get?, h, if_false, ih, keys, List.map_cons, List.mem_cons]
      exact ⟨Or.inr, fun m => m.resolve_left fun he => h he.symm⟩

theorem keys_insert_of_mem {entries : Assoc β} {name : String} (h : name ∈ keys entries) (b : β) :
    keys (insert entries name b) = keys entries := by
  induction entries with
  | nil => simp [keys] at h
  | cons e rest ih =>
    by_cases hn : e.1 = name
    · simp [insert, keys, hn]
    · have hr : name ∈ keys rest := by
        simp only [keys, List.map_cons, List.mem_cons] at h
        exact h.resolve_left fun he => hn he.symm
      have := ih hr
      simp only [keys] at this
      simp [insert, keys, hn, this]

theorem insert_of_not_mem {entries : Assoc β} {name : String} (h : name ∉ keys entries) (b : β) :
    insert entries name b = entries ++ [(name, b)] := by
  induction entries with
  | nil => rfl
  | cons e rest ih =>
    simp only [keys, List.map_cons, List.mem_cons, not_or] at h
    simp [insert, Ne.symm h.1, ih h.2]

theorem distinct_insert {entries : Assoc β} (h : Distinct entries) (name : String) (b : β) :
    Distinct (insert entries name b) := by
  by_cases hm : name ∈ keys entries
  · rw [Distinct, keys_insert_of_mem hm]
    exact h
  · rw [Distinct, insert_of_not_mem hm, keys, List.map_append]
    exact List.nodup_append.mpr ⟨h, by simp, by
      simp only [List.map_cons, List.map_nil, List.mem_singleton]
      rintro x hx y rfl rfl
      exact hm hx⟩

theorem not_mem_keys_erase (entries : Assoc β) (name : String) :
    name ∉ keys (erase entries name) := by
  simp [keys, erase]

theorem distinct_erase {entries : Assoc β} (h : Distinct entries) (name : String) :
    Distinct (erase entries name) :=
  List.Nodup.sublist (List.Sublist.map _ List.filter_sublist) h

end Assoc

end DidToken
