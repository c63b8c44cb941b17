import DidToken.Json.Record
import DidToken.Proofs.Json.Names
import DidToken.Proofs.Json.Records
/-!
# Members in any order

The text of an object may be rearranged: its members come in any order, and between them stand members of names
that the object does not have, with any grammatical values (`IsArranged`). A record does not notice. The draft
depends only on which names have come (`Record.Fills`), so in the end every arrangement makes the same record
(`Record.Fills.takes_read`).
-/

namespace DidToken.Json

variable {α β δ : Type}

/-! ### Arrangements -/

/-- A word without blanks. -/
def Spaced.plain (w : Bytes) : Spaced :=
  ⟨[], w, [], nofun, nofun⟩

/-- A member as it is written, without blanks. -/
def MemberText.plain (name : String) (value : Bytes) : MemberText :=
  ⟨.plain (Value.bytes (.str name)), .plain value⟩

theorem MemberText.bytes_plain (name : String) (v : Value) :
    (plain name v.bytes).bytes = quoteByte :: Value.memberBytes (name, v) := by
  simp only [bytes, plain, Spaced.plain, Spaced.bytes, Value.bytes_str, Value.memberBytes, List.nil_append,
    List.append_nil, List.cons_append, List.append_assoc]

/-- The members that are written, in any order, and among them others of names that are not declared. -/
inductive IsArranged (written : Assoc Bytes) (declared : List String) : Bytes → Prop
  | mk {order inserted : Assoc MemberText} (hinserted : ∀ m ∈ inserted, m.1 ∉ declared ∧ m.2.IsMember m.1)
      (horder : order.Perm (written.map (fun m => (m.1, .plain m.1 m.2)) ++ inserted)) :
      IsArranged written declared (0x7b :: ([0x2c].intercalate (order.map fun m => m.2.bytes) ++ [0x7d]))

theorem IsArranged.eq_cons {written : Assoc Bytes} {declared : List String} {w : Bytes}
    (h : IsArranged written declared w) : ∃ tail, w = 0x7b :: tail := by
  cases h with
  | mk => exact ⟨_, rfl⟩

/-- The members of an object as they are written. -/
def Object.written (o : Object) : Assoc Bytes :=
  o.map fun m => (m.1, m.2.bytes)

theorem Object.keys_written (o : Object) : Assoc.keys (written o) = Assoc.keys o := by
  rw [written, Assoc.keys, List.map_map]
  rfl

/-- An object as it is written is one arrangement of its members. -/
theorem isArranged_obj (o : Object) (declared : List String) :
    IsArranged (Object.written o) declared (Value.obj o).bytes := by
  have hmembers : (o.map fun m => quoteByte :: Value.memberBytes m)
      = ((Object.written o).map fun m => (m.1, MemberText.plain m.1 m.2)).map fun m => m.2.bytes := by
    simp only [Object.written, List.map_map, Function.comp_def, MemberText.bytes_plain]
  rw [Value.bytes_obj, hmembers]
  exact .mk (List.forall_mem_nil _) (by rw [List.append_nil])

/-- A list of texts of the items, with commas between them. -/
inductive IsList (p : α → Bytes → Prop) : List α → Bytes → Prop
  | mk {entries : List (α × Bytes)} (h : ∀ e ∈ entries, p e.1 e.2) :
      IsList p (entries.map Prod.fst) (0x5b :: ([0x2c].intercalate (entries.map Prod.snd) ++ [0x5d]))

theorem isList_arr {p : α → Bytes → Prop} {make : α → Value} (as : List α) (h : ∀ a ∈ as, p a (make a).bytes) :
    IsList p as (Value.arr (as.map make)).bytes := by
  have hentries : ∀ e ∈ as.map fun a => (a, (make a).bytes), p e.1 e.2 := fun e he => by
    obtain ⟨a, ha, rfl⟩ := List.mem_map.mp he
    exact h a ha
  have hlist := IsList.mk hentries
  rw [List.map_map, List.map_map] at hlist
  rw [Value.bytes_arr, List.map_map]
  simpa only [Function.comp_def, List.map_id'] using hlist

theorem takes_list {p : α → Bytes → Prop} {item : Reader α} (hitem : ∀ a w, p a w → Takes item w (.ok a))
    (hfirst : ∀ a w, p a w → ∃ tail, w = 0x7b :: tail) {as : List α} {w : Bytes} (h : IsList p as w) :
    Takes (list item) w (.ok as) := by
  intro rest hrest
  obtain @⟨entries, h⟩ := h
  have hread : ∀ e ∈ entries, Takes item e.2 ((fun e : α × Bytes => Except.ok e.1) e) := fun e he =>
    hitem e.1 e.2 (h e he)
  have hbrace : ∀ e ∈ entries, ∃ x tail, e.2 = x :: tail ∧ isBlank x = false ∧ x ≠ 0x5d := fun e he => by
    obtain ⟨tail, htail⟩ := hfirst e.1 e.2 (h e he)
    exact ⟨0x7b, tail, htail, by decide, by decide⟩
  have hitems := items_intercalate hread hbrace rest
  have hall : entries.mapM (fun e => (Except.ok e.1 : Except Fault α)) = .ok (entries.map Prod.fst) :=
    List.mapM_pure
  rw [hall] at hitems
  rw [list, List.cons_append, List.append_assoc, bind_apply_of_ok (peekMark_cons (by decide) _), if_pos rfl,
    bind_apply_of_ok (byte_cons _ _)]
  exact hitems

/-! ### Drafts by names -/

/-- What is there once a name has come. -/
def came (names : List String) (name : String) (b : β) : Option β :=
  if name ∈ names then some b else none

section Came

variable {names : List String} {name : String} {b : β}

theorem came_of_mem (h : name ∈ names) : came names name b = some b :=
  if_pos h

theorem came_of_not_mem (h : name ∉ names) : came names name b = none :=
  if_neg h

@[simp] theorem came_concat (names : List String) (name other : String) (b : β) :
    came (names ++ [other]) name b = if name = other then some b else came names name b := by
  by_cases h : name = other <;> simp [came, h]

/-- What may be absent is absent if its name does not come. -/
theorem join_came {a : Option β} (h : ∀ b, a = some b → name ∈ names) : (came names name a).join = a := by
  cases a with
  | none =>
    rw [came]
    split <;> rfl
  | some b => rw [came_of_mem (h b rfl), Option.join_some]

end Came

/-! ### Records -/

namespace Record

/-- What comes of the members of a record in any order: the draft is given by the names that have come. -/
structure Fills (r : Record δ α) (written : Assoc Bytes) (declared : List String) (draft : List String → δ)
    (a : α) : Prop where
  names : r.fields.map Field.name = declared
  nodup : declared.Nodup
  keys : (Assoc.keys written).Sublist declared
  empty : draft [] = r.empty
  field : ∀ m ∈ written, ∀ names, m.1 ∉ names → ∃ f, r.field? m.1 = some f ∧ f.isSet (draft names) = false
    ∧ Takes (f.read (draft names)) m.2 (.ok (draft (names ++ [m.1])))
  unknown : ∀ name ∉ declared, ∀ names, draft (names ++ [name]) = draft names
  ignores : r.unknown = ignore
  finish : ∀ names, (∀ name ∈ Assoc.keys written, name ∈ names) → r.finish (draft names) = some a

variable {r : Record δ α} {written : Assoc Bytes} {declared : List String} {draft : List String → δ} {a : α}

theorem field?_eq_none_of_not_mem {name : String} (h : name ∉ r.fields.map Field.name) :
    r.field? name = none :=
  List.find?_eq_none.mpr fun f hf hname => h (List.mem_map.mpr ⟨f, hf, of_decide_eq_true hname⟩)

/-- A field that is kept in one place is filled in when its name comes. -/
theorem fills_field {name : String} {reader : Reader β} {get : δ → Option β} {set : δ → β → δ}
    {mayBeMissing : Bool} {w : Bytes} {b : β} {names : List String}
    (hf : r.field? name = some (.of name reader get set mayBeMissing)) (hnew : get (draft names) = none)
    (hset : set (draft names) b = draft (names ++ [name])) (h : Takes reader w (.ok b)) :
    ∃ f, r.field? name = some f ∧ f.isSet (draft names) = false
      ∧ Takes (f.read (draft names)) w (.ok (draft (names ++ [name]))) := by
  refine ⟨_, hf, ?_, hset ▸ takes_field_of h (draft names)⟩
  show (get (draft names)).isSome = false
  rw [hnew]
  rfl

/-- A member that is written fills in its field. -/
theorem Fills.leads_written (h : r.Fills written declared draft a) {m : String × Bytes} (hm : m ∈ written)
    {names : List String} (hnew : m.1 ∉ names) :
    (MemberText.plain m.1 m.2).Leads r.member (draft names) (draft (names ++ [m.1])) := by
  obtain ⟨f, hf, hunset, hread⟩ := h.field m hm names hnew
  refine ⟨quotedBytes m.1, Value.bytes_str m.1, fun rest hrest => ?_⟩
  have hvalue : (MemberText.plain m.1 m.2).value.bytes = m.2 := List.append_nil m.2
  rw [member, bind_apply_of_ok (text_quoted m.1 _), hf, hvalue]
  simp only [hunset, Bool.false_eq_true, if_false]
  exact (bind_apply_of_ok (colon_cons _)).trans (hread rest hrest)

/-- A member of another name changes nothing. -/
theorem Fills.leads_inserted (h : r.Fills written declared draft a) {name : String} {m : MemberText}
    (hname : name ∉ declared) (hm : m.IsMember name) (names : List String) :
    m.Leads r.member (draft names) (draft (names ++ [name])) := by
  obtain ⟨⟨body, hbody, hword⟩, hvalue⟩ := hm
  have hnone : r.field? name = none := field?_eq_none_of_not_mem (h.names ▸ hname)
  refine ⟨body, hword, fun rest hrest => ?_⟩
  rw [member, bind_apply_of_ok (text_of_spells hbody _), hnone, h.unknown name hname, h.ignores]
  simp only
  rw [bind_apply_of_ok ((colon_append m.name.blank_after _).trans (colon_cons _)), ignore,
    bind_apply_of_ok (Spaced.gives_skip hvalue rest hrest)]
  rfl

/-- In an arrangement no name that is declared comes twice. -/
theorem Fills.pairwise (h : r.Fills written declared draft a) {order inserted : Assoc MemberText}
    (hinserted : ∀ m ∈ inserted, m.1 ∉ declared ∧ m.2.IsMember m.1)
    (horder : order.Perm (written.map (fun m => (m.1, .plain m.1 m.2)) ++ inserted)) :
    order.Pairwise fun m k => m.1 = k.1 → m.1 ∉ declared := by
  refine (horder.pairwise_iff fun hk heq => heq.symm ▸ hk heq.symm).mpr (List.pairwise_append.mpr ⟨?_, ?_, ?_⟩)
  · rw [List.pairwise_map]
    exact (List.pairwise_map.mp (h.keys.nodup h.nodup)).imp fun hne heq => absurd heq hne
  · exact (List.pairwise_of_forall_mem_list fun m hm _ _ _ => (hinserted m hm).1)
  · intro m _ k hk heq
    rw [heq]
    exact (hinserted k hk).1

/-- Each member of an arrangement leads to the draft with its name. -/
theorem Fills.leads (h : r.Fills written declared draft a) {order inserted : Assoc MemberText}
    (hinserted : ∀ m ∈ inserted, m.1 ∉ declared ∧ m.2.IsMember m.1)
    (horder : order.Perm (written.map (fun m => (m.1, .plain m.1 m.2)) ++ inserted))
    {before after : Assoc MemberText} {m : String × MemberText} (hparts : order = before ++ m :: after) :
    m.2.Leads r.member (draft (before.map Prod.fst)) (draft ((before ++ [m]).map Prod.fst)) := by
  have hmem : m ∈ order := hparts ▸ List.mem_append_right _ (List.mem_cons_self ..)
  rw [List.map_append, List.map_singleton]
  rcases List.mem_append.mp (horder.mem_iff.mp hmem) with hwritten | hother
  · obtain ⟨k, hk, rfl⟩ := List.mem_map.mp hwritten
    refine h.leads_written hk fun hcame => ?_
    -- a member of the same name would be declared too
    obtain ⟨e, he, hname⟩ := List.mem_map.mp hcame
    have hpairwise := h.pairwise hinserted horder
    rw [hparts, List.pairwise_append] at hpairwise
    exact hpairwise.2.2 e he _ (List.mem_cons_self ..) hname (hname ▸ h.keys.subset (List.mem_map_of_mem hk))
  · obtain ⟨hname, hmember⟩ := hinserted m hother
    exact h.leads_inserted hname hmember _

/-- Every arrangement of the members makes the record. -/
theorem Fills.takes_read (h : r.Fills written declared draft a) {w : Bytes} (hw : IsArranged written declared w) :
    Takes r.read w (.ok a) := by
  intro rest _
  obtain @⟨order, inserted, hinserted, horder⟩ := hw
  have hmembers := members_spaced (w := Prod.snd) (fun members : Assoc MemberText => draft (members.map Prod.fst))
    (fun before m after hparts => h.leads hinserted horder hparts) rest
  have hfinish : r.finish (draft (order.map Prod.fst)) = some a := h.finish _ fun name hname => by
    obtain ⟨m, hm, rfl⟩ := List.mem_map.mp hname
    have hplain : (m.1, MemberText.plain m.1 m.2) ∈ order :=
      horder.mem_iff.mpr (List.mem_append_left _ (List.mem_map_of_mem hm))
    exact List.mem_map_of_mem hplain
  have hclose : r.close (draft (order.map Prod.fst)) rest = .ok (a, rest) := by
    rw [close_apply, finished, hfinish]
    rfl
  rw [List.map_nil, h.empty] at hmembers
  rw [read, List.cons_append, List.append_assoc, bind_apply_of_ok (peekMark_cons (by decide) _), if_neg (by decide),
    readObject, bind_apply_of_ok (peekMark_cons (by decide) _), if_pos rfl, bind_apply_of_ok (byte_cons _ _),
    ofMembers]
  exact (bind_apply_of_ok hmembers).trans hclose

end Record

end DidToken.Json
