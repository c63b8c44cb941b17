import DidToken.Proofs.Json.Simulation
import DidToken.Proofs.Token.Payload
/-!
# The typed payload is a view of the raw payload

A token that is decoded with a typed payload is decoded with a raw payload too, and the typed one is told
by the raw one (`Payload.IsViewOf`). The typed reader fills a draft member by member, while the raw reader
inserts the same members into an object; all along, the draft shows the registered claims of the object
and keeps the others (`Payload.Draft.Reflects`). In the other direction, the shapes that the registered
claims must have (`HasShape`) are all that the typed reader asks for of a payload that was written
(`decode_isViewOf`).
-/

namespace DidToken.Token

open Json

/-! ### Views -/

/-- A claim that may be missing or null. -/
inductive IsOptional {α : Type} (make : α → Value) : Option Value → Option α → Prop
  | absent : IsOptional make none none
  | null : IsOptional make (some .null) none
  | present (a : α) : IsOptional make (some (make a)) (some a)

/-- The typed payload tells the registered claims by their names, and keeps the others in order. -/
structure Payload.IsViewOf (p : Payload) (raw : RawPayload) : Prop where
  issuer : (Assoc.get? raw "iss" = none ∧ p.issuer = "")
    ∨ Assoc.get? raw "iss" = some (.str p.issuer)
  subject : IsOptional .str (Assoc.get? raw "sub") p.subject
  audience : IsOptional .str (Assoc.get? raw "aud") p.audience
  issuedAt : IsOptional Payload.time (Assoc.get? raw "iat") p.issuedAt
  notBefore : IsOptional Payload.time (Assoc.get? raw "nbf") p.notBefore
  expiration : IsOptional Payload.time (Assoc.get? raw "exp") p.expiration
  callback : IsOptional .str (Assoc.get? raw "callback") p.callback
  payloadType : IsOptional .str (Assoc.get? raw "type") p.payloadType
  claims : IsOptional .obj (Assoc.get? raw "claim") p.claims
  extra : p.extra = raw.filter fun e => e.1 ∉ Payload.registered

/-- The shape that the value of a claim must have to be read into a typed payload. -/
def HasShape (name : String) (v : Value) : Prop :=
  match name with
  | "iss" => ∃ s, v = .str s
  | "sub" | "aud" | "callback" | "type" => v = .null ∨ ∃ s, v = .str s
  | "iat" | "nbf" | "exp" => v = .null
    ∨ ∃ n : Integer, v = .int n ∧ Int64.minValue.toInt ≤ n.val ∧ n.val ≤ Int64.maxValue.toInt
  | "claim" => v = .null ∨ ∃ o, v = .obj o
  | _ => True

/-! ### Values that stand for optional ones -/

/-- The value that stands for something that may be missing. -/
def nullable {α : Type} (make : α → Value) : Option α → Value
  | none => .null
  | some a => make a

theorem isOptional_nullable {α : Type} (make : α → Value) (field : Option (Option α)) :
    IsOptional make (field.map (nullable make)) field.join := by
  match field with
  | none => exact .absent
  | some none => exact .null
  | some (some a) => exact .present a

theorem IsOptional.eq_null_or {α : Type} {make : α → Value} {v : Value} {field : Option α}
    (h : IsOptional make (some v) field) : v = .null ∨ ∃ a, v = make a := by
  cases h with
  | null => exact Or.inl rfl
  | present a => exact Or.inr ⟨a, rfl⟩

theorem IsOptional.eq_null_or_int {v : Value} {field : Option Int64}
    (h : IsOptional Payload.time (some v) field) : v = .null
      ∨ ∃ n : Integer, v = .int n ∧ Int64.minValue.toInt ≤ n.val ∧ n.val ≤ Int64.maxValue.toInt := by
  refine h.eq_null_or.imp_right fun ⟨t, ht⟩ => ⟨Integer.ofInt64 t, ht, ?_, ?_⟩
  · exact Int64.minValue_le_toInt t
  · exact Int64.toInt_le t

theorem orNull_eq_some {α : Type} {view : Value → Option α} {make : α → Value}
    (hview : ∀ v a, view v = some a → v = make a) {v : Value} {w : Option α}
    (h : orNull view v = some w) : v = nullable make w := by
  rw [orNull] at h
  split at h
  · next hnull =>
    cases h
    cases v with
    | null => rfl
    | _ => cases hnull
  · obtain ⟨a, ha, rfl⟩ := Option.map_eq_some_iff.mp h
    exact hview v a ha

theorem eq_str_of_str? {v : Value} {s : String} (h : v.str? = some s) : v = .str s := by
  cases v with
  | str t => exact congrArg Value.str (Option.some.inj h)
  | _ => cases h

theorem eq_obj_of_obj? {v : Value} {o : Object} (h : v.obj? = some o) : v = .obj o := by
  cases v with
  | obj members => exact congrArg Value.obj (Option.some.inj h)
  | _ => cases h

theorem eq_ofInt64_of_toInt64? {n : Integer} {t : Int64} (h : n.toInt64? = some t) :
    n = Integer.ofInt64 t := by
  have hmin := n.min_le
  rw [Integer.toInt64?] at h
  split at h
  · next hlt =>
    cases h
    have hval : (Int64.ofInt n.val).toInt = n.val := Int64.toInt_ofInt_of_le hmin hlt
    obtain ⟨val, _, _⟩ := n
    simp only [Integer.ofInt64, hval]
  · cases h

theorem eq_time_of_int64? {v : Value} {t : Int64} (h : v.int64? = some t) : v = Payload.time t := by
  cases v with
  | int n => exact congrArg Value.int (eq_ofInt64_of_toInt64? h)
  | _ => cases h

namespace Payload

/-! ### Drafts and objects -/

/-- The registered claim of a name, as a draft has it. -/
def Draft.member? (d : Draft) (name : String) : Option Value :=
  match name with
  | "iss" => d.issuer.map .str
  | "sub" => d.subject.map (nullable .str)
  | "aud" => d.audience.map (nullable .str)
  | "iat" => d.issuedAt.map (nullable time)
  | "nbf" => d.notBefore.map (nullable time)
  | "exp" => d.expiration.map (nullable time)
  | "callback" => d.callback.map (nullable .str)
  | "type" => d.payloadType.map (nullable .str)
  | "claim" => d.claims.map (nullable .obj)
  | _ => none

/-- The draft shows the registered claims of the object and keeps all others. -/
structure Draft.Reflects (d : Draft) (o : Object) : Prop where
  member : ∀ name ∈ registered, d.member? name = Assoc.get? o name
  extra : d.extra = o.filter fun e => e.1 ∉ registered

variable {d d' : Draft} {o : Object} {name : String} {v : Value}

/-- A registered claim is shown by its own field; the draft keeps everything else. -/
theorem Draft.Reflects.set (h : d.Reflects o) (hname : name ∈ registered)
    (hself : d'.member? name = some v)
    (hframe : ∀ other ∈ registered, other ≠ name → d'.member? other = d.member? other)
    (hextra : d'.extra = d.extra) : d'.Reflects (Assoc.insert o name v) where
  member other hother := by
    by_cases hne : other = name
    · rw [hne, hself, Assoc.get?_insert_self]
    · rw [hframe other hother hne, h.member other hother, Assoc.get?_insert_of_ne o (Ne.symm hne)]
  extra := by
    have hfilter := Assoc.filter_insert_of_neg (p := fun n => n ∉ registered) o (not_not_intro hname) v
    rw [hextra, h.extra, hfilter]

theorem Draft.Reflects.keep (h : d.Reflects o) (hname : name ∉ registered) (v : Value) :
    ({ d with extra := Assoc.insert d.extra name v } : Draft).Reflects (Assoc.insert o name v) where
  member other hother := by
    have hne : name ≠ other := fun he => hname (he ▸ hother)
    rw [Assoc.get?_insert_of_ne o hne, ← h.member other hother]
    rfl
  extra := by
    have hfilter := Assoc.filter_insert_of_pos (p := fun n => n ∉ registered) o hname v
    rw [h.extra, hfilter]

/-- A reader of claims of one shape. It accepts no other values, and of those it accepts all that are
written. -/
structure Reads {β : Type} (reader : Reader β) (make : β → Value) (shape : Value → Prop) : Prop where
  simulates : Simulates (fun b v => v = make b) reader (value claimDepth)
  takes {v : Value} : shape v → v.IsIntegral → v.IsDistinct → v.depth ≤ claimDepth →
    ∃ b, Takes reader v.bytes (.ok b)

theorem reads_string : Reads string .str fun v => ∃ s, v = .str s where
  simulates := (simulates_scalar _ _).mono fun _ _ => eq_str_of_str?
  takes := by
    rintro v ⟨s, rfl⟩ hint hdist -
    exact ⟨s, takes_string hint hdist⟩

theorem reads_stringOrNull :
    Reads stringOrNull (nullable .str) fun v => v = .null ∨ ∃ s, v = .str s where
  simulates := (simulates_scalar _ _).mono fun _ _ => orNull_eq_some fun _ _ => eq_str_of_str?
  takes := by
    rintro v (rfl | ⟨s, rfl⟩) hint hdist -
    · exact ⟨none, takes_stringOrNull hint hdist⟩
    · exact ⟨some s, takes_stringOrNull hint hdist⟩

theorem reads_int64OrNull :
    Reads int64OrNull (nullable time) fun v => v = .null
      ∨ ∃ n : Integer, v = .int n ∧ Int64.minValue.toInt ≤ n.val ∧ n.val ≤ Int64.maxValue.toInt where
  simulates := (simulates_scalar _ _).mono fun _ _ => orNull_eq_some fun _ _ => eq_time_of_int64?
  takes := by
    rintro v (rfl | ⟨n, rfl, -, hmax⟩) hint hdist -
    · exact ⟨none, takes_int64OrNull hint hdist⟩
    · have hlt : n.val < 0x8000000000000000 := by
        rw [Int64.toInt_maxValue] at hmax
        omega
      have hview : orNull Value.int64? (.int n) = some (some (Int64.ofInt n.val)) := by
        show n.toInt64?.map some = _
        rw [Integer.toInt64?, if_pos hlt]
        rfl
      have htakes := takes_int64OrNull hint hdist
      rw [hview] at htakes
      exact ⟨_, htakes⟩

theorem reads_objectOrNull :
    Reads (objectOrNull claimDepth) (nullable .obj) fun v => v = .null ∨ ∃ o, v = .obj o where
  simulates := (simulates_objectOrNull _).mono fun _ _ => orNull_eq_some fun _ _ => eq_obj_of_obj?
  takes := by
    rintro v (rfl | ⟨members, rfl⟩) hint hdist hdepth
    · exact ⟨none, takes_objectOrNull_null claimDepth⟩
    · exact ⟨some members, takes_objectOrNull_obj hint hdist hdepth⟩

/-- A field for the claim of its name: it is set if the draft has the claim, it reads the claim as the
object would, and it reads all claims of the right shape. -/
structure IsClaimField (f : Json.Field Draft) : Prop where
  isSet : ∀ d, f.isSet d = (d.member? f.name).isSome
  simulates {d : Draft} {o : Object} : d.Reflects o →
    Simulates (fun d' v => d'.Reflects (Assoc.insert o f.name v)) (f.read d) (value claimDepth)
  takes {v : Value} : HasShape f.name v → v.IsIntegral → v.IsDistinct → v.depth ≤ claimDepth →
    ∀ d, ∃ d', Takes (f.read d) v.bytes (.ok d')

theorem isClaimField_of {β : Type} {reader : Reader β} {make : β → Value} {get : Draft → Option β}
    {set : Draft → β → Draft} {mayBeMissing : Bool} (hreads : Reads reader make (HasShape name))
    (hname : name ∈ registered) (hget : ∀ d, d.member? name = (get d).map make)
    (hset : ∀ d b, get (set d b) = some b)
    (hframe : ∀ d b, ∀ other ∈ registered, other ≠ name → (set d b).member? other = d.member? other)
    (hextra : ∀ d b, (set d b).extra = d.extra) :
    IsClaimField (.of name reader get set mayBeMissing) where
  isSet d := by
    show (get d).isSome = (d.member? name).isSome
    rw [hget, Option.isSome_map]
  simulates {d o} h := simulates_field_of hreads.simulates fun b v hv => by
    refine h.set hname ?_ (hframe d b) (hextra d b)
    show (set d b).member? name = some v
    rw [hget, hset, hv]
    rfl
  takes hshape hint hdist hdepth d := by
    obtain ⟨b, hb⟩ := hreads.takes hshape hint hdist hdepth
    exact ⟨_, takes_field_of hb d⟩

/-- Every field of the payload is one for the claim of its name. -/
theorem isClaimField_of_mem {f : Json.Field Draft} (hf : f ∈ record.fields) : IsClaimField f := by
  simp only [record, List.mem_cons, List.not_mem_nil, or_false] at hf
  -- a field is told from the others by its name, so only the readers differ
  rcases hf with rfl | rfl | rfl | rfl | rfl | rfl | rfl | rfl | rfl <;>
    refine isClaimField_of ?_ (by decide) (fun _ => rfl) (fun _ _ => rfl)
      (by simp [registered, Draft.member?]) (fun _ _ => rfl)
  · exact reads_string
  · exact reads_stringOrNull
  · exact reads_stringOrNull
  · exact reads_int64OrNull
  · exact reads_int64OrNull
  · exact reads_int64OrNull
  · exact reads_stringOrNull
  · exact reads_stringOrNull
  · exact reads_objectOrNull

theorem isClaimField_of_field? {f : Json.Field Draft} (hf : record.field? name = some f) :
    f.name = name ∧ IsClaimField f := by
  obtain ⟨hmem, hname⟩ := Record.mem_fields_of_field? hf
  exact ⟨hname, isClaimField_of_mem hmem⟩

/-! ### From the typed reader to the raw one -/

theorem name_not_mem_of_field?_eq_none (h : record.field? name = none) : name ∉ registered := by
  intro hmem
  obtain ⟨f, hf, rfl⟩ := List.mem_map.mp (show name ∈ record.fields.map Json.Field.name from hmem)
  exact List.find?_eq_none.mp h f hf (decide_eq_true rfl)

/-- A draft reflects the object that the raw reader has made of the same members. -/
theorem mirrors_record : record.Mirrors (value claimDepth) Draft.Reflects where
  empty := ⟨by simp [registered, Draft.member?, record, Assoc.get?], rfl⟩
  field hf _ h := by
    obtain ⟨rfl, hfield⟩ := isClaimField_of_field? hf
    exact hfield.simulates h
  unknown {name d o} hf h := by
    intro b d' rest hb
    obtain ⟨v, mid, hv, hpure⟩ := bind_apply_eq_ok hb
    cases hpure
    exact ⟨v, hv, h.keep (name_not_mem_of_field?_eq_none hf) v⟩

/-- The payload of a draft is a view of the object that the draft reflects. -/
theorem Draft.Reflects.isViewOf {p : Payload} (h : d.Reflects o) (hp : record.finish d = some p) :
    p.IsViewOf o := by
  obtain rfl := Option.some.inj hp
  have hoptional : ∀ {α : Type} (name : String) (make : α → Value) (field : Option (Option α)),
      name ∈ registered → d.member? name = field.map (nullable make) →
        IsOptional make (Assoc.get? o name) field.join := by
    intro α name make field hname hmember
    rw [← h.member name hname, hmember]
    exact isOptional_nullable make field
  exact {
    issuer := by
      rw [← h.member "iss" (by decide)]
      show (d.issuer.map Value.str = none ∧ d.issuer.getD "" = "")
        ∨ d.issuer.map Value.str = some (.str (d.issuer.getD ""))
      cases d.issuer with
      | none => exact Or.inl ⟨rfl, rfl⟩
      | some s => exact Or.inr rfl
    subject := hoptional "sub" _ _ (by decide) rfl
    audience := hoptional "aud" _ _ (by decide) rfl
    issuedAt := hoptional "iat" _ _ (by decide) rfl
    notBefore := hoptional "nbf" _ _ (by decide) rfl
    expiration := hoptional "exp" _ _ (by decide) rfl
    callback := hoptional "callback" _ _ (by decide) rfl
    payloadType := hoptional "type" _ _ (by decide) rfl
    claims := hoptional "claim" _ _ (by decide) rfl
    extra := h.extra }

/-- A payload that is read is a view of the object that is read from the same text. -/
theorem simulates_readObject :
    Simulates Payload.IsViewOf record.readObject (object maxDepth) :=
  mirrors_record.simulates_readObject.mono fun _ _ ⟨_, hreflects, hfinish⟩ => hreflects.isViewOf hfinish

/-! ### From shapes to the typed reader -/

/-- A claim that is read, if it was written: it fits into the depth that is left, and has the shape that
its name demands. -/
structure IsReadable (m : String × Value) : Prop where
  integral : m.2.IsIntegral
  distinct : m.2.IsDistinct
  depth : m.2.depth ≤ claimDepth
  shape : HasShape m.1 m.2

theorem IsReadable.readsMember {m : String × Value} (h : IsReadable m) : record.ReadsMember m where
  field f hf d := by
    obtain ⟨hname, hfield⟩ := isClaimField_of_field? hf
    obtain ⟨d', htakes⟩ := hfield.takes (hname ▸ h.shape) h.integral h.distinct h.depth d
    exact htakes.takes_outcome
  unknown _ d := (takes_unknown h.integral h.distinct h.depth m.1 d).takes_outcome

/-- A readable claim that has not come yet is brought into the draft. -/
theorem IsReadable.exists_bring {m : String × Value} (h : IsReadable m) (hd : d.Reflects o)
    (hnew : m.1 ∉ Assoc.keys o) :
    ∃ d', record.bring d m = .ok d' ∧ d'.Reflects (Assoc.insert o m.1 m.2) := by
  -- what reflects the object with the value that is read reflects it with this value
  have hreflects : ∀ {reader : Reader Draft} {d' : Draft}, Takes reader m.2.bytes (.ok d') →
      Simulates (fun d' v => d'.Reflects (Assoc.insert o m.1 v)) reader (value claimDepth) →
        d'.Reflects (Assoc.insert o m.1 m.2) := by
    intro reader d' htakes hsim
    have hfollows : Follows [] := trivial
    obtain ⟨v, hv, hd'⟩ := hsim _ _ _ (htakes.apply_ok rfl hfollows)
    have hown := (takes_value h.integral h.distinct claimDepth).apply_ok (Value.within_of_le h.depth)
      hfollows
    cases hown.symm.trans hv
    exact hd'
  rw [Record.bring]
  cases hf : record.field? m.1 with
  | some f =>
    obtain ⟨hname, hfield⟩ := isClaimField_of_field? hf
    obtain ⟨d', htakes⟩ := hfield.takes (hname ▸ h.shape) h.integral h.distinct h.depth d
    have hunset : f.isSet d = false := by
      have hmem : f.name ∈ registered := List.mem_map_of_mem (Record.mem_fields_of_field? hf).1
      rw [hfield.isSet, hd.member f.name hmem, hname, Assoc.get?_eq_none_iff.mpr hnew]
      rfl
    refine ⟨d', ?_, hreflects htakes (hname ▸ hfield.simulates hd)⟩
    simp only [hunset, Bool.false_eq_true, if_false]
    exact htakes.outcome_eq
  | none =>
    have htakes := takes_unknown h.integral h.distinct h.depth m.1 d
    exact ⟨_, htakes.outcome_eq, hreflects htakes (mirrors_record.unknown hf hd)⟩

theorem exists_foldlM_bring {more : Object} (hmore : ∀ m ∈ more, IsReadable m) (hd : d.Reflects o)
    (hdist : Assoc.Distinct (o ++ more)) : ∃ d', more.foldlM record.bring d = .ok d' := by
  induction more generalizing d o with
  | nil => exact ⟨d, rfl⟩
  | cons m rest ih =>
    have hnew := Assoc.not_mem_keys_of_distinct hdist
    obtain ⟨d', hbring, hd'⟩ := (hmore m (List.mem_cons_self ..)).exists_bring hd hnew
    rw [Assoc.insert_of_not_mem hnew] at hd'
    rw [List.foldlM_cons, hbring, ok_bind]
    exact ih (fun k hk => hmore k (List.mem_cons_of_mem _ hk)) hd' (by
      rw [List.append_assoc]
      exact hdist)

/-- Claims of the right shapes are read into a payload. -/
theorem exists_takes_readObject {claims : RawPayload} (hclaims : ∀ m ∈ claims, IsReadable m)
    (hdist : Assoc.Distinct claims) :
    ∃ p, Takes record.readObject (Value.obj claims).bytes (.ok p) := by
  obtain ⟨d, hd⟩ := exists_foldlM_bring hclaims mirrors_record.empty hdist
  have htakes := Record.takes_readObject fun m hm => (hclaims m hm).readsMember
  rw [hd, ok_bind] at htakes
  exact ⟨_, htakes⟩

theorem hasShape_of_not_mem (h : name ∉ registered) (v : Value) : HasShape name v := by
  simp only [registered, List.mem_cons, List.not_mem_nil, or_false, not_or] at h
  simp [HasShape, h]

/-- The claims of which a payload is a view have the right shapes. -/
theorem IsViewOf.hasShape {p : Payload} {raw : RawPayload} (h : p.IsViewOf raw)
    (hdist : Assoc.Distinct raw) {m : String × Value} (hm : m ∈ raw) : HasShape m.1 m.2 := by
  have hget : Assoc.get? raw m.1 = some m.2 := Assoc.get?_of_mem hdist hm
  obtain ⟨name, v⟩ := m
  by_cases hname : name ∈ registered
  · simp only [registered, List.mem_cons, List.not_mem_nil, or_false] at hname
    rcases hname with rfl | rfl | rfl | rfl | rfl | rfl | rfl | rfl | rfl
    · rcases h.issuer with ⟨hnone, -⟩ | hsome
      · cases hnone.symm.trans hget
      · exact ⟨_, Option.some.inj (hget.symm.trans hsome)⟩
    · exact (hget ▸ h.subject).eq_null_or
    · exact (hget ▸ h.audience).eq_null_or
    · exact (hget ▸ h.issuedAt).eq_null_or_int
    · exact (hget ▸ h.notBefore).eq_null_or_int
    · exact (hget ▸ h.expiration).eq_null_or_int
    · exact (hget ▸ h.callback).eq_null_or
    · exact (hget ▸ h.payloadType).eq_null_or
    · exact (hget ▸ h.claims).eq_null_or
  · exact hasShape_of_not_mem hname v

end Payload

/-! ### Decoding -/

/-- A token that is decoded by a reader is decoded by every reader that accepts the same texts. -/
theorem decodeWith_of_simulates {π ρ : Type} {rel : π → ρ → Prop} {reader : Reader π} {other : Reader ρ}
    (h : Simulates rel reader other) {token : String} {d : Decoded π}
    (hd : decodeWith reader token = .ok d) :
    ∃ r, decodeWith other token = .ok r ∧ r.header = d.header ∧ r.signature = d.signature
      ∧ r.signedData = d.signedData ∧ rel d.payload r.payload := by
  obtain ⟨s, hs, hheader, hpayload, hsignature, hsigned⟩ := decodeWith_eq_ok_iff.mp hd
  obtain ⟨b, hb, hwhole⟩ := bind_eq_ok_iff.mp hpayload
  obtain ⟨raw, hraw, hrel⟩ := h.whole (mapError_eq_ok_iff.mp hwhole)
  have hsegment : decodeSegment .payload other s.payload = .ok raw :=
    bind_eq_ok_iff.mpr ⟨b, hb, mapError_eq_ok_iff.mpr hraw⟩
  exact ⟨⟨d.header, raw, d.signature, d.signedData⟩,
    decodeWith_eq_ok_iff.mpr ⟨s, hs, hheader, hsegment, hsignature, hsigned⟩, rfl, rfl, rfl, hrel⟩

/-- The typed payload is a view of the raw one. Whenever a token is decoded with a typed payload, it is
decoded with a raw payload, of which the typed one is a view, and all else is the same. A payload that was
written, of integral numbers and at most 127 deep, is decoded with a typed payload exactly if each of its
claims has the shape that its name demands. -/
theorem decode_isViewOf :
    (∀ token d, decode token = .ok d → ∃ r, decodeRaw token = .ok r ∧ r.header = d.header
      ∧ r.signature = d.signature ∧ r.signedData = d.signedData ∧ d.payload.IsViewOf r.payload)
    ∧ ∀ raw : RawPayload, (Value.obj raw).IsIntegral → (Value.obj raw).IsDistinct →
      (Value.obj raw).depth ≤ 127 → ∀ (header : Header) (b : Bytes), b ≠ [] →
        ((∃ d, decode (signingInput header raw ++ "." ++ encodeBytes b) = .ok d)
          ↔ ∀ m ∈ raw, HasShape m.1 m.2) := by
  have hview : ∀ token d, decode token = .ok d → ∃ r, decodeRaw token = .ok r ∧ r.header = d.header
      ∧ r.signature = d.signature ∧ r.signedData = d.signedData ∧ d.payload.IsViewOf r.payload :=
    fun token d hd => decodeWith_of_simulates Payload.simulates_readObject hd
  refine ⟨hview, fun raw hint hdist hdepth header b hb => ⟨?_, fun hshape => ?_⟩⟩
  · -- the raw payload of the token is the one that was written
    rintro ⟨d, hd⟩ m hm
    obtain ⟨r, hr, -, -, -, hpayload⟩ := hview _ d hd
    rw [decodeRaw_issued hint hdist header hb, if_pos hdepth] at hr
    cases hr
    exact hpayload.hasShape hdist.distinct hm
  · have hreadable : ∀ m ∈ raw, Payload.IsReadable m := fun m hm =>
      { integral := hint.of_mem_members hm
        distinct := hdist.of_mem_members hm
        depth := Value.depthOfMembers_le_iff.mp (Nat.le_of_succ_le_succ hdepth) m hm
        shape := hshape m hm }
    obtain ⟨p, hp⟩ := Payload.exists_takes_readObject hreadable hdist.distinct
    exact ⟨_, decodeWith_issued hp header hb⟩

/-- A claim that may be null and one without a field; an issuer must not be null. -/
theorem decode_isViewOf_null :
    let raw : RawPayload := [("iss", .str "did:x:y"), ("exp", .null), ("nonce", .bool true)]
    let wrong : RawPayload := [("iss", .null)]
    (∃ d, decode (signingInput .default raw ++ "." ++ encodeBytes [0]) = .ok d
      ∧ d.payload.expiration = none ∧ d.payload.extra = [("nonce", .bool true)])
    ∧ ¬∃ d, decode (signingInput .default wrong ++ "." ++ encodeBytes [0]) = .ok d := by
  intro raw wrong
  have hint : (Value.obj raw).IsIntegral := ⟨rfl, rfl, rfl, rfl, trivial⟩
  have hdist : (Value.obj raw).IsDistinct :=
    ⟨(by decide : ["iss", "exp", "nonce"].Nodup), trivial, trivial, trivial, trivial⟩
  constructor
  · obtain ⟨d, hd⟩ := (decode_isViewOf.2 raw hint hdist (by decide) .default [0] (by decide)).mpr (by
      rw [List.forall_mem_cons, List.forall_mem_cons, List.forall_mem_singleton]
      exact ⟨⟨_, rfl⟩, Or.inl rfl, trivial⟩)
    obtain ⟨r, hr, -, -, -, hview⟩ := decode_isViewOf.1 _ d hd
    rw [decodeRaw_issued hint hdist .default (by decide), if_pos (by decide)] at hr
    cases hr
    have hexpiration : IsOptional Payload.time (some .null) d.payload.expiration := hview.expiration
    refine ⟨d, hd, ?_, hview.extra⟩
    cases hexp : d.payload.expiration with
    | none => rfl
    | some t => rw [hexp] at hexpiration; cases hexpiration
  · intro hd
    have hshape := (decode_isViewOf.2 wrong ⟨rfl, rfl, trivial⟩
      ⟨(by decide : ["iss"].Nodup), trivial, trivial⟩ (by decide) .default [0] (by decide)).mp hd
    obtain ⟨s, hs⟩ : ∃ s, Value.null = .str s := hshape _ (List.mem_singleton_self _)
    cases hs

end DidToken.Token
