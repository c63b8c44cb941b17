import DidToken.Proofs.Json.Regular
import DidToken.Proofs.Token.TypedView
/-!
# Typed payloads survive being written again

A typed payload is written with its registered claims in front, always with an issuer, and whatever its text
had of null or missing claims is gone. The members that are written are those of the text, up to the issuer
(`Payload.IsViewOf.mem_toObject`), so they are read again; and the payload they are read into is a view of
what was written, of which there is only one (`Payload.IsViewOf.unique`).
-/

namespace DidToken.Token

open Json

/-! ### Optional members -/

section

variable {α : Type} {make : α → Value} {a a' : Option α} {v : Option Value} {name : String}

theorem IsOptional.eq_some {x : α} (h : IsOptional make v (some x)) : v = some (make x) := by
  cases h
  rfl

theorem IsOptional.eq_none_or (h : IsOptional make v none) : v = none ∨ v = some .null := by
  cases h
  · exact .inl rfl
  · exact .inr rfl

/-- One value stands for one claim at most. -/
theorem IsOptional.unique (hinj : ∀ x y, make x = make y → x = y) (hnull : ∀ x, make x ≠ .null)
    (h : IsOptional make v a) (h' : IsOptional make v a') : a = a' := by
  have hnone : ∀ x, IsOptional make v (some x) → ¬IsOptional make v none := by
    intro x hsome hnone
    rw [hsome.eq_some] at hnone
    rcases hnone.eq_none_or with h | h
    · cases h
    · exact hnull x (Option.some.inj h)
  match a, a' with
  | none, none => rfl
  | some x, some y => exact congrArg some (hinj x y (Option.some.inj (h.eq_some.symm.trans h'.eq_some)))
  | some x, none => exact absurd h' (hnone x h)
  | none, some y => exact absurd h (hnone y h')

theorem isOptional_map (make : α → Value) (a : Option α) : IsOptional make (a.map make) a := by
  cases a with
  | none => exact .absent
  | some x => exact .present x

theorem IsOptional.mem_of_mem {raw : RawPayload} (h : IsOptional make (Assoc.get? raw name) a)
    {m : String × Value} (hm : m ∈ optionalMember name make a) : m ∈ raw := by
  cases a with
  | none => cases hm
  | some x =>
    rw [optionalMember, List.mem_singleton] at hm
    exact hm ▸ Assoc.mem_of_get? h.eq_some

end

namespace Payload

/-! ### Views are unique -/

theorem time_injective {s t : Int64} (h : time s = time t) : s = t := by
  have hint : (Integer.ofInt64 s).toInt64? = (Integer.ofInt64 t).toInt64? :=
    congrArg Integer.toInt64? (Value.int.inj h)
  rw [Integer.toInt64?_ofInt64, Integer.toInt64?_ofInt64] at hint
  exact Option.some.inj hint

variable {p p' : Payload} {raw : RawPayload}

theorem IsViewOf.issuer_unique (h : p.IsViewOf raw) (h' : p'.IsViewOf raw) : p.issuer = p'.issuer := by
  rcases h.issuer with ⟨hnone, hempty⟩ | hsome
  · rcases h'.issuer with ⟨-, hempty'⟩ | hsome'
    · exact hempty.trans hempty'.symm
    · cases hnone.symm.trans hsome'
  · rcases h'.issuer with ⟨hnone', -⟩ | hsome'
    · cases hnone'.symm.trans hsome
    · exact Value.str.inj (Option.some.inj (hsome.symm.trans hsome'))

/-- The raw payload determines the typed one. -/
theorem IsViewOf.unique (h : p.IsViewOf raw) (h' : p'.IsViewOf raw) : p = p' := by
  have hstr : ∀ {v : Option Value} {a a' : Option String}, IsOptional .str v a → IsOptional .str v a' →
      a = a' := IsOptional.unique (fun _ _ => Value.str.inj) nofun
  have htime : ∀ {v : Option Value} {a a' : Option Int64}, IsOptional time v a → IsOptional time v a' →
      a = a' := IsOptional.unique (fun _ _ => time_injective) nofun
  have hobj : ∀ {v : Option Value} {a a' : Option Object}, IsOptional .obj v a → IsOptional .obj v a' →
      a = a' := IsOptional.unique (fun _ _ => Value.obj.inj) nofun
  have hissuer := h.issuer_unique h'
  have hsubject := hstr h.subject h'.subject
  have haudience := hstr h.audience h'.audience
  have hissuedAt := htime h.issuedAt h'.issuedAt
  have hnotBefore := htime h.notBefore h'.notBefore
  have hexpiration := htime h.expiration h'.expiration
  have hcallback := hstr h.callback h'.callback
  have htype := hstr h.payloadType h'.payloadType
  have hclaims := hobj h.claims h'.claims
  have hextra := h.extra.trans h'.extra.symm
  cases p
  cases p'
  exact (mk.injEq ..).mpr ⟨hissuer, hsubject, haudience, hissuedAt, hnotBefore, hexpiration, hcallback, htype,
    hclaims, hextra⟩

/-! ### What is written -/

/-- The part of a written payload that comes before the claims without a field. -/
def registeredMembers (p : Payload) : Object :=
  ("iss", .str p.issuer)
    :: optionalMember "sub" .str p.subject
    ++ optionalMember "aud" .str p.audience
    ++ optionalMember "iat" time p.issuedAt
    ++ optionalMember "nbf" time p.notBefore
    ++ optionalMember "exp" time p.expiration
    ++ optionalMember "callback" .str p.callback
    ++ optionalMember "type" .str p.payloadType
    ++ optionalMember "claim" .obj p.claims

theorem toObject_eq (p : Payload) : p.toObject = p.registeredMembers ++ p.extra := rfl

theorem keys_registeredMembers_sublist (p : Payload) :
    (Assoc.keys p.registeredMembers).Sublist registered := by
  have hsub : (Assoc.keys (("iss", .str p.issuer) :: optionalMember "sub" .str p.subject)).Sublist
      ["iss", "sub"] := (keys_optionalMember_sublist "sub" .str p.subject).cons_cons "iss"
  have haud := hsub.append (keys_optionalMember_sublist "aud" .str p.audience)
  have hiat := haud.append (keys_optionalMember_sublist "iat" time p.issuedAt)
  have hnbf := hiat.append (keys_optionalMember_sublist "nbf" time p.notBefore)
  have hexp := hnbf.append (keys_optionalMember_sublist "exp" time p.expiration)
  have hcallback := hexp.append (keys_optionalMember_sublist "callback" .str p.callback)
  have htype := hcallback.append (keys_optionalMember_sublist "type" .str p.payloadType)
  have hclaim := htype.append (keys_optionalMember_sublist "claim" .obj p.claims)
  simp only [registeredMembers, Assoc.keys_append]
  exact hclaim

/-- No claim in `extra` has a name that is registered. -/
def IsDisjoint (p : Payload) : Prop :=
  ∀ name ∈ registered, name ∉ Assoc.keys p.extra

theorem IsViewOf.isDisjoint (h : p.IsViewOf raw) : p.IsDisjoint := by
  intro name hname hmem
  obtain ⟨m, hm, rfl⟩ := List.mem_map.mp hmem
  rw [h.extra, List.mem_filter, decide_eq_true_iff] at hm
  exact hm.2 hname

/-- The members that are written were there, up to the issuer. -/
theorem IsViewOf.mem_toObject (h : p.IsViewOf raw) {m : String × Value} (hm : m ∈ p.toObject) :
    m = ("iss", .str p.issuer) ∨ m ∈ raw := by
  rw [toObject_eq, registeredMembers] at hm
  simp only [List.mem_append, List.mem_cons] at hm
  rcases hm with ((((((((rfl | hm) | hm) | hm) | hm) | hm) | hm) | hm) | hm) | hm
  · exact .inl rfl
  · exact .inr (h.subject.mem_of_mem hm)
  · exact .inr (h.audience.mem_of_mem hm)
  · exact .inr (h.issuedAt.mem_of_mem hm)
  · exact .inr (h.notBefore.mem_of_mem hm)
  · exact .inr (h.expiration.mem_of_mem hm)
  · exact .inr (h.callback.mem_of_mem hm)
  · exact .inr (h.payloadType.mem_of_mem hm)
  · exact .inr (h.claims.mem_of_mem hm)
  · rw [h.extra] at hm
    exact .inr (List.mem_filter.mp hm).1

theorem IsDisjoint.distinct_toObject (h : p.IsDisjoint) (hextra : Assoc.Distinct p.extra) :
    Assoc.Distinct p.toObject := by
  have hsublist := keys_registeredMembers_sublist p
  have hregistered : registered.Nodup := by decide
  rw [Assoc.Distinct, toObject_eq, Assoc.keys_append, List.nodup_append]
  refine ⟨hregistered.sublist hsublist, hextra, fun name hname other hother heq => ?_⟩
  exact h name (hsublist.subset hname) (heq ▸ hother)

theorem IsDisjoint.filter_toObject (h : p.IsDisjoint) :
    p.toObject.filter (fun e => e.1 ∉ registered) = p.extra := by
  have hregistered : p.registeredMembers.filter (fun e => e.1 ∉ registered) = [] := by
    refine List.filter_eq_nil_iff.mpr fun m hm hnot => ?_
    exact of_decide_eq_true hnot ((keys_registeredMembers_sublist p).subset (List.mem_map_of_mem hm))
  have hextra : p.extra.filter (fun e => e.1 ∉ registered) = p.extra := by
    refine List.filter_eq_self.mpr fun m hm => decide_eq_true fun hname => ?_
    exact h m.1 hname (List.mem_map_of_mem hm)
  rw [toObject_eq, List.filter_append, hregistered, hextra, List.nil_append]

theorem IsDisjoint.get?_toObject (h : p.IsDisjoint) {name : String} (hname : name ∈ registered) :
    Assoc.get? p.toObject name = Assoc.get? p.registeredMembers name := by
  rw [toObject_eq, Assoc.get?_append, Assoc.get?_eq_none_iff.mpr (h name hname), Option.or_none]

/-- A payload is a view of what it is written as. -/
theorem IsDisjoint.isViewOf_toObject (h : p.IsDisjoint) : p.IsViewOf p.toObject := by
  have hoptional : ∀ {α : Type} (name : String) (make : α → Value) (a : Option α), name ∈ registered →
      Assoc.get? p.registeredMembers name = a.map make → IsOptional make (Assoc.get? p.toObject name) a := by
    intro α name make a hname hmember
    rw [h.get?_toObject hname, hmember]
    exact isOptional_map make a
  refine {
    issuer := .inr rfl
    subject := hoptional "sub" _ _ (by decide) ?_
    audience := hoptional "aud" _ _ (by decide) ?_
    issuedAt := hoptional "iat" _ _ (by decide) ?_
    notBefore := hoptional "nbf" _ _ (by decide) ?_
    expiration := hoptional "exp" _ _ (by decide) ?_
    callback := hoptional "callback" _ _ (by decide) ?_
    payloadType := hoptional "type" _ _ (by decide) ?_
    claims := hoptional "claim" _ _ (by decide) ?_
    extra := h.filter_toObject.symm }
  -- each is found past the optional members of other names
  all_goals simp [registeredMembers, Assoc.get?, Assoc.get?_append, get?_optionalMember]

/-! ### Reading what was written -/

/-- What a typed payload is read from is also read as a raw one, with distinct names and of bounded depth. -/
theorem exists_isViewOf_of_whole {b : Bytes} (h : whole record.readObject b = .ok p) :
    ∃ raw, p.IsViewOf raw ∧ (Value.obj raw).IsRegular maxDepth := by
  obtain ⟨raw, hraw, hview⟩ := simulates_readObject.whole h
  exact ⟨raw, hview, (yields_object maxDepth).whole hraw⟩

/-- The members that are written are readable like those of the text. -/
theorem IsViewOf.isReadable (h : p.IsViewOf raw) (hraw : (Value.obj raw).IsRegular maxDepth)
    (hint : (Value.obj p.toObject).IsIntegral) {m : String × Value} (hm : m ∈ p.toObject) : IsReadable m := by
  have hmint := hint.of_mem_members hm
  rcases h.mem_toObject hm with rfl | hmem
  · exact ⟨hmint, trivial, Nat.zero_le _, p.issuer, rfl⟩
  · exact {
      integral := hmint
      distinct := hraw.distinct.of_mem_members hmem
      depth := Value.depthOfMembers_le_iff.mp (Nat.le_of_succ_le_succ hraw.depth) m hmem
      shape := h.hasShape hraw.distinct.distinct hmem }

theorem IsViewOf.distinct_extra (h : p.IsViewOf raw) (hdist : Assoc.Distinct raw) :
    Assoc.Distinct p.extra := by
  rw [Assoc.Distinct, Assoc.keys, h.extra]
  exact hdist.sublist (List.filter_sublist.map Prod.fst)

/-- A payload that was read is read again from its own text. -/
theorem IsViewOf.takes_toObject (h : p.IsViewOf raw) (hraw : (Value.obj raw).IsRegular maxDepth)
    (hint : (Value.obj p.toObject).IsIntegral) :
    Takes record.readObject (Value.obj p.toObject).bytes (.ok p) := by
  have hreadable : ∀ m ∈ p.toObject, IsReadable m := fun m => h.isReadable hraw hint
  have hdist : Assoc.Distinct p.toObject :=
    h.isDisjoint.distinct_toObject (h.distinct_extra hraw.distinct.distinct)
  have hregular : (Value.obj p.toObject).IsRegular maxDepth :=
    Value.isRegular_obj hdist fun m hm => ⟨(hreadable m hm).distinct, (hreadable m hm).depth⟩
  obtain ⟨q, hq⟩ := exists_takes_readObject hreadable hdist
  -- the text is that of one raw payload, of which both are views
  have hobject := takes_object hint hregular.distinct maxDepth
  rw [Value.objectWithin_obj, if_pos hregular.depth] at hobject
  obtain ⟨raw', hraw', hview⟩ := simulates_readObject.whole hq.whole
  have hsame : raw' = p.toObject := Except.ok.inj (hraw'.symm.trans hobject.whole)
  rw [hsame] at hview
  have hpayload : q = p := hview.unique h.isDisjoint.isViewOf_toObject
  rw [hpayload] at hq
  exact hq

end Payload

/-- A typed payload that a token was decoded with has no registered claim among the others. With integers
only, it is read again from the text that it is written as, and from its segment: each claim is in its place,
in the order in which the claims came, and writing it once more gives the same text. -/
theorem decode_toObject {token : String} {d : Decoded Payload} (h : decode token = .ok d) :
    (∀ name ∈ Payload.registered, name ∉ Assoc.keys d.payload.extra)
    ∧ ((Value.obj d.payload.toObject).IsIntegral →
      (let text := Value.render (.obj d.payload.toObject)
      whole Payload.record.readObject (Bytes.ofString text) = .ok d.payload
        ∧ ∀ p, whole Payload.record.readObject (Bytes.ofString text) = .ok p →
          Value.render (.obj p.toObject) = text)
      ∧ ∀ segment, decodeSegment segment Payload.record.readObject (encodeObject d.payload.toObject)
        = .ok d.payload) := by
  obtain ⟨s, -, -, hpayload, -⟩ := decodeWith_eq_ok_iff.mp h
  obtain ⟨b, -, hb⟩ := bind_eq_ok_iff.mp hpayload
  obtain ⟨raw, hview, hregular⟩ := Payload.exists_isViewOf_of_whole (mapError_eq_ok_iff.mp hb)
  refine ⟨hview.isDisjoint, fun hint => ?_⟩
  have htakes := hview.takes_toObject hregular hint
  refine ⟨⟨htakes.whole, fun p hp => ?_⟩, fun segment => decodeSegment_encodeObject htakes segment⟩
  rw [Except.ok.inj (hp.symm.trans htakes.whole)]

set_option maxRecDepth 100000 in
/-- `{"b":[null],"sub":null,"exp":7,"a":{"y":1,"x":2}}` is written as
`{"iss":"","exp":7,"b":[null],"a":{"y":1,"x":2}}`. -/
theorem decode_toObject_reordered :
    ∃ d, decode "eyJhbGciOiJFUzI1NksifQ.eyJiIjpbbnVsbF0sInN1YiI6bnVsbCwiZXhwIjo3LCJhIjp7InkiOjEsIngiOjJ9fQ.AA"
        = .ok d
      ∧ Value.render (.obj d.payload.toObject)
        = "\x7b\"iss\":\"\",\"exp\":7,\"b\":[null],\"a\":\x7b\"y\":1,\"x\":2\x7d\x7d"
      ∧ whole Payload.record.readObject (Bytes.ofString (Value.render (.obj d.payload.toObject)))
        = .ok d.payload := by
  have hsplit : split
        "eyJhbGciOiJFUzI1NksifQ.eyJiIjpbbnVsbF0sInN1YiI6bnVsbCwiZXhwIjo3LCJhIjp7InkiOjEsIngiOjJ9fQ.AA"
      = .ok ⟨"eyJhbGciOiJFUzI1NksifQ",
        "eyJiIjpbbnVsbF0sInN1YiI6bnVsbCwiZXhwIjo3LCJhIjp7InkiOjEsIngiOjJ9fQ", "AA"⟩ := by decide +kernel
  have hheader : decodeSegment .header Header.record.read "eyJhbGciOiJFUzI1NksifQ"
      = .ok ⟨"JWT", "ES256K"⟩ := by rfl
  have hpayload : decodeSegment .payload Payload.record.readObject
        "eyJiIjpbbnVsbF0sInN1YiI6bnVsbCwiZXhwIjo3LCJhIjp7InkiOjEsIngiOjJ9fQ"
      = .ok { Payload.empty with
        expiration := some 7
        extra := [("b", .arr [.null]), ("a", .obj [("y", .int ⟨1, by decide, by decide⟩),
          ("x", .int ⟨2, by decide, by decide⟩)])] } := by rfl
  have hsignature : decodeBytes .signature "AA" = .ok [0] := by rfl
  have hdecode := decodeWith_eq_ok_iff (d := ⟨_, _, _, _⟩).mpr
    ⟨_, hsplit, hheader, hpayload, hsignature, rfl⟩
  refine ⟨_, hdecode, by decide +kernel, ((decode_toObject hdecode).2 ?_).1.1⟩
  exact ⟨rfl, rfl, rfl, ⟨rfl, rfl, trivial⟩, ⟨rfl, rfl, rfl, trivial⟩, trivial⟩

end DidToken.Token
