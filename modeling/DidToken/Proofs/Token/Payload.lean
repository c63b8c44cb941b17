import DidToken.Proofs.Json.Records
import DidToken.Proofs.Token.Issue
/-!
# The typed payload of an issued token

Claims without a registered name go to `extra`, in order (`foldlM_bring_extra`), and what an issued token
is completed by goes to the issuer and the two times (`foldlM_bring_stamps`). So a payload of such claims
is read as it was meant, as far as the times fit signed words (`takes_mergeClaims`).
-/

namespace DidToken.Token

open Json

/-! ### The payload as claims and stamps -/

theorem complete_of_not_mem {claims : RawPayload} {name : String} (h : name ∉ Assoc.keys claims)
    (v : Value) : complete claims name v = claims ++ [(name, v)] := by
  rw [complete, Assoc.get?_eq_none_iff.mpr h]
  exact Assoc.insert_of_not_mem h v

/-- What a token is completed by if none of it is given. -/
def stamps (now : UInt64) (issuer : String) (lifetime : Int64) : Object :=
  ("iat", .int (Integer.ofUInt64 now))
    :: (if lifetime < 0 then [] else [("exp", .int (Integer.ofUInt64 (expiration now lifetime)))])
    ++ [("iss", .str issuer)]

theorem mergeClaims_eq_append {claims : RawPayload} (hiat : "iat" ∉ Assoc.keys claims)
    (hexp : "exp" ∉ Assoc.keys claims) (hiss : "iss" ∉ Assoc.keys claims) (now : UInt64)
    (issuer : String) (lifetime : Int64) :
    mergeClaims now issuer lifetime claims = claims ++ stamps now issuer lifetime := by
  have hstamped := complete_of_not_mem hiat (.int (Integer.ofUInt64 now))
  have hkeys : ∀ {name : String} {more : Object}, name ∉ Assoc.keys claims → name ∉ Assoc.keys more →
      name ∉ Assoc.keys (claims ++ more) := by
    intro name more hclaims hmore
    rw [Assoc.keys_append, List.mem_append, not_or]
    exact ⟨hclaims, hmore⟩
  have hexp' : "exp" ∉ Assoc.keys (claims ++ [("iat", .int (Integer.ofUInt64 now))]) :=
    hkeys hexp (by simp)
  rw [mergeClaims, hstamped, stamps]
  by_cases hlifetime : lifetime < 0
  · rw [if_pos hlifetime, if_pos hlifetime, Assoc.erase_of_not_mem hexp',
      complete_of_not_mem (hkeys hiss (by simp)), List.append_assoc]
  · rw [if_neg hlifetime, if_neg hlifetime, complete_of_not_mem hexp', List.append_assoc,
      complete_of_not_mem (hkeys hiss (by simp)), List.append_assoc]
    rfl

namespace Payload

/-! ### Claims without a field -/

theorem field?_eq_none {name : String} (h : name ∉ registered) : record.field? name = none := by
  refine List.find?_eq_none.mpr fun f hf => ?_
  have hname : f.name ∈ registered := List.mem_map.mpr ⟨f, hf, rfl⟩
  intro he
  exact h (of_decide_eq_true he ▸ hname)

/-- A claim without a field is kept. -/
theorem takes_unknown {v : Value} (hint : v.IsIntegral) (hdist : v.IsDistinct)
    (hdepth : v.depth ≤ claimDepth) (name : String) (d : Draft) :
    Takes (record.unknown name d) v.bytes (.ok { d with extra := Assoc.insert d.extra name v }) := by
  have hvalue := takes_value hint hdist claimDepth
  rw [Value.within_of_le hdepth] at hvalue
  exact hvalue.bind (f := fun v => pure { d with extra := Assoc.insert d.extra name v })
    (g := fun v => .ok { d with extra := Assoc.insert d.extra name v }) fun _ _ => rfl

/-- A claim that the payload keeps as it is. -/
structure IsExtra (m : String × Value) : Prop where
  name : m.1 ∉ registered
  integral : m.2.IsIntegral
  distinct : m.2.IsDistinct
  depth : m.2.depth ≤ claimDepth

theorem IsExtra.readsMember {m : String × Value} (h : IsExtra m) : record.ReadsMember m :=
  .of_unknown (field?_eq_none h.name) (takes_unknown h.integral h.distinct h.depth m.1)

theorem foldlM_bring_extra {claims : RawPayload} (h : ∀ m ∈ claims, IsExtra m) (d : Draft) :
    claims.foldlM record.bring d = .ok { d with extra := Assoc.insertAll d.extra claims } := by
  induction claims generalizing d with
  | nil => rfl
  | cons m rest ih =>
    have hm := h m (List.mem_cons_self ..)
    rw [List.foldlM_cons, Record.bring_of_unknown (field?_eq_none hm.name)
      (takes_unknown hm.integral hm.distinct hm.depth m.1 d), ok_bind,
      ih fun m' hm' => h m' (List.mem_cons_of_mem _ hm')]
    rfl

/-! ### Stamps -/

/-- A time that fits a signed word is read. -/
theorem takes_time {n : UInt64} (h : (n.toNat : Int) ≤ Int64.maxValue.toInt) :
    Takes int64OrNull (Value.int (Integer.ofUInt64 n)).bytes (.ok (some (Int64.ofInt n.toNat))) := by
  have hmax : Int64.maxValue.toInt = 0x7fffffffffffffff := by decide
  have hlt : (Integer.ofUInt64 n).val < 0x8000000000000000 := by
    show (n.toNat : Int) < _
    omega
  have hview : orNull Value.int64? (.int (Integer.ofUInt64 n)) = some (some (Int64.ofInt n.toNat)) := by
    show ((Integer.ofUInt64 n).toInt64?).map some = _
    rw [Integer.toInt64?, if_pos hlt]
    rfl
  have htakes := takes_int64OrNull (v := .int (Integer.ofUInt64 n)) rfl trivial
  rw [hview] at htakes
  exact htakes

theorem field?_iat : record.field? "iat"
    = some (.of "iat" int64OrNull Draft.issuedAt (fun d v => { d with issuedAt := some v }) false) :=
  rfl

theorem field?_exp : record.field? "exp"
    = some (.of "exp" int64OrNull Draft.expiration (fun d v => { d with expiration := some v }) false) :=
  rfl

theorem field?_iss : record.field? "iss"
    = some (.of "iss" string Draft.issuer (fun d v => { d with issuer := some v }) true) :=
  rfl

theorem takes_issuer (issuer : String) : Takes string (Value.str issuer).bytes (.ok issuer) :=
  takes_string (v := .str issuer) rfl trivial

theorem toNat_expiration {now : UInt64} {lifetime : Int64} (hlifetime : ¬lifetime < 0)
    (h : now.toNat + max lifetime.toInt 0 ≤ Int64.maxValue.toInt) :
    ((Token.expiration now lifetime).toNat : Int) = now.toNat + lifetime.toInt := by
  have hmax : Int64.maxValue.toInt = 0x7fffffffffffffff := by decide
  have hsize : UInt64.size = 0x10000000000000000 := rfl
  have hnonneg : 0 ≤ lifetime.toInt := by
    rw [Int64.lt_iff_toInt_lt] at hlifetime
    exact Int.not_lt.mp hlifetime
  rw [Token.expiration, UInt64.toNat_ofNat']
  omega

theorem readsMember_stamps {now : UInt64} {issuer : String} {lifetime : Int64} {m : String × Value}
    (h : m ∈ stamps now issuer lifetime) : record.ReadsMember m := by
  have htime : ∀ n, Takes int64OrNull (Value.int n).bytes (fit (orNull Value.int64? (.int n))) :=
    fun n => takes_int64OrNull (v := .int n) rfl trivial
  rw [stamps, List.cons_append, List.mem_cons, List.mem_append] at h
  rcases h with rfl | h | h
  · exact .of_field field?_iat (htime _)
  · split at h
    · cases h
    · cases List.mem_singleton.mp h
      exact .of_field field?_exp (htime _)
  · cases List.mem_singleton.mp h
    exact .of_field field?_iss (takes_issuer issuer)

/-- What comes of the stamps if none of their fields has come. -/
theorem foldlM_bring_stamps {now : UInt64} {lifetime : Int64}
    (h : now.toNat + max lifetime.toInt 0 ≤ Int64.maxValue.toInt) (issuer : String) (extra : Object) :
    (stamps now issuer lifetime).foldlM record.bring { extra }
      = .ok { issuer := some issuer, issuedAt := some (some (Int64.ofInt now.toNat)),
              expiration := if lifetime < 0 then none
                else some (some (Int64.ofInt (now.toNat + lifetime.toInt))),
              extra } := by
  have hnow : (now.toNat : Int) ≤ Int64.maxValue.toInt := by omega
  have hiat : ∀ d : Draft, d.issuedAt = none →
      record.bring d ("iat", .int (Integer.ofUInt64 now))
        = .ok { d with issuedAt := some (some (Int64.ofInt now.toNat)) } := fun d hd =>
    Record.bring_of_field (m := ("iat", .int (Integer.ofUInt64 now))) field?_iat hd (takes_time hnow)
  have hiss : ∀ d : Draft, d.issuer = none →
      record.bring d ("iss", .str issuer) = .ok { d with issuer := some issuer } := fun d hd =>
    Record.bring_of_field (m := ("iss", .str issuer)) field?_iss hd (takes_issuer issuer)
  rw [stamps, List.cons_append, List.foldlM_cons, hiat _ rfl, ok_bind]
  by_cases hlifetime : lifetime < 0
  · rw [if_pos hlifetime, if_pos hlifetime, List.nil_append, List.foldlM_cons, hiss _ rfl, ok_bind]
    rfl
  · have hexpiration := toNat_expiration hlifetime h
    have hend : ((Token.expiration now lifetime).toNat : Int) ≤ Int64.maxValue.toInt := by omega
    have hexp : ∀ d : Draft, d.expiration = none →
        record.bring d ("exp", .int (Integer.ofUInt64 (Token.expiration now lifetime)))
          = .ok { d with expiration := some (some (Int64.ofInt (now.toNat + lifetime.toInt))) } := by
      intro d hd
      rw [← hexpiration]
      exact Record.bring_of_field (m := ("exp", .int (Integer.ofUInt64 (Token.expiration now lifetime))))
        field?_exp hd (takes_time hend)
    rw [if_neg hlifetime, if_neg hlifetime, List.singleton_append, List.foldlM_cons, hexp _ rfl, ok_bind,
      List.foldlM_cons, hiss _ rfl, ok_bind]
    rfl

/-! ### The payload of a token -/

/-- The typed payload of a token that is issued with claims that have no field. -/
def issued (now : UInt64) (issuer : String) (lifetime : Int64) (claims : RawPayload) : Payload :=
  { empty with
    issuer
    issuedAt := some (Int64.ofInt now.toNat)
    expiration := if lifetime < 0 then none else some (Int64.ofInt (now.toNat + lifetime.toInt))
    extra := claims }

/-- Claims that a payload keeps, completed, are read as an issued payload. -/
theorem takes_mergeClaims {now : UInt64} {issuer : String} {lifetime : Int64} {claims : RawPayload}
    (hint : (Value.obj claims).IsIntegral) (hdist : (Value.obj claims).IsDistinct)
    (hnames : ∀ name ∈ registered, name ∉ Assoc.keys claims)
    (hdepth : (Value.obj (mergeClaims now issuer lifetime claims)).depth ≤ 127)
    (hnow : now.toNat + max lifetime.toInt 0 ≤ Int64.maxValue.toInt) :
    Takes record.readObject (Value.obj (mergeClaims now issuer lifetime claims)).bytes
      (.ok (issued now issuer lifetime claims)) := by
  have hmerge := mergeClaims_eq_append (hnames "iat" (by decide)) (hnames "exp" (by decide))
    (hnames "iss" (by decide)) now issuer lifetime
  rw [hmerge] at hdepth ⊢
  have hextra : ∀ m ∈ claims, IsExtra m := fun m hm =>
    { name := fun hregistered => hnames m.1 hregistered (List.mem_map_of_mem hm)
      integral := hint.of_mem_members hm
      distinct := hdist.of_mem_members hm
      depth := Value.depthOfMembers_le_iff.mp (Nat.le_of_succ_le_succ hdepth) m
        (List.mem_append_left _ hm) }
  have hreads : ∀ m ∈ claims ++ stamps now issuer lifetime, record.ReadsMember m := fun m hm =>
    (List.mem_append.mp hm).elim (fun h => (hextra m h).readsMember) readsMember_stamps
  -- the claims fill `extra` and leave the fields of the stamps unset
  have hfold : (claims ++ stamps now issuer lifetime).foldlM record.bring record.empty
      = .ok { issuer := some issuer, issuedAt := some (some (Int64.ofInt now.toNat)),
              expiration := if lifetime < 0 then none
                else some (some (Int64.ofInt (now.toNat + lifetime.toInt))),
              extra := claims } := by
    rw [List.foldlM_append, foldlM_bring_extra hextra, ok_bind]
    show (stamps now issuer lifetime).foldlM record.bring { extra := Assoc.insertAll [] claims } = _
    rw [Assoc.insertAll_nil_of_distinct hdist.distinct]
    exact foldlM_bring_stamps hnow issuer claims
  have htakes := Record.takes_readObject hreads
  rw [hfold, ok_bind] at htakes
  rw [issued]
  by_cases hlifetime : lifetime < 0
  · rw [if_pos hlifetime] at htakes ⊢
    exact htakes
  · rw [if_neg hlifetime] at htakes ⊢
    exact htakes

end Payload

end DidToken.Token
