import DidToken.Proofs.Token.Payload
import DidToken.Token.Draft
/-!
# Lifetimes and the times that can be read

A token is issued with a time of expiration that ends with the largest clock reading, while the typed
payload has signed times. So a token is decoded with a typed payload exactly as long as clock reading and
lifetime together fit a signed word (`decode_create_lifetime`); beyond that it is issued but cannot be read
(`decode_create_maxValue`).
-/

namespace DidToken.Token

open Json

/-! ### Times that cannot be read -/

theorem toInt64?_eq_none {n : Integer} (h : (0x8000000000000000 : Int) ≤ n.val) : n.toInt64? = none := by
  rw [Integer.toInt64?, if_neg (Int.not_lt.mpr h)]

/-- The sum of clock reading and lifetime is cut off above the signed words, if at all. -/
theorem le_toNat_expiration {now : UInt64} {lifetime : Int64}
    (h : Int64.maxValue.toInt < now.toNat + lifetime.toInt) :
    (0x8000000000000000 : Int) ≤ (expiration now lifetime).toNat := by
  have hmax := Int64.toInt_maxValue
  have hsize : UInt64.size = 0x10000000000000000 := rfl
  rw [expiration, UInt64.toNat_ofNat']
  omega

namespace Payload

/-- A time of expiration beyond the signed words is not read. -/
theorem bring_expiration_error {now : UInt64} {lifetime : Int64}
    (h : Int64.maxValue.toInt < now.toNat + lifetime.toInt) {d : Draft} (hd : d.expiration = none) :
    record.bring d ("exp", .int (Integer.ofUInt64 (Token.expiration now lifetime))) = .error .mismatch := by
  have hview : orNull Value.int64? (.int (Integer.ofUInt64 (Token.expiration now lifetime))) = none := by
    show ((Integer.ofUInt64 (Token.expiration now lifetime)).toInt64?).map some = none
    rw [toInt64?_eq_none (le_toNat_expiration h)]
    rfl
  have htakes := takes_int64OrNull
    (v := .int (Integer.ofUInt64 (Token.expiration now lifetime))) rfl trivial
  rw [hview] at htakes
  have hset : d.expiration.isSome = false := by rw [hd]; rfl
  rw [Record.bring, field?_exp]
  show (if d.expiration.isSome = true then _ else _) = _
  rw [hset]
  exact (takes_field_of htakes d).outcome_eq

/-- The payload of a token without claims, the times of which do not fit, is not read. -/
theorem takes_mergeClaims_error {now : UInt64} {lifetime : Int64}
    (hnow : now.toNat ≤ Int64.maxValue.toInt)
    (h : Int64.maxValue.toInt < now.toNat + lifetime.toInt) (issuer : String) :
    Takes record.readObject (Value.obj (mergeClaims now issuer lifetime [])).bytes (.error .mismatch) := by
  have hlifetime : ¬lifetime < 0 := by
    rw [Int64.lt_iff_toInt_lt]
    show ¬lifetime.toInt < 0
    omega
  have hmerge : mergeClaims now issuer lifetime [] = stamps now issuer lifetime :=
    mergeClaims_eq_append List.not_mem_nil List.not_mem_nil List.not_mem_nil now issuer lifetime
  have hiat : record.bring record.empty ("iat", .int (Integer.ofUInt64 now))
      = .ok { issuedAt := some (some (Int64.ofInt now.toNat)) } :=
    Record.bring_of_field (m := ("iat", .int (Integer.ofUInt64 now))) field?_iat rfl (takes_time hnow)
  have hfold : (stamps now issuer lifetime).foldlM record.bring record.empty = .error .mismatch := by
    rw [stamps, if_neg hlifetime, List.cons_append, List.foldlM_cons, hiat, ok_bind,
      List.singleton_append, List.foldlM_cons, bring_expiration_error h rfl]
    rfl
  have hreads : ∀ m ∈ stamps now issuer lifetime, record.ReadsMember m := fun m hm =>
    readsMember_stamps hm
  have htakes := Record.takes_readObject hreads
  rw [hfold] at htakes
  rw [hmerge]
  exact htakes

end Payload

/-! ### Tokens without claims -/

theorem depth_mergeClaims_nil (now : UInt64) (issuer : String) (lifetime : Int64) :
    (Value.obj (mergeClaims now issuer lifetime [])).depth ≤ 127 := by
  refine Nat.succ_le_succ (Value.depthOfMembers_le_iff.mpr fun m hm => ?_)
  rcases mem_mergeClaims hm with hm | hstamp
  · cases hm
  · cases hv : m.2 with
    | arr items => rw [hv] at hstamp; cases hstamp
    | obj members => rw [hv] at hstamp; cases hstamp
    | _ => exact Nat.zero_le _

/-- The draft of a signer with a lifetime is ready, and is signed as a token with the largest lifetime
below. -/
theorem sign_withLifetime {m : Type → Type} [Monad m] (signer : Signer m) (a : Algorithm)
    (seconds now : UInt64) :
    ∃ ready, (((Draft.empty.issuedBy signer).usingAlgorithm a).withLifetime seconds).ready? = some ready
      ∧ ready.sign now = create now [] (Did.ofAddress signer.address) signer
          (Int64.ofInt (min seconds.toNat Int64.maxValue.toInt)) a.name :=
  ⟨_, rfl, rfl⟩

/-- Issuing signs one text. The token that comes of a signature is decoded with a typed payload, which has the
clock reading as its time of issue and the sum with the lifetime as its time of expiration, if the sum fits a
signed word. Otherwise the payload of the token is refused. -/
def IssuesLimited {m : Type → Type} [Monad m] (signer : Signer m) (a : Algorithm) (now : UInt64)
    (lifetime : Int64) (issuing : m (Except Error String)) : Prop :=
  ∃ input, issuing = issued a input <$> signer.sign (Bytes.ofString input)
    ∧ ∀ signature, ∃ token, issued a input (.ok signature) = .ok token
      ∧ (now.toNat + lifetime.toInt ≤ Int64.maxValue.toInt →
        ∃ d start stop, decode token = .ok d ∧ d.payload.issuedAt = some start
          ∧ start.toInt = now.toNat ∧ d.payload.expiration = some stop
          ∧ stop.toInt = now.toNat + lifetime.toInt)
      ∧ (Int64.maxValue.toInt < now.toNat + lifetime.toInt →
        decode token = .error (.malformedSegment .payload (.json .mismatch)))

theorem issuesLimited_create {m : Type → Type} [Monad m] [LawfulMonad m] {now : UInt64}
    {lifetime : Int64} (hnow : now.toNat ≤ Int64.maxValue.toInt) (hlifetime : 0 ≤ lifetime.toInt)
    (issuer : String) (signer : Signer m) (a : Algorithm) :
    IssuesLimited signer a now lifetime (create now [] issuer signer lifetime a.name) := by
  have hmax := Int64.toInt_maxValue
  refine ⟨_, create_name now [] issuer signer lifetime a, fun signature => ⟨_, rfl, fun hfits => ?_,
    fun hexceeds => ?_⟩⟩
  · have hbound : now.toNat + max lifetime.toInt 0 ≤ Int64.maxValue.toInt := by omega
    have hint : (Value.obj []).IsIntegral := ⟨rfl, trivial⟩
    have htakes := Payload.takes_mergeClaims hint ⟨List.nodup_nil, trivial⟩
      (fun _ _ => List.not_mem_nil) (depth_mergeClaims_nil now issuer lifetime) hbound
    have hdecode := decodeWith_issued htakes (Header.ofAlgorithm a)
      (toBytes_ne_nil signature a.isRecoverable)
    have hnotneg : ¬lifetime < 0 := by
      rw [Int64.lt_iff_toInt_lt]
      exact Int.not_lt.mpr hlifetime
    exact ⟨_, Int64.ofInt now.toNat, Int64.ofInt (now.toNat + lifetime.toInt), hdecode, rfl,
      Int64.toInt_ofInt_of_le (by omega) (by omega), if_neg hnotneg,
      Int64.toInt_ofInt_of_le (by omega) (by omega)⟩
  · exact decodeWith_issued (Payload.takes_mergeClaims_error hnow hexceeds issuer) (Header.ofAlgorithm a)
      (toBytes_ne_nil signature a.isRecoverable)

/-- A token without claims, issued with a lifetime from zero up or by a draft with any lifetime, is decoded
with a typed payload exactly if clock reading and lifetime together fit a signed word. A draft counts
lifetimes that are no signed words as the largest one. -/
theorem decode_create_lifetime {m : Type → Type} [Monad m] [LawfulMonad m] {now : UInt64}
    (hnow : now.toNat ≤ Int64.maxValue.toInt) (signer : Signer m) (a : Algorithm) :
    (∀ (issuer : String) (lifetime : Int64), 0 ≤ lifetime.toInt →
      IssuesLimited signer a now lifetime (create now [] issuer signer lifetime a.name))
    ∧ ∀ seconds : UInt64, ∃ ready,
      (((Draft.empty.issuedBy signer).usingAlgorithm a).withLifetime seconds).ready? = some ready
        ∧ IssuesLimited signer a now (Int64.ofInt (min seconds.toNat Int64.maxValue.toInt))
          (ready.sign now) := by
  refine ⟨fun issuer lifetime hlifetime => issuesLimited_create hnow hlifetime issuer signer a,
    fun seconds => ?_⟩
  obtain ⟨ready, hready, hsign⟩ := sign_withLifetime signer a seconds now
  refine ⟨ready, hready, ?_⟩
  rw [hsign]
  refine issuesLimited_create hnow ?_ _ signer a
  have hmax := Int64.toInt_maxValue
  have hseconds : (0 : Int) ≤ seconds.toNat := Int.natCast_nonneg _
  rw [Int64.toInt_ofInt_of_le (by omega) (by omega)]
  omega

/-- A token that has just been issued, with the default lifetime. -/
theorem decode_create_lifetime_default :
    ∃ token d stop, create (m := Id) 1000 [] "did:x:y" ⟨"0x1", fun _ => .ok ⟨1, 2, 0⟩⟩ 300 "ES256K"
        = .ok token
      ∧ decode token = .ok d ∧ d.payload.expiration = some stop ∧ stop.toInt = 1300 := by
  have hnow : (1000 : UInt64).toNat ≤ Int64.maxValue.toInt := by decide
  obtain ⟨input, hcreate, htoken⟩ := (decode_create_lifetime hnow
    (⟨"0x1", fun _ => .ok ⟨1, 2, 0⟩⟩ : Signer Id) .plain).1 "did:x:y" 300 (by decide)
  obtain ⟨token, hissued, hdecode, -⟩ := htoken ⟨1, 2, 0⟩
  obtain ⟨d, start, stop, hd, -, -, hstop, hvalue⟩ := hdecode (by decide)
  exact ⟨token, d, stop, hcreate.trans hissued, hd, hstop, hvalue⟩

/-- The largest lifetime makes a token that cannot be decoded with a typed payload, as soon as the clock
does not read zero. -/
theorem decode_create_maxValue :
    ∃ token, create (m := Id) 1000 [] "did:x:y" ⟨"0x1", fun _ => .ok ⟨1, 2, 0⟩⟩ Int64.maxValue "ES256K"
        = .ok token
      ∧ failure? (decode token) = some (.malformedSegment .payload (.json .mismatch)) := by
  refine ⟨_, rfl, ?_⟩
  decide +kernel

end DidToken.Token
