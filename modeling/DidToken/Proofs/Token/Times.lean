import DidToken.Proofs.Checks
import DidToken.Token.Verify
/-!
# Times and unbounded numbers

What becomes of a payload that must have started by one time, and must not be over by another one, is said in
unbounded numbers (`Judged`). The two checks of the times find this judgement and no other (`judged_iff`). So
the times are checked as for the clock reading give or take the skew, except that reading and skew are cut off
at the latest time before the end is judged (`checkTimes_exact`). A payload that ends at the latest time is
therefore not expired for a clock that reads more (`checkTimes_late_reading`).
-/

namespace DidToken.Token

/-! ### Judgements -/

/-- The payload is valid by the time `last`. -/
structure Payload.HasStarted (p : Payload) (last : Int) : Prop where
  notBefore : ∀ t, p.notBefore = some t → t.toInt ≤ last
  issuedAt : p.notBefore = none → ∀ t, p.issuedAt = some t → t.toInt ≤ last

/-- What becomes of a payload that must be valid by the time `last` and must end after the time `first`. -/
inductive Judged (last first : Int) (p : Payload) : Except Error Unit → Prop
  | notBefore {t : Int64} (named : p.notBefore = some t) (early : last < t.toInt) :
    Judged last first p (.error (.notYetValid .notBefore t))
  | issuedAt {t : Int64} (unnamed : p.notBefore = none) (named : p.issuedAt = some t)
    (early : last < t.toInt) : Judged last first p (.error (.notYetValid .issuedAt t))
  | expired {t : Int64} (started : p.HasStarted last) (named : p.expiration = some t)
    (past : t.toInt ≤ first) : Judged last first p (.error (.expired t))
  | valid (started : p.HasStarted last) (lasting : ∀ t, p.expiration = some t → first < t.toInt) :
    Judged last first p (.ok ())

variable {last first last' first' : Int} {p : Payload} {answer : Except Error Unit}

theorem Payload.HasStarted.mono (hle : first ≤ last) (h : p.HasStarted first) : p.HasStarted last :=
  ⟨fun t named => Int.le_trans (h.notBefore t named) hle,
    fun unnamed t named => Int.le_trans (h.issuedAt unnamed t named) hle⟩

theorem judged_ok_iff :
    Judged last first p (.ok ()) ↔ p.HasStarted last ∧ ∀ t, p.expiration = some t → first < t.toInt := by
  constructor
  · rintro ⟨⟩
    next started lasting => exact ⟨started, lasting⟩
  · exact fun ⟨started, lasting⟩ => .valid started lasting

theorem Judged.congr (hlast : ∀ t : Int64, t.toInt ≤ last ↔ t.toInt ≤ last')
    (hfirst : ∀ t : Int64, t.toInt ≤ first ↔ t.toInt ≤ first') (h : Judged last first p answer) :
    Judged last' first' p answer := by
  have hlast' : ∀ t : Int64, last < t.toInt ↔ last' < t.toInt := fun t => by
    rw [← Int.not_le, hlast, Int.not_le]
  have hfirst' : ∀ t : Int64, first < t.toInt ↔ first' < t.toInt := fun t => by
    rw [← Int.not_le, hfirst, Int.not_le]
  have hstarted : p.HasStarted last → p.HasStarted last' := fun started =>
    ⟨fun t named => (hlast t).mp (started.notBefore t named),
      fun unnamed t named => (hlast t).mp (started.issuedAt unnamed t named)⟩
  cases h with
  | notBefore named early => exact .notBefore named ((hlast' _).mp early)
  | issuedAt unnamed named early => exact .issuedAt unnamed named ((hlast' _).mp early)
  | expired started named past => exact .expired (hstarted started) named ((hfirst _).mp past)
  | valid started lasting =>
    exact .valid (hstarted started) fun t named => (hfirst' t).mp (lasting t named)

/-! ### The checks -/

theorem checkStart_eq_ok_iff : checkStart last p = .ok () ↔ p.HasStarted last := by
  unfold checkStart
  split
  · next t named =>
    rw [ite_error_eq_ok_iff, Int.not_lt]
    refine ⟨fun h => ⟨fun t' named' => ?_, fun unnamed => ?_⟩, fun h => h.notBefore t named⟩
    · cases named.symm.trans named'
      exact h
    · cases named.symm.trans unnamed
  · next t unnamed named =>
    rw [ite_error_eq_ok_iff, Int.not_lt]
    refine ⟨fun h => ⟨fun t' named' => ?_, fun _ t' named' => ?_⟩, fun h => h.issuedAt unnamed t named⟩
    · cases unnamed.symm.trans named'
    · cases named.symm.trans named'
      exact h
  · next unnamed unissued =>
    refine ⟨fun _ => ⟨fun t' named' => ?_, fun _ t' named' => ?_⟩, fun _ => rfl⟩
    · cases unnamed.symm.trans named'
    · cases unissued.symm.trans named'

theorem checkEnd_eq_ok_iff :
    checkEnd first p = .ok () ↔ ∀ t, p.expiration = some t → first < t.toInt := by
  unfold checkEnd
  split
  · next t named =>
    rw [ite_error_eq_ok_iff, Int.not_le]
    refine ⟨fun h t' named' => ?_, fun h => h t named⟩
    cases named.symm.trans named'
    exact h
  · next unnamed => exact ⟨fun _ t' named => (nomatch unnamed.symm.trans named), fun _ => rfl⟩

theorem judged_of_checkStart {e : Error} (h : checkStart last p = .error e) :
    Judged last first p (.error e) := by
  unfold checkStart at h
  split at h
  · next t named =>
    split at h
    · next early =>
      cases h
      exact .notBefore named early
    · cases h
  · next t unnamed named =>
    split at h
    · next early =>
      cases h
      exact .issuedAt unnamed named early
    · cases h
  · cases h

theorem judged_checkEnd (started : p.HasStarted last) : Judged last first p (checkEnd first p) := by
  cases hend : checkEnd first p with
  | ok _ => exact .valid started (checkEnd_eq_ok_iff.mp hend)
  | error e =>
    unfold checkEnd at hend
    split at hend
    · next t named =>
      split at hend
      · next past =>
        cases hend
        exact .expired started named past
      · cases hend
    · cases hend

/-- A payload is judged as the two checks find it, and in no other way. -/
theorem judged_iff :
    Judged last first p answer ↔ (checkStart last p >>= fun _ => checkEnd first p) = answer := by
  constructor
  · intro h
    cases h with
    | notBefore named early =>
      rw [checkStart, named]
      exact congrArg (· >>= fun _ => checkEnd first p) (if_pos early)
    | issuedAt unnamed named early =>
      rw [checkStart, unnamed, named]
      exact congrArg (· >>= fun _ => checkEnd first p) (if_pos early)
    | expired started named past =>
      rw [checkStart_eq_ok_iff.mpr started, ok_bind, checkEnd, named]
      exact if_pos past
    | valid started lasting =>
      rw [checkStart_eq_ok_iff.mpr started, ok_bind, checkEnd_eq_ok_iff.mpr lasting]
  · rintro rfl
    cases hstart : checkStart last p with
    | error e => exact judged_of_checkStart hstart
    | ok _ => exact judged_checkEnd (checkStart_eq_ok_iff.mp hstart)

/-! ### Cutting off -/

theorem toInt_ofInt {k : Int} (hlow : -latest ≤ k) (hhigh : k ≤ latest) : (Int64.ofInt k).toInt = k := by
  have hneg : -0x8000000000000000 ≤ -latest := by decide
  have hmax : latest < 0x8000000000000000 := by decide
  exact Int64.toInt_ofInt_of_le (Int.le_trans hneg hlow) (Int.lt_of_le_of_lt hhigh hmax)

/-- By the latest time, nothing is too early; so the bound for starts is as good as unbounded. -/
theorem le_last_iff (now skew : UInt64) (t : Int64) :
    t.toInt ≤ min (min (now.toNat : Int) latest + min (skew.toNat : Int) latest) latest
      ↔ t.toInt ≤ now.toNat + skew.toNat := by
  have hle : t.toInt ≤ latest := Int64.toInt_le t
  have hpos : 0 ≤ latest := by decide
  omega

/-- The difference of two times that are cut off is a time. -/
theorem le_first_iff (now skew : UInt64) (t : Int64) :
    t.toInt ≤ max (min (now.toNat : Int) latest - min (skew.toNat : Int) latest) earliest
      ↔ t.toInt ≤ min (now.toNat : Int) latest - min (skew.toNat : Int) latest := by
  have hpos : 0 ≤ latest := by decide
  have hneg : earliest ≤ -latest := by decide
  omega

theorem judged_checkTimes_iff {now skew : UInt64} :
    Judged (now.toNat + skew.toNat) (min (now.toNat : Int) latest - min (skew.toNat : Int) latest) p answer
      ↔ checkTimes now skew p = answer := by
  rw [checkTimes, ← judged_iff]
  exact ⟨Judged.congr (fun t => (le_last_iff now skew t).symm) (fun t => (le_first_iff now skew t).symm),
    Judged.congr (le_last_iff now skew) (le_first_iff now skew)⟩

theorem checkTimes_eq_ok_iff {now skew : UInt64} :
    checkTimes now skew p = .ok ()
      ↔ p.HasStarted (now.toNat + skew.toNat)
        ∧ ∀ t, p.expiration = some t
          → min (now.toNat : Int) latest - min (skew.toNat : Int) latest < t.toInt :=
  judged_checkTimes_iff.symm.trans judged_ok_iff

/-! ### Exactness -/

/-- A payload that only says when it ends. -/
def Payload.ending (t : Int64) : Payload :=
  { empty with expiration := some t }

theorem judged_ending_iff {t : Int64} :
    Judged last first (Payload.ending t) (.ok ()) ↔ first < t.toInt := by
  rw [judged_ok_iff]
  constructor
  · exact fun ⟨_, lasting⟩ => lasting t rfl
  · refine fun h => ⟨⟨nofun, fun _ => nofun⟩, fun t' named => ?_⟩
    cases named
    exact h

/-- Cutting off reading and skew changes what is over for some time, except where it changes neither or both
alike, or where everything is over. -/
theorem le_difference_iff (now skew : UInt64) :
    (∀ t : Int64, t.toInt ≤ min (now.toNat : Int) latest - min (skew.toNat : Int) latest
        ↔ t.toInt ≤ (now.toNat - skew.toNat : Int))
      ↔ ((now.toNat : Int) ≤ latest ∧ (skew.toNat : Int) ≤ latest) ∨ skew = 0 ∨ now = skew := by
  have hpos : 0 < latest := by decide
  constructor
  · intro h
    by_cases hzero : skew = 0
    · exact .inr (.inl hzero)
    have hskew : skew.toNat ≠ 0 := fun h0 => hzero (UInt64.toNat_inj.mp h0)
    -- the difference and the time after it are times, and tell apart any other difference
    have hsame : min (now.toNat : Int) latest - min (skew.toNat : Int) latest
        = (now.toNat - skew.toNat : Int) := by
      have hat := h (Int64.ofInt (min (now.toNat : Int) latest - min (skew.toNat : Int) latest))
      have hafter := h (Int64.ofInt (min (now.toNat : Int) latest - min (skew.toNat : Int) latest + 1))
      rw [toInt_ofInt (by omega) (by omega)] at hat
      rw [toInt_ofInt (by omega) (by omega)] at hafter
      omega
    by_cases hequal : now = skew
    · exact .inr (.inr hequal)
    have hne : now.toNat ≠ skew.toNat := fun heq => hequal (UInt64.toNat_inj.mp heq)
    exact .inl (by omega)
  · intro h t
    have hle : t.toInt ≤ latest := Int64.toInt_le t
    rcases h with hsmall | rfl | rfl
    · omega
    · have hzero : (0 : UInt64).toNat = 0 := rfl
      omega
    · omega

/-- The times of a payload are checked as unbounded numbers would have it, except that clock reading and skew
are cut off at the latest time before the end is judged. For no payload does this make a difference exactly if
neither exceeds the latest time, there is no skew, or both are the same. -/
theorem checkTimes_exact (now skew : UInt64) :
    (∀ p answer, checkTimes now skew p = answer
      ↔ Judged (now.toNat + skew.toNat)
          (min (now.toNat : Int) latest - min (skew.toNat : Int) latest) p answer)
    ∧ ((∀ p answer, checkTimes now skew p = answer
        ↔ Judged (now.toNat + skew.toNat) (now.toNat - skew.toNat) p answer)
      ↔ ((now.toNat : Int) ≤ latest ∧ (skew.toNat : Int) ≤ latest) ∨ skew = 0 ∨ now = skew) := by
  refine ⟨fun p answer => judged_checkTimes_iff.symm, ?_⟩
  rw [← le_difference_iff]
  constructor
  · intro h t
    have hending := (h (Payload.ending t) (.ok ())).symm.trans judged_checkTimes_iff.symm
    rw [judged_ending_iff, judged_ending_iff] at hending
    rw [← Int.not_lt, ← hending, Int.not_lt]
  · intro h p answer
    rw [← judged_checkTimes_iff]
    exact ⟨Judged.congr (fun _ => Iff.rfl) h, Judged.congr (fun _ => Iff.rfl) fun t => (h t).symm⟩

/-- A payload ends at the latest time, and the clock reads so much more that it is over even with the skew. It
is not taken for expired. -/
theorem checkTimes_late_reading :
    let now : UInt64 := 9223372036854776107
    let skew : UInt64 := 300
    let p := Payload.ending 9223372036854775807
    checkTimes now skew p = .ok ()
      ∧ Judged (now.toNat + skew.toNat) (now.toNat - skew.toNat) p (.error (.expired 9223372036854775807))
      ∧ ¬Judged (now.toNat + skew.toNat) (now.toNat - skew.toNat) p (.ok ()) := by
  intro now skew p
  have hstarted : ∀ last, p.HasStarted last := fun last => ⟨nofun, fun _ => nofun⟩
  refine ⟨?_, .expired (hstarted _) rfl (by decide), ?_⟩
  · rw [← judged_checkTimes_iff, judged_ending_iff]
    decide
  · rw [judged_ending_iff]
    decide

end DidToken.Token
