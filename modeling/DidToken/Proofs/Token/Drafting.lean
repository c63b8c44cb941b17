import DidToken.Proofs.Assoc
import DidToken.Token.Draft
/-!
# What a draft is made of

A draft is what its steps say, in whatever order they come: in each field stands the last thing said of it, and
the claims are collected by name. Each step does to the draft what it says (`Step.apply_eq`), so a run of steps
comes to the last word on each field (`or_run`) and steps that speak of different fields can be swapped
(`run_swap`). A ready draft is signed as the token of all that (`sign_run`).
-/

namespace DidToken.Token.Draft

open Json

variable {m : Type → Type} {α : Type}

/-! ### Steps -/

/-- A step of the preparation of a token. -/
inductive Step (m : Type → Type) where
  | issuedBy (signer : Signer m)
  | asIssuer (did : String)
  | withClaim (name : String) (v : Option Value)
  | withClaims (claims : RawPayload)
  | withLifetime (seconds : UInt64)
  | withoutExpiration
  | usingAlgorithm (algorithm : Algorithm)

/-- What a step may set. -/
inductive Part where
  | signer
  | issuer
  | claims
  | lifetime
  | algorithm
deriving DecidableEq

namespace Step

def apply (d : Draft m) : Step m → Draft m
  | issuedBy signer => d.issuedBy signer
  | asIssuer did => d.asIssuer did
  | withClaim name v => d.withClaim name v
  | withClaims claims => d.withClaims claims
  | withLifetime seconds => d.withLifetime seconds
  | withoutExpiration => d.withoutExpiration
  | usingAlgorithm algorithm => d.usingAlgorithm algorithm

/-- The part that a step sets. -/
def part : Step m → Part
  | issuedBy _ => .signer
  | asIssuer _ => .issuer
  | withClaim _ _ | withClaims _ => .claims
  | withLifetime _ | withoutExpiration => .lifetime
  | usingAlgorithm _ => .algorithm

/-! What a step says of each part. -/

def signer? : Step m → Option (Signer m)
  | issuedBy signer => some signer
  | _ => none

def issuer? : Step m → Option String
  | asIssuer did => some did
  | _ => none

/-- The claims that a step adds; a value without JSON form adds none. -/
def entries : Step m → List (String × Value)
  | withClaim name v => v.toList.map (name, ·)
  | withClaims claims => claims
  | _ => []

/-- The lifetime in seconds, no longer than the largest there is; a negative one is no end. -/
def lifetime? : Step m → Option Int
  | withLifetime seconds => some (min seconds.toNat Int64.maxValue.toInt)
  | withoutExpiration => some (-1)
  | _ => none

def algorithm? : Step m → Option Algorithm
  | usingAlgorithm algorithm => some algorithm
  | _ => none

/-- A step does what it says of each part. -/
theorem apply_eq (d : Draft m) (s : Step m) :
    s.apply d = {
      signer := s.signer?.or d.signer
      issuer := s.issuer?.or d.issuer
      claims := Assoc.insertAll d.claims s.entries
      lifetime := (s.lifetime?.map Int64.ofInt).getD d.lifetime
      algorithm := s.algorithm?.getD d.algorithm } := by
  cases s with
  | withClaim name v => cases v <;> rfl
  | _ => rfl

/-- A lifetime that a step says fits a signed word. -/
theorem toInt_lifetime_apply (d : Draft m) (s : Step m) :
    (s.apply d).lifetime.toInt = s.lifetime?.getD d.lifetime.toInt := by
  have hfits : ∀ k ∈ s.lifetime?, -2 ^ 63 ≤ k ∧ k < 2 ^ 63 := by
    intro k hk
    cases s with
    | withLifetime seconds =>
      cases hk
      have hmax := Int64.toInt_maxValue
      omega
    | withoutExpiration =>
      cases hk
      decide
    | _ => cases hk
  rw [apply_eq]
  cases hk : s.lifetime? with
  | none => rfl
  | some k => exact Int64.toInt_ofInt_of_le (hfits k hk).1 (hfits k hk).2

/-- Steps that set different parts can be taken in either order. -/
theorem apply_comm {a b : Step m} (h : a.part ≠ b.part) (d : Draft m) :
    b.apply (a.apply d) = a.apply (b.apply d) := by
  rw [apply_eq, apply_eq d a, apply_eq (b.apply d), apply_eq d b]
  -- of two different parts each is set by one of the steps at most
  cases a <;> cases b <;> first | rfl | exact absurd rfl h

end Step

/-! ### Runs -/

def run (steps : List (Step m)) : Draft m :=
  steps.foldl Step.apply empty

/-- The last thing that the steps say of something. -/
def last (word : Step m → Option α) (steps : List (Step m)) : Option α :=
  (steps.filterMap word).getLast?

theorem run_concat (steps : List (Step m)) (s : Step m) : run (steps ++ [s]) = s.apply (run steps) := by
  rw [run, List.foldl_append]
  rfl

theorem last_concat (word : Step m → Option α) (steps : List (Step m)) (s : Step m) :
    last word (steps ++ [s]) = (word s).or (last word steps) := by
  rw [last, List.filterMap_append, List.filterMap_cons, List.filterMap_nil]
  cases word s with
  | none => rw [List.append_nil, Option.none_or, last]
  | some a => rw [List.getLast?_concat, Option.some_or]

/-- A part that each step sets to what it says of it is what was said of it last, or what it was in the
beginning. -/
theorem or_run (shown : Draft m → Option α) {word : Step m → Option α}
    (h : ∀ s d, shown (s.apply d) = (word s).or (shown d)) (steps : List (Step m)) :
    shown (run steps) = (last word steps).or (shown empty) := by
  induction steps using List.reverseRecOn with
  | nil => rfl
  | append_singleton steps s ih => rw [run_concat, h, ih, last_concat, Option.or_assoc]

theorem signer_run (steps : List (Step m)) : (run steps).signer = last Step.signer? steps :=
  (or_run signer (fun s d => by rw [Step.apply_eq]) steps).trans Option.or_none

theorem issuer_run (steps : List (Step m)) : (run steps).issuer = last Step.issuer? steps :=
  (or_run issuer (fun s d => by rw [Step.apply_eq]) steps).trans Option.or_none

theorem toInt_lifetime_run (steps : List (Step m)) :
    (run steps).lifetime.toInt = (last Step.lifetime? steps).getD 300 := by
  have h := or_run (fun d => some d.lifetime.toInt)
    (fun s d => by rw [Step.toInt_lifetime_apply, Option.or_some]) steps
  rw [Option.or_some] at h
  exact Option.some.inj h

theorem algorithm_run (steps : List (Step m)) :
    (run steps).algorithm = (last Step.algorithm? steps).getD .recoverable := by
  have h := or_run (fun d => some d.algorithm)
    (fun s d => by rw [Step.apply_eq, Option.or_some]) steps
  rw [Option.or_some] at h
  exact Option.some.inj h

/-- All claims that the steps add are collected by name. -/
theorem claims_run (steps : List (Step m)) :
    (run steps).claims = Assoc.collected (steps.flatMap Step.entries) := by
  rw [← Assoc.insertAll_nil]
  induction steps using List.reverseRecOn with
  | nil => rfl
  | append_singleton steps s ih =>
    rw [run_concat, Step.apply_eq, List.flatMap_append, List.flatMap_singleton, Assoc.insertAll_append, ← ih]

theorem run_swap {a b : Step m} (h : a.part ≠ b.part) (before after : List (Step m)) :
    run (before ++ a :: b :: after) = run (before ++ b :: a :: after) := by
  rw [run, run, List.foldl_append, List.foldl_append, List.foldl_cons, List.foldl_cons, List.foldl_cons,
    List.foldl_cons, Step.apply_comm h]

theorem last_signer?_eq_none_iff {steps : List (Step m)} :
    last Step.signer? steps = none ↔ ∀ signer, Step.issuedBy signer ∉ steps := by
  rw [last, List.getLast?_eq_none_iff, List.filterMap_eq_nil_iff]
  constructor
  · intro h signer hmem
    cases h _ hmem
  · intro h s hs
    cases s with
    | issuedBy signer => exact absurd hs (h signer)
    | _ => rfl

/-! ### Signing -/

/-- A draft is ready if it has a signer, and then it is signed as the token of its parts. -/
theorem exists_ready? [Monad m] {d : Draft m} {signer : Signer m} (h : d.signer = some signer)
    (now : UInt64) :
    ∃ ready, d.ready? = some ready
      ∧ ready.sign now = create now d.claims (d.issuer.getD (Did.ofAddress signer.address)) signer
        d.lifetime d.algorithm.name := by
  rw [ready?, h]
  exact ⟨_, rfl, rfl⟩

/-- Steps with a signer among them, in any order, make a draft that is signed as the token with the claims
collected by name, the issuer given last or else the DID of the last signer, the last signer, and the lifetime
and the algorithm given last or else 300 seconds and `ES256K-R`. Steps without a signer make no draft that is
ready, and neighbouring steps that set different parts can be swapped. -/
theorem sign_run [Monad m] (steps : List (Step m)) (now : UInt64) :
    ((∃ signer, Step.issuedBy signer ∈ steps) →
      ∃ signer ready lifetime, last Step.signer? steps = some signer ∧ (run steps).ready? = some ready
        ∧ lifetime.toInt = (last Step.lifetime? steps).getD 300
        ∧ ready.sign now = create now (Assoc.collected (steps.flatMap Step.entries))
          ((last Step.issuer? steps).getD ("did:ethr:" ++ signer.address)) signer lifetime
          ((last Step.algorithm? steps).getD .recoverable).name)
    ∧ ((∀ signer, Step.issuedBy signer ∉ steps) → (run steps).ready? = none)
    ∧ ∀ before a b after, a.part ≠ b.part → steps = before ++ a :: b :: after →
      run (before ++ b :: a :: after) = run steps := by
  refine ⟨fun hsigned => ?_, fun hunsigned => ?_, ?_⟩
  · obtain ⟨signer, hsigner⟩ : ∃ signer, last Step.signer? steps = some signer := by
      refine Option.ne_none_iff_exists'.mp fun hnone => ?_
      obtain ⟨signer, hmem⟩ := hsigned
      exact last_signer?_eq_none_iff.mp hnone signer hmem
    obtain ⟨ready, hready, hsign⟩ := exists_ready? ((signer_run steps).trans hsigner) now
    rw [claims_run, issuer_run, algorithm_run] at hsign
    exact ⟨signer, ready, _, hsigner, hready, toInt_lifetime_run steps, hsign⟩
  · rw [ready?, signer_run, last_signer?_eq_none_iff.mpr hunsigned]
    rfl
  · rintro before a b after hparts rfl
    exact (run_swap hparts before after).symm

/-- A draft whose signer comes last and is the second one, with a claim that is given twice. -/
theorem sign_run_twice :
    let first : Signer Id := .failing "0x1" "lost"
    let second : Signer Id := .failing "0x2" "locked"
    ∃ ready, (run [.withLifetime 60, .issuedBy first, .withClaim "b" (some .null), .withoutExpiration,
        .withClaims [("a", .bool true), ("b", .bool false)], .issuedBy second]).ready? = some ready
      ∧ ∃ lifetime : Int64, lifetime.toInt = -1
        ∧ ready.sign 1000 = create 1000 [("b", .bool false), ("a", .bool true)] "did:ethr:0x2" second lifetime
          "ES256K-R" := by
  intro first second
  obtain ⟨signer, ready, lifetime, hsigner, hready, hlifetime, hsign⟩ :=
    (sign_run [.withLifetime 60, .issuedBy first, .withClaim "b" (some .null), .withoutExpiration,
      .withClaims [("a", .bool true), ("b", .bool false)], .issuedBy second] 1000).1 ⟨second, by simp⟩
  obtain rfl : second = signer := Option.some.inj hsigner
  exact ⟨ready, hready, lifetime, hlifetime, hsign⟩

end DidToken.Token.Draft
