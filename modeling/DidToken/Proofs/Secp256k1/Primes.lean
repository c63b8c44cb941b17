import DidToken.Proofs.Secp256k1.Residues
import Mathlib.Data.List.Prime
import Mathlib.NumberTheory.LucasPrimality
import Mathlib.Tactic.NormNum.Prime
/-!
# The moduli are prime

A number is prime if some root of one has the order of all numbers below it, which is seen from its powers if
the prime factors of that order are known. A certificate names such a root and those factors, which are small
or have certificates of their own (`prime_of_certified`).
-/

namespace DidToken.Secp256k1

/-- What shows that a number is prime. -/
structure Certificate where
  number : Nat
  /-- An element whose powers are all the other numbers from one. -/
  root : Nat
  /-- The factors of the number less one, with their multiplicities. -/
  factors : List (Nat × Nat)

/-- The powers are as the certificate says. -/
def Certificate.holds : Certificate → Bool
  | ⟨0, _, _⟩ => false
  | ⟨k + 1, root, factors⟩ =>
    let raised := power (Fin.ofNat (k + 1) root) (k.log2 + 1)
    (factors.map fun f => Nat.pow f.1 f.2).prod = k && raised k = 1
      && factors.all fun f => raised (k / f.1) ≠ 1

theorem Certificate.prime {c : Certificate} (hfactors : ∀ f ∈ c.factors, f.1.Prime)
    (h : c.holds = true) : c.number.Prime := by
  obtain ⟨_ | k, root, factors⟩ := c
  · cases h
  rw [holds] at h
  simp only [Bool.and_eq_true, decide_eq_true_iff, List.all_eq_true] at h
  obtain ⟨⟨hproduct, hone⟩, hne⟩ := h
  have hraised : ∀ e, e ≤ k → residue (power (Fin.ofNat (k + 1) root) (k.log2 + 1) e)
      = residue (Fin.ofNat (k + 1) root) ^ e := fun e he =>
    residue_power _ (he.trans_lt Nat.lt_log2_self)
  refine lucas_primality (k + 1) (residue (Fin.ofNat (k + 1) root)) ?_ fun q hq hdvd => ?_
  · rw [Nat.add_sub_cancel, ← hraised k le_rfl, hone, residue_one]
  · rw [Nat.add_sub_cancel] at hdvd ⊢
    -- a prime that divides the product is one of the factors
    rw [← hproduct] at hdvd
    obtain ⟨d, hd, hqd⟩ := (Prime.dvd_prod_iff hq.prime).mp hdvd
    obtain ⟨f, hf, rfl⟩ := List.mem_map.mp hd
    obtain rfl : q = f.1 := (Nat.prime_dvd_prime_iff_eq hq (hfactors f hf)).mp (hq.dvd_of_dvd_pow hqd)
    rw [← hraised _ (Nat.div_le_self k f.1), Ne, ← residue_one, residue_inj]
    exact hne f hf

/-- Each certificate holds, and its factors are known or have certificates before it. -/
def certified (known : List Nat) : List Certificate → Bool
  | [] => true
  | c :: rest =>
    c.factors.all (fun f => known.contains f.1) && c.holds && certified (c.number :: known) rest

theorem prime_of_certified {known : List Nat} {certificates : List Certificate}
    (hknown : ∀ q ∈ known, q.Prime) (h : certified known certificates = true) :
    ∀ c ∈ certificates, c.number.Prime := by
  induction certificates generalizing known with
  | nil => nofun
  | cons c rest ih =>
    rw [certified] at h
    simp only [Bool.and_eq_true, List.all_eq_true, List.contains_iff_mem] at h
    obtain ⟨⟨hfactors, hholds⟩, hrest⟩ := h
    have hprime : c.number.Prime := c.prime (fun f hf => hknown f.1 (hfactors f hf)) hholds
    exact List.forall_mem_cons.mpr ⟨hprime, ih (List.forall_mem_cons.mpr ⟨hprime, hknown⟩) hrest⟩

/-- Primes that need no certificate. -/
def smallPrimes : List Nat :=
  [2, 3, 5, 7, 11, 17, 29, 31, 41, 53, 59, 97, 109, 149, 293, 461, 631, 797, 971, 1373, 1627, 1871, 2011,
   2621, 2657, 4051, 4423, 5323, 7723, 9349, 13441, 16699, 20113, 24809, 28181, 41201, 85831, 96557,
   120233, 305873]

/-- The certificates of both moduli. -/
def certificates : List Certificate :=
  [⟨13331831, 13, [(2, 1), (5, 1), (971, 1), (1373, 1)]⟩,
   ⟨173378833005251801, 6, [(2, 3), (5, 2), (2621, 1), (24809, 1), (13331831, 1)]⟩,
   ⟨22149492674086928081353, 5, [(2, 3), (3, 1), (5323, 1), (173378833005251801, 1)]⟩,
   ⟨132896956044521568488119, 6, [(2, 1), (3, 1), (22149492674086928081353, 1)]⟩,
   ⟨1206781, 10, [(2, 2), (3, 1), (5, 1), (20113, 1)]⟩,
   ⟨7240687, 3, [(2, 1), (3, 1), (1206781, 1)]⟩,
   ⟨107590001, 3, [(2, 4), (5, 4), (7, 1), (29, 1), (53, 1)]⟩,
   ⟨255515944373312847190720520512484175977, 3,
     [(2, 3), (7, 2), (11, 1), (1627, 1), (2657, 1), (4423, 1), (41201, 1), (96557, 1), (7240687, 1),
      (107590001, 1)]⟩,
   ⟨205115282021455665897114700593932402728804164701536103180137503955397371, 10,
     [(2, 1), (3, 1), (5, 1), (29, 2), (31, 1), (7723, 1), (132896956044521568488119, 1),
      (255515944373312847190720520512484175977, 1)]⟩,
   ⟨115792089237316195423570985008687907853269984665640564039457584007908834671663, 3,
     [(2, 1), (3, 1), (7, 1), (13441, 1),
      (205115282021455665897114700593932402728804164701536103180137503955397371, 1)]⟩,
   ⟨4681609, 23, [(2, 3), (3, 1), (97, 1), (2011, 1)]⟩,
   ⟨107361793816595537, 3, [(2, 4), (16699, 1), (85831, 1), (4681609, 1)]⟩,
   ⟨44706919, 6, [(2, 1), (3, 1), (797, 1), (9349, 1)]⟩,
   ⟨174723607534414371449, 3, [(2, 3), (17, 1), (59, 1), (4051, 1), (120233, 1), (44706919, 1)]⟩,
   ⟨545358713, 5, [(2, 3), (41, 1), (59, 1), (28181, 1)]⟩,
   ⟨1627771, 3, [(2, 1), (3, 1), (5, 1), (29, 1), (1871, 1)]⟩,
   ⟨297159362677, 2, [(2, 2), (3, 2), (11, 1), (461, 1), (1627771, 1)]⟩,
   ⟨29047611873442575647497758179, 2, [(2, 1), (293, 1), (305873, 1), (545358713, 1), (297159362677, 1)]⟩,
   ⟨341948486974166000522343609283189, 2, [(2, 2), (3, 3), (109, 1), (29047611873442575647497758179, 1)]⟩,
   ⟨115792089237316195423570985008687907852837564279074904382605163141518161494337, 7,
     [(2, 6), (3, 1), (149, 1), (631, 1), (107361793816595537, 1), (174723607534414371449, 1),
      (341948486974166000522343609283189, 1)]⟩]

theorem prime_of_mem_smallPrimes : ∀ q ∈ smallPrimes, q.Prime := by
  simp only [smallPrimes, List.forall_mem_cons]
  norm_num

theorem certified_certificates : certified smallPrimes certificates = true := by
  decide +kernel

theorem prime_of_mem_certificates {q : Nat} (h : q ∈ certificates.map Certificate.number) : q.Prime := by
  obtain ⟨c, hc, rfl⟩ := List.mem_map.mp h
  exact prime_of_certified prime_of_mem_smallPrimes certified_certificates c hc

theorem prime_fieldSize : fieldSize.Prime :=
  prime_of_mem_certificates (by decide +kernel)

theorem prime_order : order.Prime :=
  prime_of_mem_certificates (by decide +kernel)

instance : Fact fieldSize.Prime := ⟨prime_fieldSize⟩

instance : Fact order.Prime := ⟨prime_order⟩

end DidToken.Secp256k1
