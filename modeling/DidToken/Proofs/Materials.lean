import DidToken.Proofs.Attribution
import Mathlib.Data.Set.Basic
/-!
# What counts of a key

Of an entry of a document, an attribution looks at the address and at the three encodings of the key, which
are the material of the entry. Keys cover others if they have the material of each of those that could match
anything. A signature that comes from some keys then comes from all that cover them
(`Signature.comesFrom_of_covers`), so neither order nor repetition counts (`Signature.comesFrom_congr`). Of a key
that is listed by its address alone, only the form for comparison counts (`Signature.attributes_singleton`).
-/

namespace DidToken

namespace KeyEntry

/-! ### Material -/

/-- What an entry says of its key itself. -/
structure Material where
  ethereumAddress : Option String
  hex : Option String
  base64 : Option String
  base58 : Option String
deriving DecidableEq

def material (entry : KeyEntry) : Material where
  ethereumAddress := entry.ethereumAddress
  hex := entry.hex
  base64 := entry.base64
  base58 := entry.base58

section

variable {entry other : KeyEntry} (h : other.material = entry.material)
include h

theorem ethereumAddress_congr : other.ethereumAddress = entry.ethereumAddress :=
  congrArg Material.ethereumAddress h

theorem publicKey?_congr : other.publicKey? = entry.publicKey? := by
  have hhex : other.hex = entry.hex := congrArg Material.hex h
  have hbase64 : other.base64 = entry.base64 := congrArg Material.base64 h
  have hbase58 : other.base58 = entry.base58 := congrArg Material.base58 h
  rw [publicKey?, publicKey?, bytes, bytes, hhex, hbase64, hbase58]

theorem address?_congr : other.address? = entry.address? := by
  rw [address?, address?, ethereumAddress_congr h, publicKey?_congr h]

end

/-- An entry that no signature can match: it names no address, and no key can be read from it. -/
structure IsMute (entry : KeyEntry) : Prop where
  ethereumAddress : entry.ethereumAddress = none
  publicKey : entry.publicKey? = none

theorem IsMute.address? {entry : KeyEntry} (h : entry.IsMute) : entry.address? = none := by
  rw [KeyEntry.address?, h.ethereumAddress, h.publicKey]
  rfl

/-! ### Coverage -/

/-- Each of the others is mute or has the material of one of the keys. -/
def Covers (keys others : List KeyEntry) : Prop :=
  ∀ entry ∈ others, entry.IsMute ∨ ∃ same ∈ keys, entry.material = same.material

/-- What the material of an entry determines, and a mute entry does not have, is found again in keys that
cover those in which it was found. -/
theorem Covers.mem_filterMap {α : Type} {keys others : List KeyEntry} (h : Covers keys others)
    {f : KeyEntry → Option α}
    (hcongr : ∀ {entry same : KeyEntry}, entry.material = same.material → f entry = f same)
    (hmute : ∀ {entry : KeyEntry}, entry.IsMute → f entry = none) {x : α}
    (hx : x ∈ others.filterMap f) : x ∈ keys.filterMap f := by
  obtain ⟨entry, hentry, hfound⟩ := List.mem_filterMap.mp hx
  rcases h entry hentry with hm | ⟨same, hsame, hmaterial⟩
  · rw [hmute hm] at hfound
    cases hfound
  · exact List.mem_filterMap.mpr ⟨same, hsame, (hcongr hmaterial).symm.trans hfound⟩

theorem Covers.of_subset {keys others : List KeyEntry} (h : ∀ entry ∈ others, entry ∈ keys) :
    Covers keys others :=
  fun entry hentry => .inr ⟨entry, h entry hentry, rfl⟩

end KeyEntry

/-! ### Attribution -/

namespace Signature

/-- Whether candidates for a signature of a message come from one of the keys. -/
def attributes (algorithm : Algorithm) (keys : List KeyEntry) (message : Bytes)
    (candidates : List Signature) : Bool :=
  match algorithm with
  | .recoverable => recoversTo keys candidates message
  | .plain =>
    verifiesUnder keys candidates message
      || keys.any (fun key => key.ethereumAddress.isSome) && recoversTo keys candidates message

theorem comesFrom_eq (algorithm : Algorithm) (keys : List KeyEntry) (b message : Bytes) :
    comesFrom algorithm keys b message = (ofBytes b).map (attributes algorithm keys message) := by
  rw [comesFrom]
  cases ofBytes b with
  | error cause => rfl
  | ok candidates =>
    cases algorithm with
    | recoverable => rfl
    | plain =>
      show (if verifiesUnder keys candidates message = true then Except.ok true else Except.ok _)
        = Except.ok (verifiesUnder keys candidates message || _)
      cases verifiesUnder keys candidates message <;> rfl

variable {algorithm : Algorithm} {keys others : List KeyEntry} {b message : Bytes}
  {candidates : List Signature}

/-! ### A key listed by its address -/

theorem recoversTo_singleton {entry : KeyEntry} {address : String}
    (haddress : entry.ethereumAddress = some address) :
    recoversTo [entry] candidates message
      = (recoveredAddresses candidates message).contains (Address.canonical address) := by
  have hentry : entry.address? = some (Address.canonical address) := by
    rw [KeyEntry.address?, haddress]
  rw [recoversTo, List.filterMap_cons_some hentry]
  exact Bool.or_false _

/-- Of a key that is listed by its address alone, there is only the address to compare with. -/
theorem attributes_singleton {entry : KeyEntry} {address : String}
    (haddress : entry.ethereumAddress = some address) (hkey : entry.publicKey? = none) :
    attributes algorithm [entry] message candidates
      = (recoveredAddresses candidates message).contains (Address.canonical address) := by
  rw [← recoversTo_singleton haddress]
  cases algorithm with
  | recoverable => rfl
  | plain =>
    have hverifies : verifiesUnder [entry] candidates message = false := by
      cases candidates with
      | nil => rfl
      | cons a rest => rw [verifiesUnder, List.filterMap_cons_none hkey]; rfl
    have hany : [entry].any (fun key => key.ethereumAddress.isSome) = true := by
      rw [List.any_cons, haddress]
      rfl
    rw [attributes, hverifies, hany, Bool.false_or, Bool.true_and]

/-! ### Covering keys -/

theorem recoversTo_of_covers (h : KeyEntry.Covers keys others)
    (hmatch : recoversTo others candidates message = true) :
    recoversTo keys candidates message = true := by
  obtain ⟨address, haddress, hcontains⟩ := List.any_eq_true.mp hmatch
  exact List.any_eq_true.mpr
    ⟨address, h.mem_filterMap KeyEntry.address?_congr KeyEntry.IsMute.address? haddress, hcontains⟩

theorem verifiesUnder_of_covers (h : KeyEntry.Covers keys others)
    (hmatch : verifiesUnder others candidates message = true) :
    verifiesUnder keys candidates message = true := by
  cases candidates with
  | nil => cases hmatch
  | cons candidate rest =>
    obtain ⟨key, hkey, hverify⟩ := List.any_eq_true.mp hmatch
    exact List.any_eq_true.mpr
      ⟨key, h.mem_filterMap KeyEntry.publicKey?_congr KeyEntry.IsMute.publicKey hkey, hverify⟩

/-- Whether plain signatures may be matched by their addresses does not depend on mute keys. -/
theorem any_isSome_of_covers (h : KeyEntry.Covers keys others)
    (hany : others.any (fun key => key.ethereumAddress.isSome) = true) :
    keys.any (fun key => key.ethereumAddress.isSome) = true := by
  obtain ⟨entry, hentry, hsome⟩ := List.any_eq_true.mp hany
  obtain ⟨address, haddress⟩ := Option.isSome_iff_exists.mp hsome
  have hfound := h.mem_filterMap KeyEntry.ethereumAddress_congr KeyEntry.IsMute.ethereumAddress
    (List.mem_filterMap.mpr ⟨entry, hentry, haddress⟩)
  obtain ⟨same, hsame, hnamed⟩ := List.mem_filterMap.mp hfound
  exact List.any_eq_true.mpr ⟨same, hsame, by rw [hnamed]; rfl⟩

theorem attributes_of_covers (h : KeyEntry.Covers keys others)
    (hmatch : attributes algorithm others message candidates = true) :
    attributes algorithm keys message candidates = true := by
  cases algorithm with
  | recoverable => exact recoversTo_of_covers h hmatch
  | plain =>
    rw [attributes, Bool.or_eq_true, Bool.and_eq_true] at hmatch ⊢
    rcases hmatch with hverifies | ⟨hany, hrecovers⟩
    · exact .inl (verifiesUnder_of_covers h hverifies)
    · exact .inr ⟨any_isSome_of_covers h hany, recoversTo_of_covers h hrecovers⟩

/-- A signature that comes from some keys comes from all that cover them. -/
theorem comesFrom_of_covers (h : KeyEntry.Covers keys others)
    (hcomes : comesFrom algorithm others b message = .ok true) :
    comesFrom algorithm keys b message = .ok true := by
  rw [comesFrom_eq] at hcomes ⊢
  cases hb : ofBytes b with
  | error cause => rw [hb] at hcomes; cases hcomes
  | ok candidates =>
    rw [hb] at hcomes
    exact congrArg Except.ok (attributes_of_covers h (Except.ok.inj hcomes))

/-- Keys that cover each other are as good as each other. -/
theorem comesFrom_congr (h : KeyEntry.Covers keys others) (h' : KeyEntry.Covers others keys) :
    comesFrom algorithm others b message = comesFrom algorithm keys b message := by
  have hattributes : attributes algorithm others message = attributes algorithm keys message :=
    funext fun _ => Bool.eq_iff_iff.mpr ⟨attributes_of_covers h, attributes_of_covers h'⟩
  rw [comesFrom_eq, comesFrom_eq, hattributes]

end Signature

/-! ### Documents -/

namespace Document

/-- An entry of the document that can check signatures of tokens. With `authenticating`, the document must
refer to it as one that may be used to authenticate. -/
structure Qualifies (d : Document) (authenticating : Bool) (entry : KeyEntry) : Prop where
  listed : entry ∈ d.keys
  keyType : entry.keyType ∈ KeyType.verifying
  authenticates : authenticating = true → ∃ reference ∈ d.authentication, reference.keyId = entry.id

/-- The materials of the entries that qualify. -/
def materials (d : Document) (authenticating : Bool) : Set KeyEntry.Material :=
  {x | ∃ entry, d.Qualifies authenticating entry ∧ entry.material = x}

theorem mem_verifyingKeys_iff {d : Document} {authenticating : Bool} {entry : KeyEntry} :
    entry ∈ d.verifyingKeys authenticating ↔ d.Qualifies authenticating entry := by
  rw [verifyingKeys, List.mem_filter, Bool.and_eq_true, Bool.or_eq_true, List.contains_iff_mem,
    mem_authenticationKeyIds_iff, KeyEntry.isVerifying, decide_eq_true_iff]
  constructor
  · rintro ⟨hlisted, htype, hauth⟩
    refine ⟨hlisted, htype, fun h => hauth.resolve_left ?_⟩
    rw [h]
    exact Bool.false_ne_true
  · intro h
    refine ⟨h.listed, h.keyType, ?_⟩
    cases authenticating with
    | false => exact .inl rfl
    | true => exact .inr (h.authenticates rfl)

/-- What may authenticate may also do without. -/
theorem covers_verifyingKeys_of_imp {d : Document} {strict loose : Bool}
    (h : loose = true → strict = true) :
    KeyEntry.Covers (d.verifyingKeys loose) (d.verifyingKeys strict) :=
  KeyEntry.Covers.of_subset fun _ hentry =>
    have hqualifies := mem_verifyingKeys_iff.mp hentry
    mem_verifyingKeys_iff.mpr
      ⟨hqualifies.listed, hqualifies.keyType, fun hloose => hqualifies.authenticates (h hloose)⟩

/-- The keys of one document cover those of another that offers, beyond the materials of the first, mute
entries at most. -/
theorem covers_verifyingKeys {d other : Document} {authenticating : Bool}
    (h : ∀ entry, other.Qualifies authenticating entry →
      entry.IsMute ∨ entry.material ∈ d.materials authenticating) :
    KeyEntry.Covers (d.verifyingKeys authenticating) (other.verifyingKeys authenticating) := by
  intro entry hentry
  rcases h entry (mem_verifyingKeys_iff.mp hentry) with hmute | ⟨same, hsame, hmaterial⟩
  · exact .inl hmute
  · exact .inr ⟨same, mem_verifyingKeys_iff.mpr hsame, hmaterial.symm⟩

theorem covers_verifyingKeys_of_subset {d other : Document} {authenticating : Bool}
    (h : other.materials authenticating ⊆ d.materials authenticating) :
    KeyEntry.Covers (d.verifyingKeys authenticating) (other.verifyingKeys authenticating) :=
  covers_verifyingKeys fun entry hentry => .inr (h ⟨entry, hentry, rfl⟩)

theorem isEmpty_verifyingKeys_iff {d : Document} {authenticating : Bool} :
    (d.verifyingKeys authenticating).isEmpty = false ↔ (d.materials authenticating).Nonempty := by
  rw [List.isEmpty_eq_false_iff_exists_mem]
  constructor
  · rintro ⟨entry, hentry⟩
    exact ⟨entry.material, entry, mem_verifyingKeys_iff.mp hentry, rfl⟩
  · rintro ⟨-, entry, hentry, -⟩
    exact ⟨entry, mem_verifyingKeys_iff.mpr hentry⟩

end Document

end DidToken
