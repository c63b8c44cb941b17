import DidToken.Proofs.Materials
import DidToken.Proofs.PublicKey
/-!
# Documents of addresses

A document that is made of an address lists the address as it was given. All that counts of it is the form in
which addresses are compared (`comesFrom_ofAddress`), so every spelling of an address is as good as any other.
The DID of an address makes a document with the same name, but lists the whole DID as the address of the key.
No key has such an address, and the document authorizes nobody (`comesFrom_ofAddress_of_scheme`). What this
means for the holder of an address is put together in `comesFromHolder_spellings`.
-/

namespace DidToken

/-! ### Spellings -/

namespace Address

theorem toList_canonical (text : String) :
    (canonical text).toList = (Text.Hex.stripMarker text).toList.map Char.toLower :=
  String.toList_map ..

/-- Lower case keeps a colon, and no key has an address with one. -/
theorem canonical_ne_of_scheme {text : String} (h : Did.scheme.toList <+: text.toList) (key : PublicKey) :
    canonical (PublicKey.address key) ≠ canonical text := by
  intro heq
  have hcolon : ':' ∈ (canonical text).toList := by
    rw [toList_canonical, stripMarker_of_scheme h]
    exact List.mem_map.mpr ⟨':', colon_mem_of_scheme h, by decide⟩
  rw [← heq, canonical_address] at hcolon
  have hdigit : ':' ∈ lowerDigits := isLower_encode _ ':' hcolon
  exact absurd hdigit (by decide)

end Address

namespace Document

theorem id_ofAddress (address : String) :
    (ofAddress address).id
      = if Did.scheme.toList.isPrefixOf address.toList then address else Address.normalize address :=
  rfl

theorem id_ofAddress_of_isAddress {address : String} (h : Address.isAddress address = true) :
    (ofAddress address).id = Address.normalize address := by
  rw [id_ofAddress, if_neg]
  intro hprefix
  rw [Address.isAddress_of_scheme (List.isPrefixOf_iff_prefix.mp hprefix)] at h
  cases h

theorem id_ofAddress_of_scheme {text : String} (h : Did.scheme.toList <+: text.toList) :
    (ofAddress text).id = text := by
  rw [id_ofAddress, if_pos (List.isPrefixOf_iff_prefix.mpr h)]

end Document

namespace Signature

/-! ### Attribution -/

variable {algorithm : Algorithm} {authenticating : Bool} {address : String} {b message : Bytes}

/-- Bytes come from the document of an address if they recover to the address. -/
theorem comesFrom_ofAddress (algorithm : Algorithm) (authenticating : Bool) (address : String)
    (b message : Bytes) :
    comesFrom algorithm ((Document.ofAddress address).verifyingKeys authenticating) b message
      = (ofBytes b).map fun candidates =>
        (recoveredAddresses candidates message).contains (Address.canonical address) := by
  obtain ⟨entry, hkeys, haddress, hkey⟩ := Document.verifyingKeys_ofAddress address authenticating
  rw [hkeys, comesFrom_eq]
  exact congrArg (Except.map · (ofBytes b)) (funext fun _ => attributes_singleton haddress hkey)

/-- No bytes come from the document of a text that begins as DIDs do. -/
theorem comesFrom_ofAddress_of_scheme {text : String} (h : Did.scheme.toList <+: text.toList)
    (algorithm : Algorithm) (authenticating : Bool) (b message : Bytes) :
    comesFrom algorithm ((Document.ofAddress text).verifyingKeys authenticating) b message
      = (ofBytes b).map fun _ => false := by
  rw [comesFrom_ofAddress]
  refine congrArg (Except.map · (ofBytes b)) (funext fun candidates => ?_)
  rw [← Bool.not_eq_true, List.contains_iff_mem]
  intro hmem
  obtain ⟨a, -, address, hrecover, heq⟩ := mem_recoveredAddresses_iff.mp hmem
  obtain ⟨-, key, -, -, rfl⟩ := recoverAddress_eq_ok_iff.mp hrecover
  exact Address.canonical_ne_of_scheme h key heq

/-- A key is recovered with its address in the one spelling that keys have. -/
theorem recoverAddress_eq_marked {a : Signature} (h : a.recoverAddress message = .ok address) :
    address = "0x" ++ Address.canonical address := by
  obtain ⟨-, key, -, -, rfl⟩ := recoverAddress_eq_ok_iff.mp h
  rw [Address.canonical_address]
  rfl

/-! ### Holders of addresses -/

/-- Whether the bytes of a signature of a message come from the holder of an address, by the document that is
made of some spelling of the address. -/
def comesFromHolder (algorithm : Algorithm) (authenticating : Bool) (spelling : String) (b message : Bytes) :
    Except Fault Bool :=
  comesFrom algorithm ((Document.ofAddress spelling).verifyingKeys authenticating) b message

theorem comesFromHolder_eq_true_iff :
    comesFromHolder algorithm authenticating address b message = .ok true
      ↔ ∃ candidates, ofBytes b = .ok candidates
        ∧ ∃ a ∈ candidates, a.recoverAddress message = .ok ("0x" ++ Address.canonical address) := by
  rw [comesFromHolder, comesFrom_ofAddress]
  cases ofBytes b with
  | error cause => exact ⟨nofun, fun ⟨_, h, _⟩ => (nomatch h)⟩
  | ok candidates =>
    constructor
    · intro h
      obtain ⟨a, ha, recovered, hrecover, heq⟩ :=
        mem_recoveredAddresses_iff.mp (List.contains_iff_mem.mp (Except.ok.inj h))
      have hmarked := recoverAddress_eq_marked hrecover
      rw [heq] at hmarked
      exact ⟨candidates, rfl, a, ha, hmarked ▸ hrecover⟩
    · rintro ⟨_, ⟨⟩, a, ha, hrecover⟩
      -- what is recovered is marked only once
      have hmarked := congrArg Text.Hex.stripMarker (recoverAddress_eq_marked hrecover)
      rw [Text.Hex.stripMarker_lower, Text.Hex.stripMarker_lower] at hmarked
      exact congrArg Except.ok (List.contains_iff_mem.mpr
        (mem_recoveredAddresses_iff.mpr ⟨a, ha, _, hrecover, hmarked.symm⟩))

/-- An answer that is always no agrees with another one unless that is yes. -/
theorem map_false_eq_iff {answer : List Signature → Bool} :
    ((ofBytes b).map fun _ => false) = (ofBytes b).map answer ↔ (ofBytes b).map answer ≠ .ok true := by
  cases ofBytes b with
  | error cause => exact ⟨fun _ => nofun, fun _ => rfl⟩
  | ok candidates =>
    show Except.ok false = Except.ok (answer candidates) ↔ Except.ok (answer candidates) ≠ Except.ok true
    cases answer candidates with
    | false => exact ⟨fun _ => nofun, fun _ => rfl⟩
    | true => exact ⟨nofun, fun h => absurd rfl h⟩

/-- An address and its DID make documents with the same name. The document of the address attributes exactly the
signatures that recover to the address to its holder, under both algorithms, and with or without the demand that
the key may authenticate; so does that of every other spelling of the address. The document of the DID attributes
none to anyone: its answers are those of the document of the address wherever that does not say yes, and only
there. -/
theorem comesFromHolder_spellings {address : String} (h : Address.isAddress address = true) :
    (Document.ofAddress (Address.normalize address)).id = (Document.ofAddress address).id
    ∧ ∀ algorithm authenticating b message,
      (comesFromHolder algorithm authenticating address b message = .ok true
        ↔ ∃ candidates, ofBytes b = .ok candidates
          ∧ ∃ a ∈ candidates, a.recoverAddress message = .ok ("0x" ++ Address.canonical address))
      ∧ (∀ other, Address.canonical other = Address.canonical address →
        comesFromHolder algorithm authenticating other b message
          = comesFromHolder algorithm authenticating address b message)
      ∧ comesFromHolder algorithm authenticating (Address.normalize address) b message
          = (ofBytes b).map (fun _ => false)
      ∧ (comesFromHolder algorithm authenticating (Address.normalize address) b message
          = comesFromHolder algorithm authenticating address b message
        ↔ comesFromHolder algorithm authenticating address b message ≠ .ok true) := by
  have hscheme : Did.scheme.toList <+: (Address.normalize address).toList := by
    rw [Address.normalize_of_isAddress h]
    exact Address.scheme_isPrefix_ofAddress _
  refine ⟨?_, fun algorithm authenticating b message =>
    ⟨comesFromHolder_eq_true_iff, fun other hother => ?_, ?_, ?_⟩⟩
  · rw [Document.id_ofAddress_of_scheme hscheme, Document.id_ofAddress_of_isAddress h]
  · rw [comesFromHolder, comesFromHolder, comesFrom_ofAddress, comesFrom_ofAddress, hother]
  · exact comesFrom_ofAddress_of_scheme hscheme algorithm authenticating b message
  · rw [comesFromHolder, comesFromHolder, comesFrom_ofAddress_of_scheme hscheme, comesFrom_ofAddress]
    exact map_false_eq_iff

set_option maxRecDepth 100000 in
/-- A signature of the key whose secret is one. -/
theorem recoverAddress_generator :
    recoverAddress ⟨108607064596551879580190606910245687803607295064141551927605737287325610911759,
        5298395131067714637069069204409641841875217614917417893774556369841629174505, 0⟩ (Bytes.ofString "c")
      = .ok "0x7e5f4552091a69125d5dfcb7b8c2659029395bdf" := by
  rw [← PublicKey.address_generator]
  exact recoverAddress_of_recover? (by decide +kernel)

/-- The address of the signature in upper-case digits, in lower-case digits without the marker, and as a DID. -/
theorem comesFromHolder_spellings_generator :
    let address := "0x7E5F4552091A69125D5DFCB7B8C2659029395BDF"
    let other := "7e5f4552091a69125d5dfcb7b8c2659029395bdf"
    let b := toBytes ⟨108607064596551879580190606910245687803607295064141551927605737287325610911759,
      5298395131067714637069069204409641841875217614917417893774556369841629174505, 0⟩ true
    let message := Bytes.ofString "c"
    Address.isAddress address = true
      ∧ comesFromHolder .recoverable true address b message = .ok true
      ∧ comesFromHolder .recoverable true other b message = .ok true
      ∧ comesFromHolder .recoverable true (Address.normalize address) b message
        ≠ comesFromHolder .recoverable true address b message := by
  intro address other b message
  have haddress : Address.isAddress address = true := by decide
  have hcanonical : Address.canonical address = other := by
    rw [← String.toList_inj, Address.toList_canonical]
    decide
  have hother : Address.canonical other = Address.canonical address := by
    rw [hcanonical, ← String.toList_inj, Address.toList_canonical]
    decide
  obtain ⟨-, hall⟩ := comesFromHolder_spellings haddress
  obtain ⟨hmatches, hspelled, -, hiff⟩ := hall .recoverable true b message
  have hmatch : comesFromHolder .recoverable true address b message = .ok true := by
    refine hmatches.mpr ⟨_, ofBytes_toBytes_recoverable (by decide), _, List.mem_singleton_self _, ?_⟩
    rw [hcanonical]
    exact recoverAddress_generator
  exact ⟨haddress, hmatch, (hspelled other hother).trans hmatch, fun heq => hiff.mp heq hmatch⟩

/-- The signature comes from the holder of the address by the document of the address, but not by that of its
DID. -/
theorem comesFromHolder_did :
    let address := "0x7e5f4552091a69125d5dfcb7b8c2659029395bdf"
    let b := toBytes ⟨108607064596551879580190606910245687803607295064141551927605737287325610911759,
      5298395131067714637069069204409641841875217614917417893774556369841629174505, 0⟩ false
    let message := Bytes.ofString "c"
    Address.isAddress address = true
      ∧ Address.normalize address = "did:ethr:0x7e5f4552091a69125d5dfcb7b8c2659029395bdf"
      ∧ comesFromHolder .plain false address b message = .ok true
      ∧ comesFromHolder .plain false (Address.normalize address) b message = .ok false := by
  intro address b message
  have hnormalize : Address.normalize address = "did:ethr:0x7e5f4552091a69125d5dfcb7b8c2659029395bdf" := by
    decide
  have hcanonical : "0x" ++ Address.canonical address = address := by
    rw [← String.toList_inj, String.toList_append, Address.toList_canonical]
    decide
  have hscheme : Did.scheme.toList <+: (Address.normalize address).toList := by
    rw [hnormalize]
    decide
  refine ⟨by decide, hnormalize, comesFromHolder_eq_true_iff.mpr ⟨_, ofBytes_toBytes_plain _, _,
    List.mem_cons_self .., ?_⟩, ?_⟩
  · rw [hcanonical]
    exact recoverAddress_generator
  · rw [comesFromHolder, comesFrom_ofAddress_of_scheme hscheme, ofBytes_toBytes_plain]
    rfl

end Signature

end DidToken
