import DidToken.Did
import DidToken.Proofs.Text.Hex
import DidToken.PublicKey
/-!
# DIDs and addresses

The text of a DID is read back (`Did.parse_text`). An address is given as forty digits in either case,
marked or not; the address of a key is marked and in lower case (`isLower_encode`). For such an address,
the form in which addresses are compared is the address without its marker (`canonical_marked`). The DID of
an address is one of the method `ethr` (`parse_ofAddress`) and no address itself, so that `normalize` leaves
alone what it gives (`normalize_normalize`).
-/

namespace DidToken

/-! ### DIDs -/

theorem Did.make_eq_ok_iff {method identifier : String} {did : Did} :
    Did.make method identifier = .ok did ↔ did.method = method ∧ did.identifier = identifier := by
  constructor
  · intro h
    rw [make] at h
    split at h
    · cases h
    · split at h
      · cases h
      · cases h
        exact ⟨rfl, rfl⟩
  · rintro ⟨rfl, rfl⟩
    rw [make, dif_neg did.method_ne_empty, dif_neg did.identifier_ne_empty]

theorem Did.toList_append (method identifier : String) :
    (scheme ++ method ++ ":" ++ identifier).toList
      = 'd' :: 'i' :: 'd' :: ':' :: (method.toList ++ ':' :: identifier.toList) := by
  have hscheme : Did.scheme.toList = ['d', 'i', 'd', ':'] := by decide
  have hcolon : ":".toList = [':'] := by decide
  simp only [String.toList_append, hscheme, hcolon, List.cons_append, List.nil_append, List.append_assoc]

/-- A text is read as the method up to the first colon after the scheme, and what follows that colon. -/
theorem Did.parse_append {method : String} (h : ':' ∉ method.toList) (identifier : String) :
    Did.parse (scheme ++ method ++ ":" ++ identifier) = Did.make method identifier := by
  -- the colon after the method is the first one
  have hmethod : ∀ c ∈ method.toList, decide (c ≠ ':') = true := fun c hc =>
    decide_eq_true fun he => h (he ▸ hc)
  have hdrop : (method.toList ++ ':' :: identifier.toList).dropWhile (· ≠ ':')
      = ':' :: identifier.toList := by
    rw [List.dropWhile_append_of_pos hmethod]
    rfl
  have htake : (method.toList ++ ':' :: identifier.toList).takeWhile (· ≠ ':') = method.toList := by
    rw [List.takeWhile_append_of_pos hmethod]
    exact List.append_nil _
  rw [Did.parse, Did.toList_append]
  simp only [hdrop, htake, String.ofList_toList]

/-- A DID is read back from its text, if its method ends where the text says so. -/
theorem Did.parse_text {d : Did} (h : ':' ∉ d.method.toList) : Did.parse d.text = .ok d :=
  (parse_append h d.identifier).trans (make_eq_ok_iff.mpr ⟨rfl, rfl⟩)

namespace Address

/-! ### Digits -/

/-- The digits of lower-case hexadecimal texts. -/
def lowerDigits : List Char :=
  ['0', '1', '2', '3', '4', '5', '6', '7', '8', '9', 'a', 'b', 'c', 'd', 'e', 'f']

/-- A text of lower-case hexadecimal digits. -/
def IsLower (text : String) : Prop :=
  ∀ c ∈ text.toList, c ∈ lowerDigits

instance (text : String) : Decidable (IsLower text) :=
  List.decidableBAll _ _

theorem toLower_of_isLower {text : String} (h : IsLower text) : text.toLower = text := by
  have hall : lowerDigits.all (fun c => c.toLower = c) = true := by decide
  have hlower : ∀ c ∈ text.toList, c.toLower = c := fun c hc =>
    of_decide_eq_true (List.all_eq_true.mp hall c (h c hc))
  rw [← String.toList_inj]
  show (text.map Char.toLower).toList = text.toList
  rw [String.toList_map]
  exact (List.map_congr_left hlower).trans (List.map_id _)

theorem canonical_marked {text : String} (h : IsLower text) : canonical ("0x" ++ text) = text := by
  rw [canonical, Text.Hex.stripMarker_lower, toLower_of_isLower h]

theorem isLower_encode (b : Bytes) : IsLower (Text.Hex.encode b) := by
  have hdigit : ∀ n < 16, Nat.digitChar n ∈ lowerDigits := by decide
  intro c hc
  rw [Text.Hex.encode, String.toList_ofList, List.mem_flatMap] at hc
  obtain ⟨x, -, hc⟩ := hc
  have hx : x.toNat < 256 := x.toNat_lt
  rw [Text.Hex.digits, List.mem_cons, List.mem_singleton] at hc
  rcases hc with rfl | rfl
  · exact hdigit _ (by omega)
  · exact hdigit _ (by omega)

/-- What the address of a key is compared by. -/
theorem canonical_address (key : PublicKey) :
    canonical (PublicKey.address key)
      = Text.Hex.encode ((Hash.Keccak256.digest (PublicKey.coordinates key)).drop 12) :=
  canonical_marked (isLower_encode _)

/-! ### Marked addresses -/

/-- An address as keys have them: the marker and forty lower-case digits. -/
structure IsMarked (address : String) : Prop where
  marked : address = "0x" ++ Text.Hex.stripMarker address
  length : (Text.Hex.stripMarker address).length = 40
  lower : IsLower (Text.Hex.stripMarker address)

variable {address : String}

/-- A marked address begins with a zero, which begins no DID. -/
theorem IsMarked.toList_eq (h : IsMarked address) :
    address.toList = '0' :: 'x' :: (Text.Hex.stripMarker address).toList := by
  have hmarker : "0x".toList = ['0', 'x'] := by decide
  rw [h.marked, String.toList_append, hmarker, Text.Hex.stripMarker_lower]
  rfl

/-! ### Normal forms -/

theorem toList_ofAddress (address : String) :
    (Did.ofAddress address).toList = "did:ethr:".toList ++ address.toList := by
  have hprefix : Did.scheme ++ Did.ethr ++ ":" = "did:ethr:" := by decide
  rw [Did.ofAddress, hprefix, String.toList_append]

theorem scheme_isPrefix_ofAddress (address : String) :
    Did.scheme.toList <+: (Did.ofAddress address).toList := by
  have hprefix : Did.scheme.toList <+: "did:ethr:".toList := by decide
  rw [toList_ofAddress]
  exact hprefix.trans (List.prefix_append _ _)

/-- What begins as DIDs do has no marker. -/
theorem stripMarker_of_scheme {text : String} (h : Did.scheme.toList <+: text.toList) :
    Text.Hex.stripMarker text = text := by
  have hscheme : Did.scheme.toList = ['d', 'i', 'd', ':'] := by decide
  obtain ⟨rest, hrest⟩ := h
  rw [Text.Hex.stripMarker, ← hrest, hscheme]
  rfl

theorem colon_mem_of_scheme {text : String} (h : Did.scheme.toList <+: text.toList) : ':' ∈ text.toList :=
  h.subset (by decide)

/-- What begins as DIDs do is no address, as it has a colon. -/
theorem isAddress_of_scheme {text : String} (h : Did.scheme.toList <+: text.toList) :
    isAddress text = false := by
  rw [isAddress, stripMarker_of_scheme h, Bool.and_eq_false_iff, List.all_eq_false]
  exact Or.inr ⟨':', colon_mem_of_scheme h, by decide⟩

theorem isAddress_ofAddress (address : String) : isAddress (Did.ofAddress address) = false :=
  isAddress_of_scheme (scheme_isPrefix_ofAddress address)

theorem normalize_of_not_isAddress {text : String} (h : isAddress text = false) :
    normalize text = text := by
  rw [normalize, h, if_neg Bool.false_ne_true]

theorem normalize_ofAddress (address : String) :
    normalize (Did.ofAddress address) = Did.ofAddress address :=
  normalize_of_not_isAddress (isAddress_ofAddress address)

theorem normalize_of_isAddress {text : String} (h : isAddress text = true) :
    normalize text = Did.ofAddress ("0x" ++ Text.Hex.stripMarker text) := by
  rw [normalize, if_pos h]

theorem isAddress_normalize (text : String) : isAddress (normalize text) = false := by
  cases h : isAddress text with
  | false => rw [normalize_of_not_isAddress h, h]
  | true => rw [normalize_of_isAddress h, isAddress_ofAddress]

theorem normalize_normalize (text : String) : normalize (normalize text) = normalize text :=
  normalize_of_not_isAddress (isAddress_normalize text)

theorem parse_ofAddress {address : String} (h : address ≠ "") :
    ∃ did, Did.parse (Did.ofAddress address) = .ok did ∧ did.method = Did.ethr := by
  have hcolon : ':' ∉ Did.ethr.toList := by decide
  let did : Did := ⟨Did.ethr, address, by decide, h⟩
  have htext : did.text = Did.ofAddress address := rfl
  exact ⟨did, htext ▸ Did.parse_text (d := did) hcolon, rfl⟩

/-- An address stands for a DID of the method whose identifiers are addresses. -/
theorem parse_normalize_of_isAddress {text : String} (h : isAddress text = true) :
    ∃ did, Did.parse (normalize text) = .ok did ∧ did.method = Did.ethr := by
  have hmarker : "0x".toList = ['0', 'x'] := by decide
  rw [normalize_of_isAddress h]
  refine parse_ofAddress fun hempty => ?_
  rw [← String.toList_inj, String.toList_append, hmarker] at hempty
  cases hempty

theorem IsMarked.ne_empty (h : IsMarked address) : address ≠ "" := by
  rw [Ne, ← String.toList_inj, h.toList_eq]
  exact List.cons_ne_nil _ _

end Address

end DidToken
