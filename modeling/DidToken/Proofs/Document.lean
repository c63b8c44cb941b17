import DidToken.Document.Json
import DidToken.Proofs.Json.Arrangement
/-!
# Documents are read as they were written

A document, its keys, its references and its services are written as objects. The members of any of these objects
may come in another order, and others of unknown names may stand between them, with any grammatical values
(`Document.IsText`): the same document is read (`Document.parse_arranged`). Each kind of object has its drafts by
the names that have come; from there on the text no longer matters.
-/

namespace DidToken

open Json

theorem takes_written_string (s : String) : Takes string (Value.str s).bytes (.ok s) :=
  takes_string (v := .str s) rfl trivial

theorem takes_written_stringOrNull (s : String) : Takes stringOrNull (Value.str s).bytes (.ok (some s)) :=
  takes_stringOrNull (v := .str s) rfl trivial

/-! ### Keys -/

namespace KeyEntry

/-- The names that the members of a key have. -/
def declared : List String :=
  ["id", "type", "owner", "ethereumAddress", "publicKeyHex", "publicKeyBase64", "publicKeyBase58", "value"]

/-- The text of a key, with its members in any order and others between them. -/
def IsText (entry : KeyEntry) (w : Bytes) : Prop :=
  IsArranged (Object.written entry.toObject) declared w

/-- The draft of a key when some names have come. -/
def Draft.ofNames (entry : KeyEntry) (names : List String) : Draft where
  id := came names "id" entry.id
  keyType := came names "type" entry.keyType
  owner := came names "owner" entry.owner
  ethereumAddress := came names "ethereumAddress" entry.ethereumAddress
  hex := came names "publicKeyHex" entry.hex
  base64 := came names "publicKeyBase64" entry.base64
  base58 := came names "publicKeyBase58" entry.base58
  value := came names "value" entry.value

theorem keys_toObject_sublist (entry : KeyEntry) : (Assoc.keys entry.toObject).Sublist declared := by
  have hrequired : (Assoc.keys ([("id", .str entry.id), ("type", .str entry.keyType), ("owner", .str entry.owner)]
      : Object)).Sublist ["id", "type", "owner"] := .refl _
  have haddress := hrequired.append (keys_optionalMember_sublist "ethereumAddress" .str entry.ethereumAddress)
  have hhex := haddress.append (keys_optionalMember_sublist "publicKeyHex" .str entry.hex)
  have hbase64 := hhex.append (keys_optionalMember_sublist "publicKeyBase64" .str entry.base64)
  have hbase58 := hbase64.append (keys_optionalMember_sublist "publicKeyBase58" .str entry.base58)
  have hvalue := hbase58.append (keys_optionalMember_sublist "value" .str entry.value)
  simp only [toObject, Assoc.keys_append]
  exact hvalue

/-- A member that is written fills in its field. -/
theorem fills_member {entry : KeyEntry} {e : String × Value} (he : e ∈ entry.toObject) {names : List String}
    (hnew : e.1 ∉ names) :
    ∃ f, record.field? e.1 = some f ∧ f.isSet (Draft.ofNames entry names) = false
      ∧ Takes (f.read (Draft.ofNames entry names)) e.2.bytes (.ok (Draft.ofNames entry (names ++ [e.1]))) := by
  simp only [toObject, List.mem_append, List.mem_cons, List.not_mem_nil, or_false, mem_optionalMember_iff] at he
  -- three members that are always there, then five that may be
  rcases he with (((((rfl | rfl | rfl) | ⟨s, hs, rfl⟩) | ⟨s, hs, rfl⟩) | ⟨s, hs, rfl⟩) | ⟨s, hs, rfl⟩)
    | ⟨s, hs, rfl⟩
  · exact Record.fills_field rfl (came_of_not_mem hnew) (by simp [Draft.ofNames]) (takes_written_string _)
  · exact Record.fills_field rfl (came_of_not_mem hnew) (by simp [Draft.ofNames]) (takes_written_string _)
  · exact Record.fills_field rfl (came_of_not_mem hnew) (by simp [Draft.ofNames]) (takes_written_string _)
  · exact Record.fills_field rfl (came_of_not_mem hnew) (by simp [Draft.ofNames, hs]) (takes_written_stringOrNull s)
  · exact Record.fills_field rfl (came_of_not_mem hnew) (by simp [Draft.ofNames, hs]) (takes_written_stringOrNull s)
  · exact Record.fills_field rfl (came_of_not_mem hnew) (by simp [Draft.ofNames, hs]) (takes_written_stringOrNull s)
  · exact Record.fills_field rfl (came_of_not_mem hnew) (by simp [Draft.ofNames, hs]) (takes_written_stringOrNull s)
  · exact Record.fills_field rfl (came_of_not_mem hnew) (by simp [Draft.ofNames, hs]) (takes_written_stringOrNull s)

/-- When all members have come, the draft makes the key. -/
theorem finish_ofNames {entry : KeyEntry} {names : List String} (h : ∀ e ∈ entry.toObject, e.1 ∈ names) :
    record.finish (Draft.ofNames entry names) = some entry := by
  have hid := h ("id", .str entry.id) (by simp [toObject])
  have htype := h ("type", .str entry.keyType) (by simp [toObject])
  have howner := h ("owner", .str entry.owner) (by simp [toObject])
  have hoptional : ∀ (name : String) (a : Option String), (∀ s, a = some s → (name, .str s) ∈ entry.toObject) →
      (came names name a).join = a := fun name a hmem => join_came fun s hs => h (name, .str s) (hmem s hs)
  have haddress := hoptional "ethereumAddress" entry.ethereumAddress fun s hs => by
    simp [toObject, mem_optionalMember_iff, hs]
  have hhex := hoptional "publicKeyHex" entry.hex fun s hs => by simp [toObject, mem_optionalMember_iff, hs]
  have hbase64 := hoptional "publicKeyBase64" entry.base64 fun s hs => by
    simp [toObject, mem_optionalMember_iff, hs]
  have hbase58 := hoptional "publicKeyBase58" entry.base58 fun s hs => by
    simp [toObject, mem_optionalMember_iff, hs]
  have hvalue := hoptional "value" entry.value fun s hs => by simp [toObject, mem_optionalMember_iff, hs]
  simp only [record, Draft.ofNames, came_of_mem hid, came_of_mem htype, came_of_mem howner, haddress, hhex, hbase64,
    hbase58, hvalue]
  rfl

theorem fills (entry : KeyEntry) :
    record.Fills (Object.written entry.toObject) declared (Draft.ofNames entry) entry where
  names := rfl
  nodup := by decide
  keys := Object.keys_written entry.toObject ▸ entry.keys_toObject_sublist
  empty := rfl
  field m hm names hnew := by
    obtain ⟨e, he, rfl⟩ := List.mem_map.mp hm
    exact fills_member he hnew
  unknown name hname names := by
    have hne := List.forall_mem_ne'.mpr hname
    simp only [declared, List.forall_mem_cons] at hne
    simp [Draft.ofNames, hne]
  ignores := rfl
  finish names hnames := finish_ofNames fun e he =>
    hnames e.1 (Object.keys_written entry.toObject ▸ List.mem_map_of_mem he)

end KeyEntry

/-! ### References and services -/

namespace AuthenticationEntry

def declared : List String := ["type", "publicKey"]

/-- The text of a reference, with its members in any order and others between them. -/
def IsText (entry : AuthenticationEntry) (w : Bytes) : Prop :=
  IsArranged (Object.written entry.toObject) declared w

def Draft.ofNames (entry : AuthenticationEntry) (names : List String) : Draft where
  keyType := came names "type" entry.keyType
  keyId := came names "publicKey" entry.keyId

theorem fills (entry : AuthenticationEntry) :
    record.Fills (Object.written entry.toObject) declared (Draft.ofNames entry) entry where
  names := rfl
  nodup := by decide
  keys := .refl _
  empty := rfl
  field m hm names hnew := by
    simp only [Object.written, toObject, List.map_cons, List.map_nil, List.mem_cons, List.not_mem_nil, or_false] at hm
    rcases hm with rfl | rfl
    · exact Record.fills_field rfl (came_of_not_mem hnew) (by simp [Draft.ofNames]) (takes_written_string _)
    · exact Record.fills_field rfl (came_of_not_mem hnew) (by simp [Draft.ofNames]) (takes_written_string _)
  unknown name hname names := by
    have hne := List.forall_mem_ne'.mpr hname
    simp only [declared, List.forall_mem_cons] at hne
    simp [Draft.ofNames, hne]
  ignores := rfl
  finish names hnames := by
    have hmem : ∀ name ∈ declared, name ∈ names := hnames
    simp only [record, Draft.ofNames, came_of_mem (hmem "type" (by decide)),
      came_of_mem (hmem "publicKey" (by decide))]
    rfl

end AuthenticationEntry

namespace ServiceEntry

def declared : List String := ["type", "serviceEndpoint"]

/-- The text of a service, with its members in any order and others between them. -/
def IsText (entry : ServiceEntry) (w : Bytes) : Prop :=
  IsArranged (Object.written entry.toObject) declared w

def Draft.ofNames (entry : ServiceEntry) (names : List String) : Draft where
  serviceType := came names "type" entry.serviceType
  endpoint := came names "serviceEndpoint" entry.endpoint

theorem fills (entry : ServiceEntry) :
    record.Fills (Object.written entry.toObject) declared (Draft.ofNames entry) entry where
  names := rfl
  nodup := by decide
  keys := .refl _
  empty := rfl
  field m hm names hnew := by
    simp only [Object.written, toObject, List.map_cons, List.map_nil, List.mem_cons, List.not_mem_nil, or_false] at hm
    rcases hm with rfl | rfl
    · exact Record.fills_field rfl (came_of_not_mem hnew) (by simp [Draft.ofNames]) (takes_written_string _)
    · exact Record.fills_field rfl (came_of_not_mem hnew) (by simp [Draft.ofNames]) (takes_written_string _)
  unknown name hname names := by
    have hne := List.forall_mem_ne'.mpr hname
    simp only [declared, List.forall_mem_cons] at hne
    simp [Draft.ofNames, hne]
  ignores := rfl
  finish names hnames := by
    have hmem : ∀ name ∈ declared, name ∈ names := hnames
    simp only [record, Draft.ofNames, came_of_mem (hmem "type" (by decide)),
      came_of_mem (hmem "serviceEndpoint" (by decide))]
    rfl

end ServiceEntry

/-! ### Documents -/

namespace Document

def declared : List String := ["@context", "id", "publicKey", "authentication", "service"]

/-- The members of a document, from the texts of its lists. -/
def written (d : Document) (keys authentication services : Bytes) : Assoc Bytes :=
  [("@context", (Value.str d.context).bytes), ("id", (Value.str d.id).bytes), ("publicKey", keys),
   ("authentication", authentication), ("service", services)]

/-- The text of a document. In each of its objects the members come in any order, and members of other names stand
between them. -/
def IsText (d : Document) (w : Bytes) : Prop :=
  ∃ keys authentication services, IsList KeyEntry.IsText d.keys keys
    ∧ IsList AuthenticationEntry.IsText d.authentication authentication
    ∧ IsList ServiceEntry.IsText d.services services
    ∧ IsArranged (d.written keys authentication services) declared w

def Draft.ofNames (d : Document) (names : List String) : Draft where
  context := came names "@context" d.context
  id := came names "id" d.id
  keys := came names "publicKey" d.keys
  authentication := came names "authentication" d.authentication
  services := came names "service" d.services

variable {d : Document} {keys authentication services : Bytes}

theorem fills (hkeys : IsList KeyEntry.IsText d.keys keys)
    (hauthentication : IsList AuthenticationEntry.IsText d.authentication authentication)
    (hservices : IsList ServiceEntry.IsText d.services services) :
    record.Fills (d.written keys authentication services) declared (Draft.ofNames d) d where
  names := rfl
  nodup := by decide
  keys := .refl _
  empty := rfl
  field m hm names hnew := by
    simp only [written, List.mem_cons, List.not_mem_nil, or_false] at hm
    rcases hm with rfl | rfl | rfl | rfl | rfl
    · exact Record.fills_field rfl (came_of_not_mem hnew) (by simp [Draft.ofNames]) (takes_written_string _)
    · exact Record.fills_field rfl (came_of_not_mem hnew) (by simp [Draft.ofNames]) (takes_written_string _)
    · exact Record.fills_field rfl (came_of_not_mem hnew) (by simp [Draft.ofNames])
        (takes_list (fun entry _ h => entry.fills.takes_read h) (fun _ _ h => h.eq_cons) hkeys)
    · exact Record.fills_field rfl (came_of_not_mem hnew) (by simp [Draft.ofNames])
        (takes_list (fun entry _ h => entry.fills.takes_read h) (fun _ _ h => h.eq_cons) hauthentication)
    · exact Record.fills_field rfl (came_of_not_mem hnew) (by simp [Draft.ofNames])
        (takes_list (fun entry _ h => entry.fills.takes_read h) (fun _ _ h => h.eq_cons) hservices)
  unknown name hname names := by
    have hne := List.forall_mem_ne'.mpr hname
    simp only [declared, List.forall_mem_cons] at hne
    simp [Draft.ofNames, hne]
  ignores := rfl
  finish names hnames := by
    have hmem : ∀ name ∈ declared, name ∈ names := hnames
    simp only [record, Draft.ofNames, came_of_mem (hmem "@context" (by decide)), came_of_mem (hmem "id" (by decide)),
      came_of_mem (hmem "publicKey" (by decide)), came_of_mem (hmem "authentication" (by decide)),
      came_of_mem (hmem "service" (by decide))]
    rfl

/-- The text that a document is written as is one of its texts. -/
theorem isText_render (d : Document) : d.IsText (Bytes.ofString d.render) := by
  refine ⟨_, _, _, isList_arr d.keys fun entry _ => isArranged_obj entry.toObject _,
    isList_arr d.authentication fun entry _ => isArranged_obj entry.toObject _,
    isList_arr d.services fun entry _ => isArranged_obj entry.toObject _, ?_⟩
  exact isArranged_obj d.toObject declared

/-- A document is read back from what it is written as, and from every text that arranges the members of its
objects in another order or puts members of unknown names, with any grammatical values, between them. -/
theorem parse_arranged (d : Document) :
    parse d.render = .ok d ∧ ∀ text, d.IsText (Bytes.ofString text) → parse text = .ok d := by
  have hparse : ∀ text, d.IsText (Bytes.ofString text) → parse text = .ok d := by
    rintro text ⟨keys, authentication, services, hkeys, hauthentication, hservices, harranged⟩
    exact ((fills hkeys hauthentication hservices).takes_read harranged).whole
  exact ⟨hparse _ d.isText_render, hparse⟩

/-- A list around an object, whose name is half a pair of surrogates and whose number is out of range. -/
theorem isValue_outlandish : IsValue (Bytes.ofString "[\x7b\"\\ud800\":-1.0e+400 \x7d]") := by
  have hnumber : IsNumber ([0x2d] ++ ([0x31] ++ ([0x2e, 0x30] ++ 0x65 :: ([0x2b] ++ [0x34, 0x30, 0x30])))) :=
    .mk (by decide) ⟨by decide, List.all_eq_true.mp rfl⟩ (by decide) (.point ⟨by decide, List.all_eq_true.mp rfl⟩)
      (.letter (by decide) (by decide) ⟨by decide, List.all_eq_true.mp rfl⟩)
  have hunit : IsUnit [0x64, 0x38, 0x30, 0x30] 0xd800 :=
    .mk (a := 13) (b := 8) (c := 0) (d := 0) (by decide) (by decide) (by decide) (by decide)
  have hname : IsString (Bytes.ofString "\"\\ud800\"") := ⟨_, .number hunit .nil, by decide⟩
  have hblank : ∀ x ∈ ([0x20] : Bytes), isBlank x = true := List.forall_mem_singleton.mpr rfl
  have hobject : IsValue (0x7b :: ([0x2c].intercalate ([
      (⟨.plain (Bytes.ofString "\"\\ud800\""), ⟨[], _, [0x20], List.forall_mem_nil _, hblank⟩⟩ : MemberText)].map
        MemberText.bytes) ++ [0x7d])) :=
    .members (List.cons_ne_nil _ _) (List.forall_mem_singleton.mpr hname)
      (List.forall_mem_singleton.mpr (.number hnumber))
  exact .items (List.cons_ne_nil (.plain _) []) (List.forall_mem_singleton.mpr hobject)

/-- A member that no object of a document declares. -/
def outlandish : MemberText :=
  ⟨.plain [0x22, 0x78, 0x22],
    ⟨[0x20], Bytes.ofString "[\x7b\"\\ud800\":-1.0e+400 \x7d]", [], List.forall_mem_singleton.mpr rfl,
      List.forall_mem_nil _⟩⟩

def withService : Document :=
  ⟨"c", "i", [], [], [⟨"t", "e"⟩]⟩

/-- The members of the document and of its service in the other order, and before them one of an unknown name. -/
def withServiceReversed : String :=
  "\x7b\"x\": [\x7b\"\\ud800\":-1.0e+400 \x7d],\"service\":[\x7b\"serviceEndpoint\":\"e\",\"type\":\"t\"\x7d],"
    ++ "\"authentication\":[],\"publicKey\":[],\"id\":\"i\",\"@context\":\"c\"\x7d"

theorem parse_arranged_reversed :
    withService.IsText (Bytes.ofString withServiceReversed) ∧ parse withServiceReversed = .ok withService := by
  have hname : Spells "x".toList ([0x78] ++ []) := .cons (.plain (by decide) (by decide) (by decide)) .nil
  have hmember : outlandish.IsMember "x" := ⟨⟨_, hname, rfl⟩, isValue_outlandish⟩
  have hservice : ServiceEntry.IsText ⟨"t", "e"⟩
      (Bytes.ofString "\x7b\"serviceEndpoint\":\"e\",\"type\":\"t\"\x7d") :=
    .mk (List.forall_mem_nil _) (List.reverse_perm _)
  have hservices : ∀ e ∈ [((⟨"t", "e"⟩ : ServiceEntry),
      Bytes.ofString "\x7b\"serviceEndpoint\":\"e\",\"type\":\"t\"\x7d")], ServiceEntry.IsText e.1 e.2 :=
    List.forall_mem_singleton.mpr hservice
  have hinserted : ∀ m ∈ [("x", outlandish)], m.1 ∉ declared ∧ m.2.IsMember m.1 :=
    List.forall_mem_singleton.mpr ⟨by decide, hmember⟩
  have htext : withService.IsText (Bytes.ofString withServiceReversed) :=
    ⟨_, _, _, .mk (List.forall_mem_nil _), .mk (List.forall_mem_nil _), .mk hservices,
      .mk hinserted (List.reverse_perm _)⟩
  exact ⟨htext, (parse_arranged _).2 _ htext⟩

end Document

end DidToken
