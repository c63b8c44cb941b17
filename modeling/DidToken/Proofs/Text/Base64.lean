import DidToken.Proofs.Checks
import DidToken.Proofs.Text.Utf8
import DidToken.Text.Base64
/-!
# Base64 is read as it was written

What `encode` writes consists of symbols of the alphabet only (`mem_encode`), and `decode` gives back the
bytes of it, with or without padding, and of no other text (`decode_eq_ok_iff`). This rests on how bytes are
cut into six-bit numbers: these are below 64, never one alone in the last group, and leave the unused low
bits zero; and all such numbers are those of some bytes (`sextets_join`).
-/

namespace DidToken.Text.Base64

/-! ### Six-bit numbers -/

theorem lt_of_mem_sextets {b : Bytes} {n : Nat} (h : n ∈ sextets b) : n < 64 := by
  induction b using sextets.induct with
  | case1 => simp [sextets] at h
  | case2 x =>
    have := x.toNat_lt
    simp only [sextets, List.mem_cons, List.not_mem_nil, or_false] at h
    omega
  | case3 x y =>
    have := x.toNat_lt
    have := y.toNat_lt
    simp only [sextets, List.mem_cons, List.not_mem_nil, or_false] at h
    omega
  | case4 x y z rest ih =>
    have := x.toNat_lt
    have := y.toNat_lt
    have := z.toNat_lt
    simp only [sextets, List.mem_cons] at h
    rcases h with h | h | h | h | h
    · omega
    · omega
    · omega
    · omega
    · exact ih h

/-- A byte is what its number modulo 256 is. -/
theorem ofNat_eq_of_toNat {x : UInt8} {n : Nat} (h : n = x.toNat) : UInt8.ofNat n = x := by
  rw [h, UInt8.ofNat_toNat]

/-- The six-bit numbers of bytes are put together to the same bytes. -/
theorem join_sextets (b : Bytes) : join (sextets b) = b := by
  induction b using sextets.induct with
  | case1 => rfl
  | case2 x =>
    have hx : UInt8.ofNat (x.toNat / 4 * 4 + x.toNat % 4 * 16 / 16) = x :=
      ofNat_eq_of_toNat (by omega)
    rw [sextets, join, hx]
  | case3 x y =>
    have := y.toNat_lt
    have hx : UInt8.ofNat (x.toNat / 4 * 4 + (x.toNat % 4 * 16 + y.toNat / 16) / 16) = x :=
      ofNat_eq_of_toNat (by omega)
    have hy : UInt8.ofNat ((x.toNat % 4 * 16 + y.toNat / 16) % 16 * 16 + y.toNat % 16 * 4 / 4) = y :=
      ofNat_eq_of_toNat (by omega)
    rw [sextets, join, hx, hy]
  | case4 x y z rest ih =>
    have := y.toNat_lt
    have := z.toNat_lt
    have hx : UInt8.ofNat (x.toNat / 4 * 4 + (x.toNat % 4 * 16 + y.toNat / 16) / 16) = x :=
      ofNat_eq_of_toNat (by omega)
    have hy : UInt8.ofNat ((x.toNat % 4 * 16 + y.toNat / 16) % 16 * 16
        + (y.toNat % 16 * 4 + z.toNat / 64) / 4) = y :=
      ofNat_eq_of_toNat (by omega)
    have hz : UInt8.ofNat ((y.toNat % 16 * 4 + z.toNat / 64) % 4 * 64 + z.toNat % 64) = z :=
      ofNat_eq_of_toNat (by omega)
    rw [sextets, join, hx, hy, hz, ih]

/-- The last group has two or three numbers, or is full. -/
theorem length_sextets_mod (b : Bytes) : (sextets b).length % 4 ≠ 1 := by
  induction b using sextets.induct with
  | case1 => decide
  | case2 x => simp [sextets]
  | case3 x y => simp [sextets]
  | case4 x y z rest ih =>
    simp only [sextets, List.length_cons]
    omega

theorem sextets_eq_nil_iff {b : Bytes} : sextets b = [] ↔ b = [] := by
  induction b using sextets.induct <;> simp [sextets]

/-- The low bits of the last number that belong to no byte are zero. -/
theorem unusedBits_sextets {b : Bytes} {n : Nat} (h : (sextets b).getLast? = some n) :
    unusedBits (sextets b).length n = 0 := by
  induction b using sextets.induct with
  | case1 => simp [sextets] at h
  | case2 x =>
    have hn : x.toNat % 4 * 16 = n := by simpa [sextets] using h
    show n % 16 = 0
    omega
  | case3 x y =>
    have hn : y.toNat % 16 * 4 = n := by simpa [sextets] using h
    show n % 4 = 0
    omega
  | case4 x y z rest ih =>
    have hlen : (sextets (x :: y :: z :: rest)).length % 4 = (sextets rest).length % 4 := by
      simp only [sextets, List.length_cons]
      omega
    rw [unusedBits, hlen, ← unusedBits]
    -- a full group at the end leaves no bits over
    cases hr : sextets rest with
    | nil => simp [unusedBits]
    | cons m ms =>
      rw [← hr]
      refine ih ?_
      simp only [sextets, hr, List.getLast?_cons_cons] at h
      rw [hr]
      exact h

/-- A number that a byte can have is the number of that byte. -/
theorem toNat_byte {n : Nat} (h : n < 256) : (UInt8.ofNat n).toNat = n :=
  UInt8.toNat_ofNat_of_lt' h

/-- Six-bit numbers that reading accepts are those of the bytes that they are put together to. -/
theorem sextets_join {ns : List Nat} (hlt : ∀ n ∈ ns, n < 64) (hlen : ns.length % 4 ≠ 1)
    (hunused : ∀ n, ns.getLast? = some n → unusedBits ns.length n = 0) : sextets (join ns) = ns := by
  induction ns using join.induct with
  | case1 a b c d rest ih =>
    simp only [List.forall_mem_cons] at hlt
    obtain ⟨ha, hb, hc, hd, hrest⟩ := hlt
    have hgroup : (a :: b :: c :: d :: rest).length % 4 = rest.length % 4 := by
      simp only [List.length_cons]
      omega
    rw [hgroup] at hlen
    -- the last number of the rest, if there is one, is the last of all
    have hunused' : ∀ n, rest.getLast? = some n → unusedBits rest.length n = 0 := by
      intro n hn
      rw [unusedBits, ← hgroup, ← unusedBits]
      refine hunused n ?_
      cases rest with
      | nil => cases hn
      | cons m ms => simpa only [List.getLast?_cons_cons] using hn
    rw [join, sextets, toNat_byte (by omega), toNat_byte (by omega), toNat_byte (by omega),
      ih hrest hlen hunused']
    have hfirst : (a * 4 + b / 16) / 4 = a := by omega
    have hsecond : (a * 4 + b / 16) % 4 * 16 + (b % 16 * 16 + c / 4) / 16 = b := by omega
    have hthird : (b % 16 * 16 + c / 4) % 16 * 4 + (c % 4 * 64 + d) / 64 = c := by omega
    have hfourth : (c % 4 * 64 + d) % 64 = d := by omega
    rw [hfirst, hsecond, hthird, hfourth]
  | case2 a b c =>
    simp only [List.forall_mem_cons] at hlt
    obtain ⟨ha, hb, hc, -⟩ := hlt
    have hz : c % 4 = 0 := hunused c rfl
    rw [join, sextets, toNat_byte (by omega), toNat_byte (by omega)]
    have hfirst : (a * 4 + b / 16) / 4 = a := by omega
    have hsecond : (a * 4 + b / 16) % 4 * 16 + (b % 16 * 16 + c / 4) / 16 = b := by omega
    have hthird : (b % 16 * 16 + c / 4) % 16 * 4 = c := by omega
    rw [hfirst, hsecond, hthird]
  | case3 a b =>
    simp only [List.forall_mem_cons] at hlt
    obtain ⟨ha, hb, -⟩ := hlt
    have hz : b % 16 = 0 := hunused b rfl
    rw [join, sextets, toNat_byte (by omega)]
    have hfirst : (a * 4 + b / 16) / 4 = a := by omega
    have hsecond : (a * 4 + b / 16) % 4 * 16 = b := by omega
    rw [hfirst, hsecond]
  | case4 ns hfour hthree htwo =>
    match ns, hlen, hfour, hthree, htwo with
    | [], _, _, _, _ => rfl
    | [_], hlen, _, _, _ => exact absurd rfl hlen
    | [a, b], _, _, _, htwo => exact (htwo a b rfl).elim
    | [a, b, c], _, _, hthree, _ => exact (hthree a b c rfl).elim
    | a :: b :: c :: d :: rest, _, hfour, _, _ => exact (hfour a b c d rest rfl).elim

/-- How many equals signs fill up the last group of the text of bytes. -/
def padLength (b : Bytes) : Nat :=
  (3 - b.length % 3) % 3

theorem padLength_eq (b : Bytes) : padLength b = (4 - (sextets b).length % 4) % 4 := by
  induction b using sextets.induct with
  | case1 => rfl
  | case2 x => rfl
  | case3 x y => rfl
  | case4 x y z rest ih =>
    rw [padLength] at ih ⊢
    simp only [sextets, List.length_cons]
    omega

/-! ### Symbols -/

/-- Symbols of the alphabet are ASCII, each stands for the number that it is written for, and the padding is
none of them. -/
structure Alphabet.IsProper (a : Alphabet) : Prop where
  value? : ∀ n < 64, a.value? (a.symbol n) = some n
  ascii : ∀ n < 64, a.symbol n < 0x80
  pad : a.hasSymbol pad = false

theorem urlSafe_isProper : urlSafe.IsProper :=
  ⟨by decide, by decide, by decide⟩

theorem standard_isProper : standard.IsProper :=
  ⟨by decide, by decide, by decide⟩

variable {a : Alphabet}

/-- A byte stands for one number at most, the one that it is written for. -/
theorem Alphabet.symbol_of_value? {x : UInt8} {n : Nat} (h : a.value? x = some n) :
    n < 64 ∧ a.symbol n = x := by
  have hx := x.toNat_lt
  simp only [Alphabet.value?, Bool.and_eq_true, decide_eq_true_eq, UInt8.le_iff_toNat_le,
    UInt8.reduceToNat] at h
  -- one case for each range of the alphabet
  split at h
  · cases h
    refine ⟨by omega, ?_⟩
    rw [Alphabet.symbol, if_pos (by omega)]
    exact ofNat_eq_of_toNat (by omega)
  split at h
  · cases h
    refine ⟨by omega, ?_⟩
    rw [Alphabet.symbol, if_neg (by omega), if_pos (by omega)]
    exact ofNat_eq_of_toNat (by omega)
  split at h
  · cases h
    refine ⟨by omega, ?_⟩
    rw [Alphabet.symbol, if_neg (by omega), if_neg (by omega), if_pos (by omega)]
    exact ofNat_eq_of_toNat (by omega)
  split at h
  · next heq =>
    cases h
    exact ⟨by decide, heq.symm⟩
  split at h
  · next heq =>
    cases h
    exact ⟨by decide, heq.symm⟩
  · cases h

theorem exists_eq_map_symbol {xs : Bytes} (h : ∀ x ∈ xs, a.hasSymbol x = true) :
    ∃ ns : List Nat, (∀ n ∈ ns, n < 64) ∧ xs = ns.map a.symbol := by
  induction xs with
  | nil => exact ⟨[], List.forall_mem_nil _, rfl⟩
  | cons x rest ih =>
    obtain ⟨ns, hlt, hrest⟩ := ih fun y hy => h y (List.mem_cons_of_mem _ hy)
    obtain ⟨n, hn⟩ := Option.isSome_iff_exists.mp (h x (List.mem_cons_self ..))
    obtain ⟨hn, hx⟩ := Alphabet.symbol_of_value? hn
    exact ⟨n :: ns, List.forall_mem_cons.mpr ⟨hn, hlt⟩, by rw [List.map_cons, hx, hrest]⟩

theorem filterMap_value?_map_symbol (ha : a.IsProper) {ns : List Nat} (h : ∀ n ∈ ns, n < 64) :
    (ns.map a.symbol).filterMap a.value? = ns := by
  induction ns with
  | nil => rfl
  | cons n rest ih =>
    rw [List.map_cons, List.filterMap_cons_some (ha.value? n (h n (List.mem_cons_self ..))),
      ih fun m hm => h m (List.mem_cons_of_mem _ hm)]

/-! ### Texts -/

/-- The text of six-bit numbers. -/
def write (a : Alphabet) (ns : List Nat) : String :=
  String.ofList (ns.map fun n => Char.ofUInt8 (a.symbol n))

theorem encode_eq_write (a : Alphabet) (b : Bytes) : encode a b = write a (sextets b) := rfl

/-- The text of so many equals signs. -/
def pads (k : Nat) : String :=
  String.ofList (List.replicate k '=')

theorem ofString_write (ha : a.IsProper) {ns : List Nat} (h : ∀ n ∈ ns, n < 64) :
    Bytes.ofString (write a ns) = ns.map a.symbol := by
  have hmap : (ns.map fun n => Char.ofUInt8 (a.symbol n)) = (ns.map a.symbol).map Char.ofUInt8 := by
    rw [List.map_map]
    rfl
  rw [write, hmap, Bytes.ofString_ofList_ofUInt8]
  intro x hx
  obtain ⟨n, hn, rfl⟩ := List.mem_map.mp hx
  exact ha.ascii n (h n hn)

theorem ofString_pads (k : Nat) : Bytes.ofString (pads k) = List.replicate k pad := by
  rw [pads, Bytes.ofString_ofList_of_ascii, List.map_replicate]
  · rfl
  · intro c hc
    rw [(List.mem_replicate.mp hc).2]
    decide

theorem ofString_write_pads (ha : a.IsProper) {ns : List Nat} (h : ∀ n ∈ ns, n < 64) (k : Nat) :
    Bytes.ofString (write a ns ++ pads k) = ns.map a.symbol ++ List.replicate k pad := by
  rw [Bytes.ofString_append, ofString_write ha h, ofString_pads]

/-- Only symbols are written. -/
theorem mem_encode {b : Bytes} {c : Char} (h : c ∈ (encode a b).toList) :
    ∃ n < 64, c = Char.ofUInt8 (a.symbol n) := by
  rw [encode, String.toList_ofList] at h
  obtain ⟨n, hn, rfl⟩ := List.mem_map.mp h
  exact ⟨n, lt_of_mem_sextets hn, rfl⟩

theorem encode_eq_empty_iff {b : Bytes} : (encode a b).toList = [] ↔ b = [] := by
  rw [encode, String.toList_ofList, List.map_eq_nil_iff, sextets_eq_nil_iff]

/-- A text of symbols and padding falls apart where the padding begins. -/
theorem span_symbols (ha : a.IsProper) {ns : List Nat} (h : ∀ n ∈ ns, n < 64) (k : Nat) :
    (ns.map a.symbol ++ List.replicate k pad).takeWhile a.hasSymbol = ns.map a.symbol
      ∧ (ns.map a.symbol ++ List.replicate k pad).dropWhile a.hasSymbol = List.replicate k pad := by
  have hall : ∀ x ∈ ns.map a.symbol, a.hasSymbol x = true := by
    intro x hx
    obtain ⟨n, hn, rfl⟩ := List.mem_map.mp hx
    rw [Alphabet.hasSymbol, ha.value? n (h n hn)]
    rfl
  rw [List.takeWhile_append_of_pos hall, List.dropWhile_append_of_pos hall, List.takeWhile_replicate,
    List.dropWhile_replicate, ha.pad]
  exact ⟨List.append_nil _, rfl⟩

/-! ### Checks -/

theorem checkLength_eq_ok_iff {text : Bytes} : checkLength a text = .ok () ↔ text.length % 4 ≠ 1 := by
  rw [checkLength]
  split
  · next h =>
    have hne : text ≠ [] := by
      rintro rfl
      cases h
    rw [List.getLast?_eq_some_getLast hne]
    simp only
    split
    · exact ⟨nofun, fun hnot => absurd h hnot⟩
    · exact ⟨nofun, fun hnot => absurd h hnot⟩
  · next h => exact ⟨fun _ => h, fun _ => rfl⟩

/-- What may follow the symbols is padding that ends with their last group. -/
theorem checkTail_eq_ok_iff {count : Nat} {tail : Bytes} :
    checkTail count tail = .ok () ↔
      ∃ k, tail = List.replicate k pad ∧ (k = 0 ∨ 2 ≤ count % 4 ∧ count % 4 + k ≤ 4) := by
  cases tail with
  | nil => exact ⟨fun _ => ⟨0, rfl, Or.inl rfl⟩, fun _ => rfl⟩
  | cons x rest =>
    have hall : x :: rest = List.replicate (rest.length + 1) pad
        ↔ x = pad ∧ (x :: rest).all (· = pad) = true := by
      rw [List.eq_replicate_iff, List.all_eq_true]
      simp +contextual
    rw [checkTail]
    simp only [Bool.and_eq_true, decide_eq_true_eq]
    constructor
    · intro h
      split at h
      · next hpad =>
        obtain ⟨⟨⟨hx, htwo⟩, hrest⟩, hfit⟩ := hpad
        exact ⟨_, hall.mpr ⟨hx, hrest⟩, Or.inr ⟨htwo, hfit⟩⟩
      · cases h
    · rintro ⟨k, htail, hfit⟩
      have hlength : rest.length + 1 = k := by
        rw [← List.length_cons (a := x), htail, List.length_replicate]
      rw [← hlength] at htail
      obtain ⟨hx, hrest⟩ := hall.mp htail
      obtain ⟨htwo, hfit⟩ := hfit.resolve_left (by omega)
      rw [if_pos]
      exact ⟨⟨⟨hx, htwo⟩, hrest⟩, by rwa [List.length_cons, hlength]⟩

theorem checkPadding_eq_ok_iff {padding : Padding} {text : Bytes} :
    checkPadding padding text = .ok () ↔ (padding = .required → text.length % 4 = 0) := by
  rw [checkPadding, ite_error_eq_ok_iff, Bool.and_eq_true, decide_eq_true_eq, decide_eq_true_eq, not_and,
    Decidable.not_not]

theorem checkLastSymbol_eq_ok_iff (ha : a.IsProper) {ns : List Nat} (h : ∀ n ∈ ns, n < 64) :
    checkLastSymbol a (ns.map a.symbol) = .ok ()
      ↔ ∀ n, ns.getLast? = some n → unusedBits ns.length n = 0 := by
  rw [checkLastSymbol, List.getLast?_map]
  cases hlast : ns.getLast? with
  | none => exact ⟨fun _ => nofun, fun _ => rfl⟩
  | some n =>
    have hvalue : (a.value? (a.symbol n)).getD 0 = n := by
      rw [ha.value? n (h n (List.mem_of_getLast? hlast))]
      rfl
    simp only [Option.map_some, hvalue, List.length_map, Option.some.injEq, forall_eq']
    rw [ite_error_eq_ok_iff]
    exact Decidable.not_not

/-! ### Reading back -/

/-- What is read is symbols, which make up the bytes, and padding, which ends with the last group. -/
theorem decode_eq_ok {padding : Padding} {s : String} {b : Bytes} (ha : a.IsProper)
    (h : decode a padding s = .ok b) :
    ∃ k ≤ padLength b, (padding = .required → k = padLength b) ∧ s = encode a b ++ pads k := by
  obtain ⟨⟨⟩, hlength, h⟩ := bind_eq_ok_iff.mp h
  obtain ⟨⟨⟩, htail, h⟩ := bind_eq_ok_iff.mp h
  obtain ⟨⟨⟩, hpadding, h⟩ := bind_eq_ok_iff.mp h
  obtain ⟨⟨⟩, hlast, h⟩ := bind_eq_ok_iff.mp h
  have hsymbols : ∀ x ∈ (Bytes.ofString s).takeWhile a.hasSymbol, a.hasSymbol x = true := fun x hx =>
    List.all_eq_true.mp List.all_takeWhile x hx
  obtain ⟨ns, hlt, hns⟩ := exists_eq_map_symbol hsymbols
  obtain ⟨k, hk, hfit⟩ := checkTail_eq_ok_iff.mp htail
  have htext : Bytes.ofString s = ns.map a.symbol ++ List.replicate k pad := by
    rw [← hns, ← hk, List.takeWhile_append_dropWhile]
  rw [hns] at hlast hfit h
  simp only [htext, checkLength_eq_ok_iff, checkPadding_eq_ok_iff, List.length_append, List.length_map,
    List.length_replicate] at hlength hpadding hfit
  have hb : join ns = b := by
    rw [← filterMap_value?_map_symbol ha hlt]
    exact Except.ok.inj h
  have hsextets : sextets b = ns := by
    rw [← hb, sextets_join hlt (by omega) ((checkLastSymbol_eq_ok_iff ha hlt).mp hlast)]
  have hpad := padLength_eq b
  rw [hsextets] at hpad
  refine ⟨k, by omega, fun hrequired => ?_, Bytes.ofString_injective ?_⟩
  · have := hpadding hrequired
    omega
  · rw [htext, encode_eq_write, hsextets, ofString_write_pads ha hlt]

theorem decode_encode_pads (ha : a.IsProper) (padding : Padding) {b : Bytes} {k : Nat}
    (hk : k ≤ padLength b) (hrequired : padding = .required → k = padLength b) :
    decode a padding (encode a b ++ pads k) = .ok b := by
  have hlt : ∀ n ∈ sextets b, n < 64 := fun n => lt_of_mem_sextets
  have hpad := padLength_eq b
  have hmod := length_sextets_mod b
  obtain ⟨htake, hdrop⟩ := span_symbols ha hlt k
  have hlength : checkLength a ((sextets b).map a.symbol ++ List.replicate k pad) = .ok () := by
    rw [checkLength_eq_ok_iff, List.length_append, List.length_map, List.length_replicate]
    omega
  have htail : checkTail ((sextets b).map a.symbol).length (List.replicate k pad) = .ok () := by
    rw [checkTail_eq_ok_iff, List.length_map]
    exact ⟨k, rfl, by omega⟩
  have hpadding : checkPadding padding ((sextets b).map a.symbol ++ List.replicate k pad) = .ok () := by
    rw [checkPadding_eq_ok_iff, List.length_append, List.length_map, List.length_replicate]
    intro h
    have := hrequired h
    omega
  have hlast : checkLastSymbol a ((sextets b).map a.symbol) = .ok () :=
    (checkLastSymbol_eq_ok_iff ha hlt).mpr fun n => unusedBits_sextets
  simp only [decode, encode_eq_write, ofString_write_pads ha hlt, htake, hdrop, hlength, htail, hpadding,
    hlast, filterMap_value?_map_symbol ha hlt, join_sextets]
  rfl

/-- A text is read as bytes exactly if it is the one that the bytes are written as, followed by no more
padding than fills up the last group. Where padding is required, it is all of that. -/
theorem decode_eq_ok_iff (ha : a.IsProper) {padding : Padding} {s : String} {b : Bytes} :
    decode a padding s = .ok b ↔
      ∃ k ≤ padLength b, (padding = .required → k = padLength b) ∧ s = encode a b ++ pads k := by
  refine ⟨decode_eq_ok ha, ?_⟩
  rintro ⟨k, hk, hrequired, rfl⟩
  exact decode_encode_pads ha padding hk hrequired

/-- What was written without padding is read back where padding is not required. -/
theorem decode_encode (ha : a.IsProper) (b : Bytes) : decode a .optional (encode a b) = .ok b := by
  have h := decode_encode_pads ha .optional (Nat.zero_le (padLength b)) nofun
  rwa [show pads 0 = "" from rfl, String.append_empty] at h

/-- Symbols and padding that are read are those of the bytes. -/
theorem sextets_of_decode_write (ha : a.IsProper) {padding : Padding} {ns : List Nat} {k : Nat} {b : Bytes}
    (hlt : ∀ n ∈ ns, n < 64) (h : decode a padding (write a ns ++ pads k) = .ok b) :
    sextets b = ns ∧ k ≤ padLength b := by
  obtain ⟨j, hj, -, heq⟩ := decode_eq_ok ha h
  have hbytes := congrArg Bytes.ofString heq
  rw [encode_eq_write, ofString_write_pads ha hlt,
    ofString_write_pads ha fun n => lt_of_mem_sextets] at hbytes
  obtain ⟨htake, hdrop⟩ := span_symbols ha hlt k
  obtain ⟨htake', hdrop'⟩ := span_symbols ha (fun n => lt_of_mem_sextets (b := b)) j
  rw [hbytes, htake'] at htake
  rw [hbytes, hdrop'] at hdrop
  constructor
  · rw [← filterMap_value?_map_symbol ha fun n => lt_of_mem_sextets (b := b), htake,
      filterMap_value?_map_symbol ha hlt]
  · have hlength := congrArg List.length hdrop
    rw [List.length_replicate, List.length_replicate] at hlength
    omega

end DidToken.Text.Base64
