import ChainIngest.Bytes.Address
import ChainIngest.Proofs.ByteNumbers
import ChainIngest.Proofs.HexTexts
import ChainIngest.Proofs.TextParts

/-!
Texts of addresses: forty hexadecimal digits of either case, with a prefix or nothing before them
and blanks or nothing around them. These texts and no others are read, and each way of writing an
address is read back (`Address.read_exactly_spellings`).
-/

namespace ChainIngest

namespace Hex

/-- The digits of either case. -/
def allDigits : List Char := "0123456789abcdefABCDEF".toList

/-- What may stand before digits. -/
def prefixes : List (List Char) := ["".toList, "0x".toList, "0X".toList]

theorem mem_allDigits_iff {c : Char} : c ∈ allDigits ↔ ∃ value, value? c = some value := by
  constructor
  · have hall : ∀ c ∈ allDigits, (value? c).isSome := List.all_eq_true.mp (by decide)
    exact fun hc => Option.isSome_iff_exists.mp (hall c hc)
  · rintro ⟨value, hvalue⟩
    have hall : ∀ n : Fin 128, (value? (Char.ofNat n)).isSome → Char.ofNat n ∈ allDigits := by
      decide
    have hc := hall ⟨c.toNat, lt_of_value? hvalue⟩
    rw [Char.ofNat_toNat] at hc
    exact hc (hvalue ▸ rfl)

theorem mem_allDigits_of_all {digits : List Char} (h : digits.all (· ∈ allDigits) = true) :
    ∀ c ∈ digits, c ∈ allDigits :=
  fun c hc => of_decide_eq_true (List.all_eq_true.mp h c hc)

theorem exists_prefix (cs : List Char) : ∃ start ∈ prefixes, cs = start ++ stripPrefix cs := by
  fun_cases stripPrefix cs with
  | case1 rest => exact ⟨['0', 'x'], by decide, rfl⟩
  | case2 rest => exact ⟨['0', 'X'], by decide, rfl⟩
  | case3 => exact ⟨[], by decide, rfl⟩

theorem stripPrefix_append {start digits : List Char} (hstart : start ∈ prefixes)
    (hdigits : ∀ c ∈ digits, c ∈ allDigits) : stripPrefix (start ++ digits) = digits := by
  simp only [prefixes, List.mem_cons, List.not_mem_nil, or_false] at hstart
  rcases hstart with rfl | rfl | rfl
  · -- A text of digits has no prefix: the letters of the prefixes are no digits.
    have hx : 'x' ∉ digits ∧ 'X' ∉ digits :=
      ⟨fun h => absurd (hdigits _ h) (by decide), fun h => absurd (hdigits _ h) (by decide)⟩
    change stripPrefix digits = digits
    fun_cases stripPrefix digits <;> simp at hx ⊢
  · rfl
  · rfl

theorem exists_bytes {digits : List Char} (hlength : digits.length = 2 * n)
    (hdigits : ∀ c ∈ digits, c ∈ allDigits) : ∃ b : Bytes n, bytes? digits = some b.toList := by
  induction n generalizing digits with
  | zero => exact ⟨⟨[], rfl⟩, by rw [List.eq_nil_of_length_eq_zero hlength]; rfl⟩
  | succ n ih =>
    match digits, hlength with
    | high :: low :: rest, hlength =>
      obtain ⟨hhigh, hdigits⟩ := List.forall_mem_cons.mp hdigits
      obtain ⟨hlow, hrest⟩ := List.forall_mem_cons.mp hdigits
      obtain ⟨h, hhigh⟩ := mem_allDigits_iff.mp hhigh
      obtain ⟨l, hlow⟩ := mem_allDigits_iff.mp hlow
      obtain ⟨b, hb⟩ := ih (by simp at hlength; omega) hrest
      refine ⟨⟨UInt8.ofNat (h * 16 + l) :: b.toList, by rw [List.length_cons, b.length_eq]⟩, ?_⟩
      simp only [bytes?, hhigh, hlow, hb, Option.bind_eq_bind, Option.bind_some, Option.pure_def]

end Hex

namespace Address

/-- A text of digits with a prefix or nothing before them, and blanks or nothing around. -/
def Shows (text : String) (digits : List Char) : Prop :=
  ∃ before start after, text.toList = before ++ (start ++ digits) ++ after ∧
    (∀ c ∈ before, Text.isBlank c) ∧ start ∈ Hex.prefixes ∧ ∀ c ∈ after, Text.isBlank c

/-- A text that shows the digits of an address. -/
structure Spells (text : String) (digits : List Char) : Prop where
  shows : Shows text digits
  length_eq : digits.length = 40
  digit : ∀ c ∈ digits, c ∈ Hex.allDigits

theorem read_eq_ok_iff {text : String} {a : Address} : read text = .ok a ↔
    (Hex.stripPrefix (Text.trimChars text.toList)).map Char.toLower = Hex.digits a.toList := by
  rw [← String.toList_ofList (l := Text.trimChars text.toList), ← Hex.read_eq_ok_iff]
  change (Hex.read 20 (Text.trim text)).mapError _ = _ ↔ Hex.read 20 (Text.trim text) = _
  cases Hex.read 20 (Text.trim text) <;> simp [Except.mapError]

theorem Shows.read_eq_ok_iff {text : String} {digits : List Char} {a : Address}
    (H : Shows text digits) (hdigits : ∀ c ∈ digits, c ∈ Hex.allDigits) (hne : digits ≠ []) :
    read text = .ok a ↔ digits.map Char.toLower = Hex.digits a.toList := by
  obtain ⟨before, start, after, htext, hbefore, hstart, hafter⟩ := H
  have hnot : ∀ c ∈ start ++ digits, Text.isBlank c = false := by
    have hstarts : Hex.prefixes.flatten.all (!Text.isBlank ·) = true := by decide
    have hall : Hex.allDigits.all (!Text.isBlank ·) = true := by decide
    intro c hc
    rw [← Bool.not_eq_true']
    rcases List.mem_append.mp hc with hc | hc
    · exact List.all_eq_true.mp hstarts c (List.mem_flatten_of_mem hstart hc)
    · exact List.all_eq_true.mp hall c (hdigits c hc)
  rw [Address.read_eq_ok_iff, htext, Text.trimChars_blanks hbefore hafter hnot (by simp [hne]),
    Hex.stripPrefix_append hstart hdigits]

theorem Spells.read_eq_ok_iff {text : String} {digits : List Char} {a : Address}
    (H : Spells text digits) :
    read text = .ok a ↔ digits.map Char.toLower = Hex.digits a.toList := by
  refine H.shows.read_eq_ok_iff H.digit ?_
  rintro rfl
  exact absurd H.length_eq (by decide)

/-- What becomes the digits of an address in lower case are forty digits. -/
theorem Shows.spells {text : String} {digits : List Char} {a : Address} (H : Shows text digits)
    (h : digits.map Char.toLower = Hex.digits a.toList) : Spells text digits where
  shows := H
  length_eq := by rw [← List.length_map Char.toLower, h, Hex.length_digits, a.length_eq]
  digit _ hc := Hex.mem_allDigits_iff.mpr (Hex.exists_value h hc)

theorem Spells.exists_read {text : String} {digits : List Char} (H : Spells text digits) :
    ∃ a, read text = .ok a := by
  obtain ⟨a, ha⟩ := Hex.exists_bytes (n := 20) H.length_eq H.digit
  exact ⟨a, H.read_eq_ok_iff.mpr (Hex.toLower_of_bytes? ha)⟩

theorem exists_spells {text : String} {a : Address} (h : read text = .ok a) :
    ∃ digits, Spells text digits := by
  obtain ⟨before, after, htext, hbefore, hafter⟩ := Text.exists_blanks text.toList
  obtain ⟨start, hstart, hcore⟩ := Hex.exists_prefix (Text.trimChars text.toList)
  refine ⟨_, Shows.spells ⟨before, start, after, ?_, hbefore, hstart, hafter⟩
    (read_eq_ok_iff.mp h)⟩
  rw [← hcore]
  exact htext

/-! ### The ways of writing an address -/

theorem toLower_toUpper_digit (h : value < 16) :
    (Hex.digit value).toUpper.toLower = Hex.digit value := by
  have hall : ∀ value : Fin 16, (Hex.digit value).toUpper.toLower = Hex.digit value := by decide
  exact hall ⟨value, h⟩

theorem toLower_toUpper_digits (bytes : List UInt8) :
    ((Hex.digits bytes).map Char.toUpper).map Char.toLower = Hex.digits bytes := by
  rw [List.map_map]
  refine (List.map_congr_left fun c hc => ?_).trans (List.map_id _)
  obtain ⟨value, hlt, rfl⟩ := Hex.exists_of_mem_digits hc
  exact toLower_toUpper_digit hlt

/-- Raising letters changes nothing but their case. -/
theorem toLower_raiseLetters {digits checksum : List Char}
    (hdigits : ∀ c ∈ digits, ∃ value < 16, c = Hex.digit value)
    (hlength : digits.length ≤ checksum.length) :
    (raiseLetters digits checksum).map Char.toLower = digits := by
  induction digits generalizing checksum with
  | nil => rfl
  | cons c rest ih =>
    cases checksum with
    | nil => cases hlength
    | cons check checks =>
      obtain ⟨⟨value, hlt, rfl⟩, hrest⟩ := List.forall_mem_cons.mp hdigits
      rw [raiseLetters, List.zipWith_cons_cons, List.map_cons, ← raiseLetters,
        ih hrest (Nat.le_of_succ_le_succ hlength), apply_ite Char.toLower,
        toLower_toUpper_digit hlt, Hex.toLower_digit hlt, ite_self]

/-- The digits that an address is displayed with. -/
def displayDigits (a : Address) : List Char :=
  let digits := Hex.digits a.toList
  let checksum := Keccak.hash (digits.map fun c => UInt8.ofNat c.toNat)
  raiseLetters digits (Hex.digits checksum.toList)

theorem toLower_displayDigits (a : Address) :
    a.displayDigits.map Char.toLower = Hex.digits a.toList := by
  refine toLower_raiseLetters (fun c hc => Hex.exists_of_mem_digits hc) ?_
  rw [Hex.length_digits, Hex.length_digits, a.length_eq, Bytes.length_eq]
  decide

theorem toList_display (a : Address) : a.display.toList = '0' :: 'x' :: a.displayDigits :=
  String.toList_ofList

/-- Exactly the texts are read that spell an address: blanks, a prefix or nothing, forty digits,
and blanks. Two of them are read as one address exactly if their digits differ in nothing but case.
An address is read back from its digits in lower case, in upper case and with a checksum, with any
prefix or none before them and any blanks around them. -/
theorem read_exactly_spellings :
    (∀ text, (∃ a, read text = .ok a) ↔ ∃ digits, Spells text digits) ∧
    (∀ text text' digits digits' a a', Spells text digits → Spells text' digits' →
      read text = .ok a → read text' = .ok a' →
      (a = a' ↔ digits.map Char.toLower = digits'.map Char.toLower)) ∧
    (∀ (a : Address) text digits, Shows text digits →
      '0' :: 'x' :: digits = (Hex.encode a.toList).toList ∨
        digits = (Hex.digits a.toList).map Char.toUpper ∨
        '0' :: 'x' :: digits = a.display.toList →
      read text = .ok a) := by
  refine ⟨fun text => ⟨fun ⟨a, h⟩ => exists_spells h, fun ⟨digits, H⟩ => H.exists_read⟩, ?_, ?_⟩
  · intro text text' digits digits' a a' H H' h h'
    rw [H.read_eq_ok_iff.mp h, H'.read_eq_ok_iff.mp h']
    exact ⟨fun heq => heq ▸ rfl, fun heq => Bytes.ext (Hex.digits_injective heq)⟩
  · intro a text digits H hform
    have hlower : digits.map Char.toLower = Hex.digits a.toList := by
      rcases hform with hform | rfl | hform
      · rw [Hex.encode, String.toList_ofList] at hform
        obtain rfl := List.tail_eq_of_cons_eq (List.tail_eq_of_cons_eq hform)
        exact Hex.toLower_digits a.toList
      · exact toLower_toUpper_digits a.toList
      · rw [toList_display] at hform
        obtain rfl := List.tail_eq_of_cons_eq (List.tail_eq_of_cons_eq hform)
        exact toLower_displayDigits a
    exact (H.spells hlower).read_eq_ok_iff.mpr hlower

/-- An oracle's address, as bytes. -/
def sample : Address :=
  ⟨[0x5f, 0x4e, 0xc3, 0xdf, 0x9c, 0xbd, 0x43, 0x71, 0x4f, 0xe2, 0x74, 0x0f, 0x5e, 0x36, 0x16, 0x15,
    0x5c, 0x5b, 0x84, 0x19], rfl⟩

/-- Its digits with a checksum, between a tab and a line break. -/
def sampleText : String := "\t0x5f4eC3Df9cbd43714FE2740f5E3616155c5b8419\n"

/-- Its digits in upper case, after the other prefix and before another blank. -/
def sampleUpperText : String := "0X5F4EC3DF9CBD43714FE2740F5E3616155C5B8419\u3000"

theorem sampleText_spells :
    Spells sampleText "5f4eC3Df9cbd43714FE2740f5E3616155c5b8419".toList where
  shows := ⟨['\t'], ['0', 'x'], ['\n'], by decide, List.all_eq_true.mp (by decide), by decide,
    List.all_eq_true.mp (by decide)⟩
  length_eq := by decide
  digit := Hex.mem_allDigits_of_all (by decide)

theorem sampleUpperText_spells :
    Spells sampleUpperText "5F4EC3DF9CBD43714FE2740F5E3616155C5B8419".toList where
  shows := ⟨[], ['0', 'X'], ['\u3000'], by decide, nofun, by decide,
    List.all_eq_true.mp (by decide)⟩
  length_eq := by decide
  digit := Hex.mem_allDigits_of_all (by decide)

/-- The two texts, whose digits differ in case only, are read as one address. -/
theorem sample_read_in_any_case :
    (∃ a, read sampleText = .ok a) ∧
    Spells sampleText "5f4eC3Df9cbd43714FE2740f5E3616155c5b8419".toList ∧
    Spells sampleUpperText "5F4EC3DF9CBD43714FE2740F5E3616155C5B8419".toList ∧
    read sampleText = .ok sample ∧ read sampleUpperText = .ok sample ∧
    (sample = sample ↔
      "5f4eC3Df9cbd43714FE2740f5E3616155c5b8419".toList.map Char.toLower =
        "5F4EC3DF9CBD43714FE2740F5E3616155C5B8419".toList.map Char.toLower) := by
  obtain ⟨hread, hcase, hforms⟩ := read_exactly_spellings
  have hchecksum : read sampleText = .ok sample :=
    sampleText_spells.read_eq_ok_iff.mpr (by decide)
  have hupper : read sampleUpperText = .ok sample :=
    hforms sample _ _ sampleUpperText_spells.shows (.inr (.inl (by decide)))
  exact ⟨(hread _).mpr ⟨_, sampleText_spells⟩, sampleText_spells, sampleUpperText_spells,
    hchecksum, hupper,
    hcase _ _ _ _ _ _ sampleText_spells sampleUpperText_spells hchecksum hupper⟩

end Address

end ChainIngest
