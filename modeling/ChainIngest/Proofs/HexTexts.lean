import ChainIngest.Bytes.Hex

/-!
A text is read as a byte string exactly when its lower-case digits are the ones that the string is
written as (`Hex.read_eq_ok_iff`). Reading counts the bytes of a text's encoding, so the digits have
to be characters of one byte.
-/

namespace ChainIngest

namespace Text

theorem loop_eq_append_drop (bytes : ByteArray) (i : Nat) (read : List UInt8) :
    ByteArray.toList.loop bytes i read = read.reverse ++ bytes.data.toList.drop i := by
  fun_induction ByteArray.toList.loop bytes i read with
  | case1 i read hlt ih =>
    have hlt : i < bytes.data.toList.length := hlt
    have hget : bytes.get! i = bytes.data.toList[i] := by
      rw [Array.getElem_toList]
      exact getElem!_pos bytes.data i hlt
    rw [ih, List.drop_eq_getElem_cons hlt, List.reverse_cons, List.append_assoc, hget,
      List.singleton_append]
  | case2 i read hge =>
    have hge : bytes.data.toList.length ≤ i := Nat.le_of_not_lt hge
    rw [List.drop_of_length_le hge, List.append_nil]

/-- Characters of one byte each are encoded as their codes. -/
theorem toUTF8_ofList {cs : List Char} (h : ∀ c ∈ cs, c.toNat < 128) :
    (String.ofList cs).toUTF8.toList = cs.map fun c => UInt8.ofNat c.toNat := by
  have hcodes : cs.flatMap String.utf8EncodeChar = cs.map fun c => UInt8.ofNat c.toNat := by
    induction cs with
    | nil => rfl
    | cons c rest ih =>
      have hc : String.utf8EncodeChar c = [UInt8.ofNat c.toNat] :=
        if_pos (Nat.le_of_lt_succ (h c List.mem_cons_self))
      rw [List.flatMap_cons, hc, ih fun d hd => h d (List.mem_cons_of_mem _ hd)]
      rfl
  rw [String.toUTF8_eq_toByteArray, String.toByteArray_ofList, ByteArray.toList,
    loop_eq_append_drop, List.reverse_nil, List.nil_append, List.drop_zero, List.utf8Encode,
    List.toList_data_toByteArray, hcodes]

theorem ofNat_toNat_of_lt {c : Char} (h : c.toNat < 128) :
    Char.ofNat (UInt8.ofNat c.toNat).toNat = c := by
  have hcode : (UInt8.ofNat c.toNat).toNat = c.toNat :=
    (UInt8.toNat_ofNat').trans (Nat.mod_eq_of_lt (by omega))
  rw [hcode, Char.ofNat_toNat]

end Text

namespace Hex

theorem value?_digit (h : value < 16) : value? (digit value) = some value := by
  have hall : ∀ v : Fin 16, value? (digit v) = some v.val := by decide
  exact hall ⟨value, h⟩

theorem high_lt (byte : UInt8) : byte.toNat / 16 < 16 := Nat.div_lt_of_lt_mul byte.toNat_lt

theorem low_lt (byte : UInt8) : byte.toNat % 16 < 16 := Nat.mod_lt _ (by decide)

theorem exists_of_mem_digits {bytes : List UInt8} (h : c ∈ digits bytes) :
    ∃ value < 16, c = digit value := by
  obtain ⟨byte, -, hc⟩ := List.mem_flatMap.mp h
  rcases List.mem_cons.mp hc with hhigh | hlow
  · exact ⟨_, high_lt byte, hhigh⟩
  · exact ⟨_, low_lt byte, List.mem_singleton.mp hlow⟩

theorem length_digits (bytes : List UInt8) : (digits bytes).length = 2 * bytes.length := by
  induction bytes with
  | nil => rfl
  | cons byte rest ih =>
    rw [digits, List.flatMap_cons, List.length_append, ← digits, ih, List.length_cons]
    simp only [byteDigits, List.length_cons, List.length_nil]
    omega

theorem digits_cons (byte : UInt8) (bytes : List UInt8) :
    digits (byte :: bytes) = digit (byte.toNat / 16) :: digit (byte.toNat % 16) :: digits bytes :=
  rfl

/-! ### Digits of either case -/

section Beyond

variable {c : Char} (h : 128 ≤ c.toNat)

include h

theorem not_le_of_beyond {d : Char} (hd : d.toNat < 128) : ¬c ≤ d := fun hle =>
  absurd (Nat.lt_of_le_of_lt (show c.toNat ≤ d.toNat from hle) hd) (Nat.not_lt.mpr h)

theorem value?_of_beyond : value? c = none := by
  rw [value?, if_neg fun hc => not_le_of_beyond h (by decide) hc.2,
    if_neg fun hc => not_le_of_beyond h (by decide) hc.2,
    if_neg fun hc => not_le_of_beyond h (by decide) hc.2]

theorem toLower_of_beyond : c.toLower = c :=
  dif_neg fun hc => not_le_of_beyond h (d := 'Z') (by decide) hc.2

end Beyond

theorem lt_of_value? (h : value? c = some value) : c.toNat < 128 := by
  refine Nat.lt_of_not_le fun hbeyond => ?_
  rw [value?_of_beyond hbeyond] at h
  cases h

/-- A character is a digit exactly if it is one in lower case. -/
theorem value?_eq_some_iff {c : Char} :
    value? c = some value ↔ value < 16 ∧ c.toLower = digit value := by
  have hlower : value? c.toLower = value? c ∧ ∀ v ∈ value? c, v < 16 ∧ c.toLower = digit v := by
    rcases Nat.lt_or_ge c.toNat 128 with hlt | hbeyond
    · have hall : ∀ n : Fin 128, value? (Char.ofNat n).toLower = value? (Char.ofNat n) ∧
          ∀ v ∈ value? (Char.ofNat n), v < 16 ∧ (Char.ofNat n).toLower = digit v := by decide
      exact Char.ofNat_toNat c ▸ hall ⟨c.toNat, hlt⟩
    · rw [toLower_of_beyond hbeyond, value?_of_beyond hbeyond]
      exact ⟨rfl, nofun⟩
  refine ⟨hlower.2 value, fun ⟨hlt, hc⟩ => ?_⟩
  rw [← hlower.1, hc, value?_digit hlt]

theorem toLower_digit (h : value < 16) : (digit value).toLower = digit value :=
  (value?_eq_some_iff.mp (value?_digit h)).2

theorem toLower_digits (bytes : List UInt8) : (digits bytes).map Char.toLower = digits bytes := by
  refine (List.map_congr_left fun c hc => ?_).trans (List.map_id _)
  obtain ⟨value, hlt, rfl⟩ := exists_of_mem_digits hc
  exact toLower_digit hlt

/-- Characters that become digits in lower case are digits. -/
theorem exists_value {cs : List Char} {bytes : List UInt8}
    (h : cs.map Char.toLower = digits bytes) (hc : c ∈ cs) : ∃ value, value? c = some value := by
  obtain ⟨value, hlt, hdigit⟩ := exists_of_mem_digits (h ▸ List.mem_map_of_mem hc)
  exact ⟨value, value?_eq_some_iff.mpr ⟨hlt, hdigit⟩⟩

theorem toLower_of_bytes? {cs : List Char} {bytes : List UInt8} (h : bytes? cs = some bytes) :
    cs.map Char.toLower = digits bytes := by
  fun_induction bytes? cs generalizing bytes with
  | case1 =>
    cases h
    rfl
  | case2 => cases h
  | case3 high low rest ih =>
    simp only [Option.bind_eq_bind, Option.bind_eq_some_iff, Option.pure_def,
      Option.some.injEq] at h
    obtain ⟨hi, hhigh, lo, hlow, bytes, hrest, rfl⟩ := h
    obtain ⟨hhi, hhigh⟩ := value?_eq_some_iff.mp hhigh
    obtain ⟨hlo, hlow⟩ := value?_eq_some_iff.mp hlow
    have hbyte : (UInt8.ofNat (hi * 16 + lo)).toNat = hi * 16 + lo := by
      rw [UInt8.toNat_ofNat', Nat.mod_eq_of_lt (by omega)]
    have hhalves : (hi * 16 + lo) / 16 = hi ∧ (hi * 16 + lo) % 16 = lo := by omega
    rw [digits_cons, hbyte, hhalves.1, hhalves.2, List.map_cons, List.map_cons, hhigh, hlow,
      ih hrest]

theorem bytes?_of_toLower {cs : List Char} {bytes : List UInt8}
    (h : cs.map Char.toLower = digits bytes) : bytes? cs = some bytes := by
  induction bytes generalizing cs with
  | nil => rw [List.map_eq_nil_iff.mp h, bytes?]
  | cons byte rest ih =>
    obtain ⟨high, cs, rfl, hhigh, h⟩ := List.map_eq_cons_iff.mp (digits_cons byte rest ▸ h)
    obtain ⟨low, cs, rfl, hlow, h⟩ := List.map_eq_cons_iff.mp h
    have hbyte : UInt8.ofNat (byte.toNat / 16 * 16 + byte.toNat % 16) = byte := by
      rw [Nat.div_add_mod', UInt8.ofNat_toNat]
    rw [bytes?, value?_eq_some_iff.mpr ⟨high_lt byte, hhigh⟩,
      value?_eq_some_iff.mpr ⟨low_lt byte, hlow⟩, ih h]
    simp only [Option.bind_eq_bind, Option.bind_some, Option.pure_def, hbyte]

theorem bytes?_digits (bytes : List UInt8) : bytes? (digits bytes) = some bytes :=
  bytes?_of_toLower (toLower_digits bytes)

theorem digits_injective {bytes bytes' : List UInt8} (h : digits bytes = digits bytes') :
    bytes = bytes' :=
  Option.some.inj ((bytes?_digits bytes).symm.trans (h ▸ bytes?_digits bytes'))

/-! ### Reading -/

theorem firstInvalid_of_value {cs : List Char} (h : ∀ c ∈ cs, ∃ value, value? c = some value) :
    firstInvalid position (cs.map fun c => UInt8.ofNat c.toNat) = none := by
  induction cs generalizing position with
  | nil => rfl
  | cons c rest ih =>
    obtain ⟨value, hvalue⟩ := h c List.mem_cons_self
    rw [List.map_cons, firstInvalid, Text.ofNat_toNat_of_lt (lt_of_value? hvalue), hvalue]
    exact ih fun d hd => h d (List.mem_cons_of_mem _ hd)

theorem toLower_of_read (h : read n text = .ok b) :
    (stripPrefix text.toList).map Char.toLower = digits b.toList := by
  have hbytes : (bytes? (stripPrefix text.toList)).bind (Bytes.ofList? n) = some b := by
    -- The other branches of the reader are errors.
    rw [read] at h
    grind
  obtain ⟨list, hlist, hlength⟩ := Option.bind_eq_some_iff.mp hbytes
  rw [Bytes.ofList?] at hlength
  split at hlength
  · cases hlength
    exact toLower_of_bytes? hlist
  · cases hlength

theorem read_of_toLower {b : Bytes n}
    (h : (stripPrefix text.toList).map Char.toLower = digits b.toList) : read n text = .ok b := by
  have hvalues : ∀ c ∈ stripPrefix text.toList, ∃ value, value? c = some value :=
    fun c hc => exists_value h hc
  have hascii : ∀ c ∈ stripPrefix text.toList, c.toNat < 128 := fun c hc =>
    (hvalues c hc).elim fun _ hvalue => lt_of_value? hvalue
  have hlength : (stripPrefix text.toList).length = 2 * n := by
    rw [← List.length_map Char.toLower, h, length_digits, b.length_eq]
  have hlist : Bytes.ofList? n b.toList = some b := dif_pos b.length_eq
  simp only [read, Text.toUTF8_ofList hascii, List.length_map, hlength,
    firstInvalid_of_value hvalues, bytes?_of_toLower h, Option.bind_some, hlist]
  rw [if_neg (by omega), if_neg (by omega)]

/-- A text is read as the byte string whose digits it has, in whatever case. -/
theorem read_eq_ok_iff {b : Bytes n} :
    read n text = .ok b ↔ (stripPrefix text.toList).map Char.toLower = digits b.toList :=
  ⟨toLower_of_read, read_of_toLower⟩

/-- A byte string is read back from its digits. -/
theorem read_encode (b : Bytes n) : read n (encode b.toList) = .ok b := by
  refine read_of_toLower ?_
  rw [encode, String.toList_ofList, stripPrefix, toLower_digits]

end Hex

end ChainIngest
