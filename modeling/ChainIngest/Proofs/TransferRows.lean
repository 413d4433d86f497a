import Mathlib.Algebra.Group.Nat.Defs
import ChainIngest.Postgres.Client
import ChainIngest.Proofs.HexTexts
import ChainIngest.Proofs.Numeral

/-!
Transfers in the database: what is read from the row that a transfer was written to is that
transfer (`Postgres.TransferRow.toTransfer_stored`).
-/

namespace ChainIngest.Postgres

/-! ### Amounts -/

theorem isDigit_lt {c : Char} (h : c.isDigit) : c.toNat < 128 := by
  obtain ⟨-, hle⟩ := Char.isDigit_iff_toNat.mp h
  exact Nat.lt_of_le_of_lt hle (by decide)

theorem extendAmount_digits {cs : List Char} (hdigits : ∀ c ∈ cs, c.isDigit)
    (hbound : Nat.ofDigitChars 10 cs value < 2 ^ 256) :
    extendAmount value (cs.map fun c => UInt8.ofNat c.toNat)
      = .ok (Nat.ofDigitChars 10 cs value) := by
  induction cs generalizing value with
  | nil => simp [extendAmount]
  | cons c rest ih =>
    have hdigit : c.isDigit := hdigits c List.mem_cons_self
    have hunderscore : c ≠ '_' := by
      rintro rfl
      exact absurd hdigit (by decide)
    rw [Nat.ofDigitChars_cons, Nat.mul_comm 10 value] at hbound ⊢
    have hlt : value * 10 + (c.toNat - '0'.toNat) < Nat.pow 2 256 :=
      Nat.lt_of_le_of_lt (Number.le_ofDigitChars rest _) hbound
    rw [List.map_cons, extendAmount, Text.ofNat_toNat_of_lt (isDigit_lt hdigit),
      if_neg hunderscore, Number.digit?_of_isDigit hdigit]
    simp only [if_pos hlt]
    exact ih (fun d hd => hdigits d (List.mem_cons_of_mem _ hd)) hbound

theorem readAmount_repr (amount : BitVec 256) :
    readAmount (Nat.repr amount.toNat) = .ok amount := by
  have hdigits : ∀ c ∈ Nat.toDigits 10 amount.toNat, c.isDigit := fun c hc =>
    Nat.isDigit_of_mem_toDigits (by decide) (by decide) hc
  have hvalue : Nat.ofDigitChars 10 (Nat.toDigits 10 amount.toNat) 0 = amount.toNat :=
    Nat.ofDigitChars_ten_toDigits
  have htext : Nat.repr amount.toNat = String.ofList (Nat.toDigits 10 amount.toNat) := by
    rw [← Nat.toList_repr, String.ofList_toList]
  rw [readAmount, htext, Text.toUTF8_ofList fun c hc => isDigit_lt (hdigits c hc),
    extendAmount_digits hdigits (Nat.lt_of_le_of_lt (Nat.le_of_eq hvalue) amount.isLt), hvalue]
  simp [Functor.map, Except.map]

/-! ### Rows -/

/-- A column of whole numbers of at most 78 digits gives a number back in decimal. -/
def KeepsNumbers (column : String → String) : Prop :=
  ∀ n < 10 ^ 78, column (Nat.repr n) = Nat.repr n

namespace TransferRow

/-- A row as the database gives it back, where `column` holds the amounts. -/
def stored (column : String → String) (r : TransferRow) : TransferRow :=
  { r with amount := column r.amount }

theorem readAmount_stored (h : KeepsNumbers column) (t : Transfer) :
    readAmount ((ofTransfer t).stored column).amount = .ok t.amount := by
  have hwidth : t.amount.toNat < 10 ^ 78 := Nat.lt_trans t.amount.isLt (by decide)
  calc readAmount (column (Nat.repr t.amount.toNat))
      = readAmount (Nat.repr t.amount.toNat) := by rw [h _ hwidth]
    _ = .ok t.amount := readAmount_repr t.amount

/-- A transfer is read back from the row it was written to. -/
theorem toTransfer_stored (h : KeepsNumbers column) (t : Transfer) :
    ((ofTransfer t).stored column).toTransfer = .ok t := by
  -- The casts to signed columns and back are taken off by the library's lemmas.
  have hcasts : ((ofTransfer t).stored column).block.toUInt64 = t.block ∧
      ((ofTransfer t).stored column).logIndex.toUInt64 = t.index ∧
      ((ofTransfer t).stored column).chainId.toUInt64 = t.chainId ∧
      ((ofTransfer t).stored column).decimals.toUInt16.toUInt8 = t.decimals ∧
      ((ofTransfer t).stored column).timestamp.toUInt64 = t.timestamp := by
    simp [stored, ofTransfer]
  obtain ⟨hblock, hindex, hchainId, hdecimals, htimestamp⟩ := hcasts
  have hcontract : Hex.read 20 ((ofTransfer t).stored column).contract = .ok t.contract :=
    Hex.read_encode t.contract
  have htx : Hex.read 32 ((ofTransfer t).stored column).tx = .ok t.tx := Hex.read_encode t.tx
  have hsender : Hex.read 20 ((ofTransfer t).stored column).sender = .ok t.sender :=
    Hex.read_encode t.sender
  have hrecipient : Hex.read 20 ((ofTransfer t).stored column).recipient = .ok t.recipient :=
    Hex.read_encode t.recipient
  rw [toTransfer, hcontract, htx, hsender, hrecipient, readAmount_stored h, hblock, hindex,
    hchainId, hdecimals, htimestamp]
  rfl

/-- A column that drops leading zeros. -/
def sampleColumn (text : String) : String := Nat.repr (Nat.ofDigitChars 10 text.toList 0)

theorem sampleColumn_keeps : KeepsNumbers sampleColumn := by
  intro n _
  rw [sampleColumn, Nat.toList_repr, Nat.ofDigitChars_ten_toDigits]

/-- A transfer whose numbers are the largest of their kinds, or the first without a sign. -/
def sampleTop : Transfer where
  block := 0x8000000000000000
  index := 0xffffffffffffffff
  chainId := 0x8000000000000001
  contract := ⟨List.replicate 20 0xff, by decide⟩
  symbol := "ÜSD'x"
  decimals := 255
  tx := ⟨List.replicate 31 0xab ++ [0], by decide⟩
  sender := .zero 20
  recipient := ⟨List.replicate 19 0x0a ++ [0xa0], by decide⟩
  amount := BitVec.allOnes 256
  timestamp := 0xfffffffffffffffe

theorem toTransfer_stored_top :
    KeepsNumbers sampleColumn ∧
      ((ofTransfer sampleTop).stored sampleColumn).toTransfer = .ok sampleTop :=
  ⟨sampleColumn_keeps, toTransfer_stored sampleColumn_keeps sampleTop⟩

end TransferRow

end ChainIngest.Postgres
