import Mathlib.Data.Finset.Max
import ChainIngest.Postgres.Client
import ChainIngest.Proofs.NumberTexts
import ChainIngest.Proofs.Semantics

/-!
Prices in the database: the snapshot that is read back after one was inserted has the same prices,
unless there is one that was made later (`Postgres.prices_read_back`). Columns of numbers keep the
value of a text, not the text.
-/

namespace ChainIngest

namespace Postgres

open Decimal (NumberText)

/-- A column of numbers gives the number in a text back, as a text whose scale and exponent have
at most 63 bits. -/
def KeepsValue (column : String → String) (text : String) : Prop :=
  ∀ n : NumberText, n.toString = text →
    ∃ m : NumberText, m.toString = column text ∧ m.value = n.value ∧ m.Within (2 ^ 63 - 1)

/-- A column that gives some text of a decimal's value keeps the value of the text that the decimal
is shown as. -/
theorem keepsValue_toString {x : Decimal} {m : NumberText} (htext : m.toString = column x.toString)
    (hvalue : m.decimal.value = x.value) (hwithin : m.Within (2 ^ 63 - 1)) :
    KeepsValue column x.toString := by
  intro n hn
  obtain ⟨shown, hshown, hshownValue, -⟩ := x.exists_toString
  obtain rfl : n = shown := NumberText.toString_injective (hn.trans hshown.symm)
  exact ⟨m, htext, m.value_decimal.symm.trans (hvalue.trans hshownValue.symm), hwithin⟩

/-- Snapshots made at one time with the same prices, at whatever scales. -/
structure DatedSnapshot.SameValues (s s' : DatedSnapshot) : Prop where
  createdAt : s.createdAt = s'.createdAt
  token : s.token.value = s'.token.value
  native : s.native.value = s'.native.value
  reference : s.reference.value = s'.reference.value

/-- A column of numbers keeps the prices of a snapshot. -/
structure DatedSnapshot.KeptBy (column : String → String) (s : DatedSnapshot) : Prop where
  token : KeepsValue column s.token.toString
  native : KeepsValue column s.native.toString
  reference : KeepsValue column s.reference.toString

namespace PriceRow

/-- A row as the database gives it back, where `column` holds the prices. -/
def stored (column : String → String) (r : PriceRow) : PriceRow :=
  ⟨r.createdAt, column r.token, column r.native, column r.reference⟩

theorem readPrice_ok (h : Decimal.ofString? text = .ok x) : readPrice text = .ok x := by
  rw [readPrice, h]
  rfl

theorem readPrice_toString {x : Decimal} (h : x.scale.natAbs < 2 ^ 63) :
    ∃ y, readPrice x.toString = .ok y ∧ y.value = x.value := by
  obtain ⟨y, hread, hvalue⟩ := Decimal.ofString?_toString h
  exact ⟨y, readPrice_ok hread, hvalue⟩

theorem readPrice_column {x : Decimal} (h : KeepsValue column x.toString) :
    ∃ y, readPrice (column x.toString) = .ok y ∧ y.value = x.value := by
  obtain ⟨n, htext, hvalue, -⟩ := x.exists_toString
  obtain ⟨m, hcolumn, hkept, hwithin⟩ := h n htext
  refine ⟨m.decimal, readPrice_ok ?_, m.value_decimal.trans (hkept.trans hvalue)⟩
  rw [← hcolumn]
  exact NumberText.ofString?_toString hwithin

theorem toSnapshot_stored {s : DatedSnapshot} (h : s.KeptBy column) :
    ∃ s', ((ofSnapshot s).stored column).toSnapshot = .ok s' ∧ s'.SameValues s := by
  obtain ⟨token, htoken, htoken'⟩ := readPrice_column h.token
  obtain ⟨native, hnative, hnative'⟩ := readPrice_column h.native
  obtain ⟨reference, hreference, hreference'⟩ := readPrice_column h.reference
  refine ⟨⟨⟨token, native, reference⟩, s.createdAt⟩, ?_, rfl, htoken', hnative', hreference'⟩
  simp only [toSnapshot, stored, ofSnapshot, htoken, hnative, hreference]
  rfl

end PriceRow

/-! ### The table of prices -/

/-- A row that no other was made after. Of rows made at one time, it may be any. -/
def IsLatest (rows : List PriceRow) (row : PriceRow) : Prop :=
  row ∈ rows ∧ ∀ r ∈ rows, r.createdAt ≤ row.createdAt

theorem exists_isLatest (h : rows ≠ []) : ∃ row, IsLatest rows row := by
  have hne : rows.toFinset.Nonempty := List.toFinset_nonempty_iff rows |>.mpr h
  obtain ⟨row, hmem, hlatest⟩ := rows.toFinset.exists_max_image (·.createdAt) hne
  exact ⟨row, List.mem_toFinset.mp hmem, fun r hr => hlatest r (List.mem_toFinset.mpr hr)⟩

/-- A database that can be reached and holds the rows of prices. Whatever else it is asked, it may
answer in any way. -/
def priceTable (column : String → String) : Answering Network (List PriceRow)
  | rows, .connectDatabase _, answer, rows' => answer = .ok () ∧ rows' = rows
  | rows, .runStatement (.insertPrice row), answer, rows' =>
    answer = .ok () ∧ rows' = rows ++ [row]
  | rows, .runStatement .latestPrice, answer, rows' =>
    (rows = [] ∧ answer = .ok none ∨
      ∃ row, IsLatest rows row ∧ answer = .ok (some (row.stored column))) ∧ rows' = rows
  | rows, _, _, rows' => rows' = rows

/-- A statement that is always answered, and never with an error. -/
theorem run_ensures (statement : Statement)
    {post : Except StoreError statement.Outcome → List PriceRow → Prop}
    (hanswered : ∃ answer after, priceTable column rows (.runStatement statement) answer after)
    (h : ∀ answer after, priceTable column rows (.runStatement statement) answer after →
      ∃ outcome, answer = .ok outcome ∧ post (.ok outcome) after) :
    (run settings statement onError).run.Ensures (priceTable column) post rows := by
  refine ⟨⟨.ok (), rows, rfl, rfl⟩, ?_⟩
  rintro _ _ ⟨rfl, rfl⟩
  refine ⟨hanswered, fun answer after hanswer => ?_⟩
  obtain ⟨outcome, rfl, hpost⟩ := h answer after hanswer
  exact hpost

theorem insertSnapshot_ensures {post : Except StoreError Unit → List PriceRow → Prop}
    (h : post (.ok ()) (rows ++ [.ofSnapshot s])) :
    (insertSnapshot settings s).run.Ensures (priceTable column) post rows := by
  refine run_ensures (.insertPrice (.ofSnapshot s)) ⟨.ok (), _, rfl, rfl⟩ ?_
  rintro _ _ ⟨rfl, rfl⟩
  exact ⟨(), rfl, h⟩

/-- What is read is the reading of a latest row. -/
theorem latestSnapshot_ensures
    {post : Except StoreError (Option DatedSnapshot) → List PriceRow → Prop} (hne : rows ≠ [])
    (h : ∀ row, IsLatest rows row →
      post ((row.stored column).toSnapshot.mapError .row |>.map some) rows) :
    (latestSnapshot settings).run.Ensures (priceTable column) post rows := by
  obtain ⟨row, hrow⟩ := exists_isLatest hne
  refine Program.Ensures.bind (run_ensures .latestPrice ⟨_, rows, .inr ⟨row, hrow, rfl⟩, rfl⟩ ?_)
  rintro _ _ ⟨⟨hnil, -⟩ | ⟨row, hrow, rfl⟩, rfl⟩
  · exact absurd hnil hne
  · refine ⟨_, rfl, ?_⟩
    have hpost := h row hrow
    simp only [ExceptT.bindCont]
    generalize (row.stored column).toSnapshot = read at hpost ⊢
    cases read <;> exact hpost

/-- A price is read back from its text with its value, and a snapshot is read back from its row
with its prices. After a snapshot was inserted, it is the one that is read, unless there is a row
that was not made before it. -/
theorem prices_read_back (settings : PostgresSettings) (column : String → String) :
    (∀ x : Decimal, x.scale.natAbs < 2 ^ 31 →
      ∃ y, PriceRow.readPrice x.toString = .ok y ∧ y.value = x.value) ∧
    (∀ s : DatedSnapshot, s.KeptBy column →
      ∃ s', ((PriceRow.ofSnapshot s).stored column).toSnapshot = .ok s' ∧ s'.SameValues s) ∧
    ∀ (s : DatedSnapshot) (rows : List PriceRow), s.KeptBy column →
      (insertSnapshot settings s >>= fun _ => latestSnapshot settings).run.Ensures
        (priceTable column)
        (fun result _ => (∃ s', result = .ok (some s') ∧ s'.SameValues s) ∨
          ∃ row ∈ rows, s.createdAt ≤ row.createdAt ∧
            result = ((row.stored column).toSnapshot.mapError .row |>.map some))
        rows := by
  refine ⟨fun x h => PriceRow.readPrice_toString (h.trans (by decide)),
    fun s h => PriceRow.toSnapshot_stored h, fun s rows h => ?_⟩
  refine Program.Ensures.bind (insertSnapshot_ensures (latestSnapshot_ensures (by simp) ?_))
  rintro row ⟨hmem, hlatest⟩
  rcases List.mem_append.mp hmem with hearlier | hnew
  · exact .inr ⟨row, hearlier, hlatest (.ofSnapshot s) (by simp), rfl⟩
  · obtain rfl := List.mem_singleton.mp hnew
    obtain ⟨s', hread, hvalues⟩ := PriceRow.toSnapshot_stored h
    exact .inl ⟨s', by rw [hread]; rfl, hvalues⟩

/-! ### Prices with exponents -/

def sampleSettings : PostgresSettings := ⟨"localhost", 5432, "feed", "", "feed", 4⟩

/-- Prices that are shown as `1.5E-8`, `12e+16` and `-10.50`. -/
def sampleSnapshot : DatedSnapshot :=
  ⟨⟨⟨15, 9⟩, ⟨12, -16⟩, ⟨-1050, 2⟩⟩, 1700000000000000⟩

/-- A column that writes numbers without exponents. -/
def plainColumn (text : String) : String :=
  if text = "1.5E-8" then "0.000000015"
  else if text = "12e+16" then "120000000000000000"
  else text

/-- A number without an exponent. -/
def plainText (negative : Bool) (whole fraction : String) (hne : whole.toList ≠ [])
    (hdigits : Decimal.Digits whole.toList ∧ Decimal.Digits fraction.toList) : NumberText :=
  ⟨negative, whole.toList, fraction.toList, none, hne, hdigits.1, hdigits.2⟩

theorem plainColumn_keeps_token : KeepsValue plainColumn sampleSnapshot.token.toString :=
  keepsValue_toString (m := plainText false "0" "000000015" (by decide) (by decide)) (by decide)
    rfl ⟨by decide, by decide⟩

theorem plainColumn_keeps_native : KeepsValue plainColumn sampleSnapshot.native.toString := by
  have hvalue : (⟨120000000000000000, 0⟩ : Decimal).value = sampleSnapshot.native.value := by
    norm_num [Decimal.value, sampleSnapshot]
  exact keepsValue_toString
    (m := plainText false "120000000000000000" "" (by decide) (by decide)) (by decide) hvalue
    ⟨by decide, by decide⟩

theorem plainColumn_keeps_reference : KeepsValue plainColumn sampleSnapshot.reference.toString :=
  keepsValue_toString (m := plainText true "10" "50" (by decide) (by decide)) (by decide)
    rfl ⟨by decide, by decide⟩

theorem plainColumn_keeps : sampleSnapshot.KeptBy plainColumn :=
  ⟨plainColumn_keeps_token, plainColumn_keeps_native, plainColumn_keeps_reference⟩

/-- Beside a row of the second before, the sample is what is read. -/
theorem sampleSnapshot_read_back :
    (∃ y, PriceRow.readPrice sampleSnapshot.token.toString = .ok y ∧
      y.value = sampleSnapshot.token.value) ∧
    (insertSnapshot sampleSettings sampleSnapshot >>= fun _ =>
      latestSnapshot sampleSettings).run.Ensures (priceTable plainColumn)
        (fun result _ => ∃ s', result = .ok (some s') ∧ s'.SameValues sampleSnapshot)
        [⟨1699999999000000, "1", "2", "3"⟩] := by
  have h := prices_read_back sampleSettings plainColumn
  refine ⟨h.1 _ (by decide), (h.2.2 sampleSnapshot _ plainColumn_keeps).mono ?_⟩
  rintro _ _ (hread | ⟨row, hmem, hlater, -⟩)
  · exact hread
  · obtain rfl := List.mem_singleton.mp hmem
    exact absurd hlater (by decide)

end Postgres

end ChainIngest
