import ChainIngest.Decimal.Display
import ChainIngest.Decimal.Reader
import ChainIngest.Proofs.DecimalValues
import ChainIngest.Proofs.Numeral

/-!
Texts of numbers: a sign, digits, digits after a point, and an exponent. Such a text stands for one
number only (`Decimal.NumberText.chars_injective`). A decimal is shown as a text of its value and a
text is read as a decimal of its value, so a decimal that is shown is read back with its value
(`Decimal.ofString?_toString`), though often at another scale.
-/

namespace ChainIngest

namespace Decimal

open Text (takeWhile_dropWhile_append append_inj_of_head)

/-! ### Digits -/

def Digits (cs : List Char) : Prop := ∀ c ∈ cs, c.isDigit

instance (cs : List Char) : Decidable (Digits cs) := List.decidableBAll _ cs

/-- The number that digits stand for. -/
def digitsValue (cs : List Char) : Nat := Nat.ofDigitChars 10 cs 0

namespace Digits

theorem append (h : Digits cs) (h' : Digits ds) : Digits (cs ++ ds) := fun c hc =>
  (List.mem_append.mp hc).elim (h c) (h' c)

theorem toDigits (n : Nat) : Digits (Nat.toDigits 10 n) := fun _ hc =>
  Nat.isDigit_of_mem_toDigits (by decide) (by decide) hc

theorem zeros (n : Nat) : Digits (List.replicate n '0') := by
  intro c hc
  rw [List.eq_of_mem_replicate hc]
  rfl

theorem of_append (h : Digits (cs ++ ds)) : Digits cs ∧ Digits ds :=
  ⟨fun c hc => h c (List.mem_append_left _ hc), fun c hc => h c (List.mem_append_right _ hc)⟩

theorem head (h : Digits cs) (hne : cs ≠ []) : ∀ c ∈ (cs ++ rest).head?, c.isDigit := by
  cases cs with
  | nil => exact absurd rfl hne
  | cons d ds =>
    intro c hc
    obtain rfl : d = c := Option.some.inj hc
    exact h d List.mem_cons_self

end Digits

theorem ne_of_isDigit {c d : Char} (hc : c.isDigit) (hd : d.isDigit = false) : c ≠ d := by
  rintro rfl
  rw [hd] at hc
  exact absurd hc Bool.false_ne_true

theorem digitsValue_toDigits (n : Nat) : digitsValue (Nat.toDigits 10 n) = n :=
  Nat.ofDigitChars_ten_toDigits

theorem digitsValue_append (cs ds : List Char) :
    digitsValue (cs ++ ds) = 10 ^ ds.length * digitsValue cs + digitsValue ds := by
  rw [digitsValue, Nat.ofDigitChars_append, Nat.ofDigitChars_eq_ofDigitChars_zero]
  rfl

theorem digitsValue_zeros_append (n : Nat) (ds : List Char) :
    digitsValue (List.replicate n '0' ++ ds) = digitsValue ds := by
  rw [digitsValue, Nat.ofDigitChars_append, Nat.ofDigitChars_replicate_zero, Nat.mul_zero]
  rfl

theorem digitsValue_append_zeros (ds : List Char) (n : Nat) :
    digitsValue (ds ++ List.replicate n '0') = 10 ^ n * digitsValue ds := by
  rw [digitsValue, Nat.ofDigitChars_append, Nat.ofDigitChars_replicate_zero]
  rfl

/-! ### Texts -/

/-- An exponent as it is written. -/
structure ExponentText where
  mark : Char
  negative : Bool
  digits : List Char
  isMark : mark = 'e' ∨ mark = 'E'
  digits_ne_nil : digits ≠ []
  isDigit : Digits digits

namespace ExponentText

def chars (e : ExponentText) : List Char :=
  e.mark :: (if e.negative then '-' else '+') :: e.digits

def value (e : ExponentText) : ℤ :=
  if e.negative then -digitsValue e.digits else digitsValue e.digits

end ExponentText

/-- A number as it is written. -/
structure NumberText where
  negative : Bool
  whole : List Char
  /-- The digits after the point. Without any there is no point. -/
  fraction : List Char
  exponent : Option ExponentText
  whole_ne_nil : whole ≠ []
  whole_digits : Digits whole
  fraction_digits : Digits fraction

namespace NumberText

def sign : Bool → List Char
  | true => ['-']
  | false => []

def point : (fraction : List Char) → List Char
  | [] => []
  | _ :: _ => ['.']

def exponentChars : Option ExponentText → List Char
  | none => []
  | some e => e.chars

def exponentValue : Option ExponentText → ℤ
  | none => 0
  | some e => e.value

/-- The characters after the sign. -/
def magnitudeChars (n : NumberText) : List Char :=
  n.whole ++ (point n.fraction ++ (n.fraction ++ exponentChars n.exponent))

def chars (n : NumberText) : List Char := sign n.negative ++ n.magnitudeChars

protected def toString (n : NumberText) : String := String.ofList n.chars

/-- The number without its sign. -/
def magnitude (n : NumberText) : ℚ :=
  (digitsValue n.whole + digitsValue n.fraction / 10 ^ n.fraction.length) *
    10 ^ exponentValue n.exponent

/-- The number that is written. -/
def value (n : NumberText) : ℚ := if n.negative then -n.magnitude else n.magnitude

/-- Decimal places of the last digit. -/
def scale (n : NumberText) : ℤ := n.fraction.length - exponentValue n.exponent

/-- Neither the exponent nor the scale is larger than a limit. -/
structure Within (limit : Nat) (n : NumberText) : Prop where
  exponent : (exponentValue n.exponent).natAbs ≤ limit
  scale : n.scale.natAbs ≤ limit

theorem Within.mono (h : Within limit n) (hle : limit ≤ limit') : n.Within limit' :=
  ⟨h.exponent.trans hle, h.scale.trans hle⟩

/-! ### One text, one number -/

theorem eq_minus_of_mem_sign {negative : Bool} (h : c ∈ sign negative) : c = '-' := by
  cases negative with
  | false => cases h
  | true => exact List.mem_singleton.mp h

theorem sign_injective {negative negative' : Bool} (h : sign negative = sign negative') :
    negative = negative' := by
  cases negative <;> cases negative' <;> trivial

theorem eq_point_of_mem_point {fraction : List Char} (h : c ∈ point fraction) : c = '.' := by
  cases fraction with
  | nil => cases h
  | cons => exact List.mem_singleton.mp h

theorem exponentChars_head {p : Char → Bool} (he : p 'e' = false) (hE : p 'E' = false)
    (e : Option ExponentText) : ∀ c ∈ (exponentChars e).head?, p c = false := by
  cases e with
  | none => simp [exponentChars]
  | some e =>
    intro c hc
    obtain rfl : e.mark = c := Option.some.inj hc
    rcases e.isMark with h | h <;> rw [h] <;> assumption

/-- After the point comes a digit or an exponent. -/
theorem fraction_head {p : Char → Bool} (hp : ∀ c, c.isDigit → p c = false) (he : p 'e' = false)
    (hE : p 'E' = false) (n : NumberText) :
    ∀ c ∈ (n.fraction ++ exponentChars n.exponent).head?, p c = false := by
  by_cases hnil : n.fraction = []
  · rw [hnil]
    exact exponentChars_head he hE n.exponent
  · exact fun c hc => hp c (n.fraction_digits.head hnil c hc)

theorem isDigit_point_head (n : NumberText) :
    ∀ c ∈ (point n.fraction ++ (n.fraction ++ exponentChars n.exponent)).head?,
      c.isDigit = false := by
  cases hfraction : n.fraction with
  | nil => exact exponentChars_head rfl rfl n.exponent
  | cons =>
    intro c hc
    obtain rfl : '.' = c := Option.some.inj hc
    rfl

theorem exponentChars_injective (h : exponentChars e = exponentChars e') : e = e' := by
  cases e with
  | none =>
    cases e' with
    | none => rfl
    | some => simp [exponentChars, ExponentText.chars] at h
  | some e =>
    cases e' with
    | none => simp [exponentChars, ExponentText.chars] at h
    | some e' =>
      obtain ⟨mark, negative, digits, _⟩ := e
      obtain ⟨mark', negative', digits', _⟩ := e'
      simp only [exponentChars, ExponentText.chars, List.cons.injEq] at h
      obtain ⟨rfl, hsign, rfl⟩ := h
      cases negative <;> cases negative' <;> simp_all

/-- A text is the text of one number, written in one way. -/
theorem chars_injective {m n : NumberText} (h : m.chars = n.chars) : m = n := by
  have hminus (n : NumberText) : ∀ c ∈ n.magnitudeChars.head?, (c == '-') = false := fun c hc =>
    beq_false_of_ne (ne_of_isDigit (n.whole_digits.head n.whole_ne_nil c hc) rfl)
  have hpoint (n : NumberText) :
      ∀ c ∈ (n.fraction ++ exponentChars n.exponent).head?, (c == '.') = false :=
    n.fraction_head (fun c hc => beq_false_of_ne (ne_of_isDigit hc rfl)) rfl rfl
  have hmark (n : NumberText) : ∀ c ∈ (exponentChars n.exponent).head?, c.isDigit = false :=
    exponentChars_head rfl rfl n.exponent
  obtain ⟨hsign, hmagnitude⟩ := append_inj_of_head (p := (· == '-')) h
    (fun c hc => beq_iff_eq.mpr (eq_minus_of_mem_sign hc)) (hminus m)
    (fun c hc => beq_iff_eq.mpr (eq_minus_of_mem_sign hc)) (hminus n)
  obtain ⟨hwhole, hpointed⟩ := append_inj_of_head hmagnitude
    m.whole_digits m.isDigit_point_head n.whole_digits n.isDigit_point_head
  obtain ⟨-, hrest⟩ := append_inj_of_head (p := (· == '.')) hpointed
    (fun c hc => beq_iff_eq.mpr (eq_point_of_mem_point hc)) (hpoint m)
    (fun c hc => beq_iff_eq.mpr (eq_point_of_mem_point hc)) (hpoint n)
  obtain ⟨hfraction, hexponent⟩ := append_inj_of_head hrest
    m.fraction_digits (hmark m) n.fraction_digits (hmark n)
  have hnegative : m.negative = n.negative := sign_injective hsign
  have hexponent : m.exponent = n.exponent := exponentChars_injective hexponent
  cases m
  cases n
  cases hnegative
  cases hwhole
  cases hfraction
  cases hexponent
  rfl

theorem toString_injective {m n : NumberText} (h : m.toString = n.toString) : m = n :=
  chars_injective (String.ofList_inj.mp h)

/-! ### Reading -/

/-- The decimal that a text is read as. -/
def decimal (n : NumberText) : Decimal :=
  let digits : ℤ := digitsValue (n.whole ++ n.fraction)
  ⟨if n.negative then -digits else digits, n.scale⟩

theorem magnitude_eq (n : NumberText) :
    n.magnitude = digitsValue (n.whole ++ n.fraction) * 10 ^ (-n.scale) := by
  have hten : (10 : ℚ) ≠ 0 := by norm_num
  have hpow : (10 : ℚ) ^ n.fraction.length ≠ 0 := pow_ne_zero _ hten
  rw [magnitude, scale, neg_sub, zpow_sub₀ hten, zpow_natCast, digitsValue_append]
  push_cast
  field_simp

theorem value_decimal (n : NumberText) : n.decimal.value = n.value := by
  rw [value, magnitude_eq, Decimal.value, decimal]
  cases n.negative <;> simp

end NumberText

theorem readSeparatedDigits_digits {read : Nat} (h : Digits cs) :
    readSeparatedDigits read cs = .ok (Nat.ofDigitChars 10 cs read) := by
  induction cs generalizing read with
  | nil => simp [readSeparatedDigits]
  | cons c rest ih =>
    have hdigit : c.isDigit := h c List.mem_cons_self
    rw [readSeparatedDigits, Number.digit?_of_isDigit hdigit]
    · simp only
      rw [ih fun d hd => h d (List.mem_cons_of_mem _ hd), Nat.ofDigitChars_cons,
        Nat.mul_comm 10 read]
    · exact ne_of_isDigit hdigit rfl

theorem readMantissaMagnitude_digits (h : Digits cs) (hne : cs ≠ []) :
    readMantissaMagnitude cs = .ok (digitsValue cs) := by
  cases cs with
  | nil => exact absurd rfl hne
  | cons c rest =>
    rw [readMantissaMagnitude, readSeparatedDigits_digits h]
    · rfl
    · exact nofun
    · rintro cs heq
      exact ne_of_isDigit (h c List.mem_cons_self) rfl (List.cons.inj heq).1

theorem readMantissa_digits (negative : Bool) (h : Digits cs) (hne : cs ≠ []) :
    readMantissa (NumberText.sign negative ++ cs)
      = .ok (if negative then -(digitsValue cs : ℤ) else digitsValue cs) := by
  have hread := readMantissaMagnitude_digits h hne
  cases negative with
  | true =>
    rw [NumberText.sign, List.singleton_append, readMantissa, hread]
    rfl
  | false =>
    rw [NumberText.sign, List.nil_append, readMantissa, hread]
    · rfl
    · rintro rest rfl
      exact ne_of_isDigit (h _ List.mem_cons_self) rfl rfl
    · rintro rest rfl
      exact ne_of_isDigit (h _ List.mem_cons_self) rfl rfl

theorem readMagnitude_digits (h : Digits cs) (hne : cs ≠ []) (hbound : digitsValue cs ≤ bound) :
    Number.readMagnitude bound overflow cs = .ok (digitsValue cs) := by
  cases cs with
  | nil => exact absurd rfl hne
  | cons c rest => exact Number.extendMagnitude_digits h hbound

theorem readSigned_exponent (e : ExponentText) (hbound : e.value.natAbs ≤ bound) :
    Number.readSigned bound ((if e.negative then '-' else '+') :: e.digits) = .ok e.value := by
  obtain ⟨mark, negative, digits, isMark, hne, hdigits⟩ := e
  cases negative with
  | true =>
    have hle : digitsValue digits ≤ bound + 1 := by
      simp only [ExponentText.value] at hbound
      omega
    rw [if_pos rfl, Number.readSigned, readMagnitude_digits hdigits hne hle]
    rfl
  | false =>
    have hle : digitsValue digits ≤ bound := by
      simp only [ExponentText.value] at hbound
      omega
    rw [if_neg Bool.false_ne_true, Number.readSigned, readMagnitude_digits hdigits hne hle]
    rfl

theorem isExponentMark_of_isDigit {c : Char} (h : c.isDigit) : isExponentMark c = false := by
  rw [isExponentMark, beq_false_of_ne (ne_of_isDigit h rfl), beq_false_of_ne (ne_of_isDigit h rfl)]
  rfl

namespace NumberText

/-- The characters before the exponent. -/
def base (n : NumberText) : List Char :=
  sign n.negative ++ n.whole ++ (point n.fraction ++ n.fraction)

theorem chars_eq (n : NumberText) : n.chars = n.base ++ exponentChars n.exponent := by
  simp [chars, magnitudeChars, base]

theorem base_ne_nil (n : NumberText) : n.base ≠ [] := by
  simp [base, n.whole_ne_nil]

theorem not_isExponentMark (n : NumberText) : ∀ c ∈ n.base, (!isExponentMark c) = true := by
  intro c hc
  rw [Bool.not_eq_true']
  rcases List.mem_append.mp hc with hfront | hback
  · rcases List.mem_append.mp hfront with hsign | hwhole
    · rw [eq_minus_of_mem_sign hsign]
      rfl
    · exact isExponentMark_of_isDigit (n.whole_digits c hwhole)
  · rcases List.mem_append.mp hback with hpoint | hfraction
    · rw [eq_point_of_mem_point hpoint]
      rfl
    · exact isExponentMark_of_isDigit (n.fraction_digits c hfraction)

theorem splitPoint_base (n : NumberText) :
    splitPoint n.base = (sign n.negative ++ (n.whole ++ n.fraction), n.fraction.length) := by
  have hfront : ∀ c ∈ sign n.negative ++ n.whole, (c != '.') = true := by
    intro c hc
    rw [bne_iff_ne]
    rcases List.mem_append.mp hc with hsign | hwhole
    · rw [eq_minus_of_mem_sign hsign]
      decide
    · exact ne_of_isDigit (n.whole_digits c hwhole) rfl
  have hrest : ∀ c ∈ (point n.fraction ++ n.fraction).head?, (c != '.') = false := by
    cases hfraction : n.fraction with
    | nil => simp [point]
    | cons => simp [point]
  obtain ⟨htake, hdrop⟩ := takeWhile_dropWhile_append hfront hrest
  rw [splitPoint, base, htake, hdrop]
  cases hfraction : n.fraction with
  | nil => simp [point]
  | cons d ds =>
    have hkept : n.fraction.filter (· != '_') = n.fraction := List.filter_eq_self.mpr fun c hc =>
      bne_iff_ne.mpr (ne_of_isDigit (n.fraction_digits c hc) rfl)
    rw [hfraction] at hkept
    simp [point, hkept]

/-- A text is read as the decimal with its digits. -/
theorem ofString?_toString {n : NumberText} (h : n.Within (2 ^ 63 - 1)) :
    ofString? n.toString = .ok n.decimal := by
  have hhead : ∀ c ∈ (exponentChars n.exponent).head?, (!isExponentMark c) = false :=
    exponentChars_head rfl rfl n.exponent
  obtain ⟨htake, hdrop⟩ := takeWhile_dropWhile_append n.not_isExponentMark hhead
  have hscale : ¬((n.fraction.length : ℤ) - exponentValue n.exponent < -scaleBound ∨
      scaleBound ≤ (n.fraction.length : ℤ) - exponentValue n.exponent) := by
    have hle := h.scale
    have hbound : scaleBound = 2 ^ 63 := rfl
    rw [scale] at hle
    omega
  have hmantissa := readMantissa_digits n.negative (n.whole_digits.append n.fraction_digits)
    (by simp [n.whole_ne_nil])
  have hempty : n.base.isEmpty = false := by simp [n.base_ne_nil]
  rw [ofString?, NumberText.toString, String.toList_ofList, chars_eq, htake, hdrop, decimal, scale]
  simp only [hempty, splitPoint_base, hmantissa]
  cases hexponent : n.exponent with
  | none =>
    rw [hexponent] at hscale
    simp only [exponentChars, pure_bind, Bool.false_eq_true, if_false]
    exact if_neg hscale
  | some e =>
    have hbound : e.value.natAbs ≤ 2 ^ 63 - 1 := by
      have hle := h.exponent
      rwa [hexponent] at hle
    have hread : Number.readSigned exponentBound ((if e.negative then '-' else '+') :: e.digits)
        = .ok (exponentValue (some e)) :=
      readSigned_exponent e (hbound.trans (by decide))
    rw [hexponent] at hscale
    simp only [exponentChars, ExponentText.chars, hread, Bool.false_eq_true, if_false]
    exact if_neg hscale

end NumberText

/-! ### Showing -/

/-- `n` writes the number `k * 10 ^ (-scale)` as `cs`. -/
structure NumberText.Writes (n : NumberText) (cs : List Char) (k : Nat) (scale : ℤ) : Prop where
  chars : n.magnitudeChars = cs
  magnitude : n.magnitude = k * 10 ^ (-scale)
  within : n.Within scale.natAbs

namespace NumberText

/-- The text of given parts writes the number that its digits are at its scale. -/
theorem exists_writes (whole fraction : List Char) (e : Option ExponentText) {scale : ℤ}
    (hne : whole ≠ []) (hwhole : Digits whole) (hfraction : Digits fraction)
    (hchars : whole ++ (point fraction ++ (fraction ++ exponentChars e)) = cs)
    (hdigits : digitsValue (whole ++ fraction) = k)
    (hscale : fraction.length - exponentValue e = scale)
    (hexponent : (exponentValue e).natAbs ≤ scale.natAbs) :
    ∃ n : NumberText, n.Writes cs k scale := by
  refine ⟨⟨false, whole, fraction, e, hne, hwhole, hfraction⟩, hchars, ?_, hexponent, ?_⟩
  · rw [magnitude_eq, hdigits, NumberText.scale, hscale]
  · rw [NumberText.scale, hscale]

end NumberText

/-- An exponent as it is shown. -/
def shownExponent (mark : Char) (isMark : mark = 'e' ∨ mark = 'E') (negative : Bool) (n : Nat) :
    ExponentText where
  mark
  negative
  digits := Nat.toDigits 10 n
  isMark
  digits_ne_nil := Nat.toDigits_ne_nil
  isDigit := .toDigits n

theorem value_shownExponent (isMark : mark = 'e' ∨ mark = 'E') (negative : Bool) (n : Nat) :
    (shownExponent mark isMark negative n).value = if negative then -(n : ℤ) else n := by
  rw [ExponentText.value, shownExponent, digitsValue_toDigits]

section
variable {digits : List Char} {scale : Nat}

open NumberText (Writes exists_writes point exponentChars exponentValue)

/-- The point stands between digits. -/
theorem writes_point (hdigits : Digits digits) (hpos : 0 < scale) (hlt : scale < digits.length) :
    ∃ n : NumberText, n.Writes
      (digits.take (digits.length - scale) ++ '.' :: digits.drop (digits.length - scale))
      (digitsValue digits) scale := by
  obtain ⟨whole, hwhole⟩ : ∃ whole, digits.take (digits.length - scale) = whole := ⟨_, rfl⟩
  obtain ⟨fraction, hfraction⟩ : ∃ fraction, digits.drop (digits.length - scale) = fraction :=
    ⟨_, rfl⟩
  have hparts : whole ++ fraction = digits := hwhole ▸ hfraction ▸ List.take_append_drop _ _
  have hlength : fraction.length = scale := by
    rw [← hfraction, List.length_drop]
    omega
  have hne : whole ≠ [] := by
    rw [← List.length_pos_iff, ← hwhole, List.length_take]
    omega
  obtain ⟨d, ds, rfl⟩ := List.exists_cons_of_length_pos (hlength ▸ hpos)
  obtain ⟨hwholeDigits, hfractionDigits⟩ := Digits.of_append (hparts ▸ hdigits)
  rw [hwhole, hfraction]
  exact exists_writes whole (d :: ds) none hne hwholeDigits hfractionDigits
    (by simp [point, exponentChars]) (by rw [hparts])
    (by simp only [hlength, exponentValue, sub_zero]) (Nat.zero_le _)

/-- Zeros fill the places between the point and the digits. -/
theorem writes_zeros (hdigits : Digits digits) (hne : digits ≠ []) (hle : digits.length ≤ scale) :
    ∃ n : NumberText, n.Writes
      ('0' :: '.' :: (List.replicate (scale - digits.length) '0' ++ digits))
      (digitsValue digits) scale := by
  obtain ⟨fraction, hfraction⟩ :
      ∃ fraction, List.replicate (scale - digits.length) '0' ++ digits = fraction := ⟨_, rfl⟩
  have hlength : fraction.length = scale := by
    rw [← hfraction, List.length_append, List.length_replicate]
    omega
  have hvalue : digitsValue (['0'] ++ fraction) = digitsValue digits := by
    rw [← hfraction, ← List.append_assoc]
    exact digitsValue_zeros_append (scale - digits.length + 1) digits
  have hfractionDigits : Digits fraction := hfraction ▸ (Digits.zeros _).append hdigits
  have hpos : 0 < fraction.length :=
    hlength ▸ Nat.lt_of_lt_of_le (List.length_pos_iff.mpr hne) hle
  rw [hfraction]
  obtain ⟨d, ds, rfl⟩ := List.exists_cons_of_length_pos hpos
  exact exists_writes ['0'] (d :: ds) none (List.cons_ne_nil _ _) (.zeros 1) hfractionDigits
    (by simp [point, exponentChars]) hvalue (by simp only [hlength, exponentValue, sub_zero])
    (Nat.zero_le _)

/-- One digit stands before the point, and the exponent makes up for it. -/
theorem writes_scientific {lead : Char} {rest : List Char} (hdigits : Digits (lead :: rest))
    (hle : (lead :: rest).length ≤ scale) :
    ∃ n : NumberText, n.Writes
      (lead :: (point rest ++ rest) ++
        'E' :: '-' :: (Nat.repr (scale - (lead :: rest).length + 1)).toList)
      (digitsValue (lead :: rest)) scale := by
  obtain ⟨hlead, hrest⟩ := Digits.of_append (show Digits ([lead] ++ rest) from hdigits)
  rw [List.length_cons] at hle ⊢
  have hmark : 'E' = 'e' ∨ 'E' = 'E' := .inr rfl
  have hvalue := value_shownExponent hmark true (scale - (rest.length + 1) + 1)
  rw [if_pos rfl] at hvalue
  refine exists_writes [lead] rest
    (some (shownExponent 'E' hmark true (scale - (rest.length + 1) + 1)))
    (List.cons_ne_nil _ _) hlead hrest ?_ rfl ?_ ?_
  · simp [exponentChars, ExponentText.chars, shownExponent, Nat.toList_repr]
  · rw [exponentValue, hvalue]
    omega
  · rw [exponentValue, hvalue]
    omega

theorem showFraction_writes (hdigits : Digits digits) (hne : digits ≠ []) (hpos : 0 < scale) :
    ∃ n : NumberText, n.Writes (showFraction digits scale) (digitsValue digits) scale := by
  unfold showFraction
  by_cases hlt : scale < digits.length
  · rw [if_pos hlt]
    exact writes_point hdigits hpos hlt
  have hle : digits.length ≤ scale := Nat.le_of_not_lt hlt
  rw [if_neg hlt]
  by_cases hfew : scale - digits.length ≤ maxLeadingZeros
  · rw [if_pos hfew]
    exact writes_zeros hdigits hne hle
  · rw [if_neg hfew]
    cases digits with
    | nil => exact absurd rfl hne
    | cons lead rest =>
      have hwrites := writes_scientific hdigits hle
      cases rest with
      | nil => exact hwrites
      | cons => exact hwrites

theorem showInteger_writes (hdigits : Digits digits) (hne : digits ≠ []) (zeros : Nat) :
    ∃ n : NumberText, n.Writes (showInteger digits zeros) (digitsValue digits) (-zeros) := by
  unfold showInteger
  by_cases hfew : zeros ≤ maxTrailingZeros
  · rw [if_pos hfew]
    refine ⟨⟨false, digits ++ List.replicate zeros '0', [], none,
      List.append_ne_nil_of_left_ne_nil hne _, hdigits.append (.zeros zeros), nofun⟩, ?_⟩
    constructor
    · simp [NumberText.magnitudeChars, point, exponentChars]
    · rw [NumberText.magnitude_eq]
      simp [digitsValue_append_zeros, NumberText.scale, exponentValue, mul_comm]
    · exact ⟨Nat.zero_le _, Nat.zero_le _⟩
  · rw [if_neg hfew]
    have hmark : 'e' = 'e' ∨ 'e' = 'E' := .inl rfl
    have hvalue := value_shownExponent hmark false zeros
    rw [if_neg Bool.false_ne_true] at hvalue
    refine exists_writes digits [] (some (shownExponent 'e' hmark false zeros)) hne hdigits nofun
      ?_ ?_ ?_ ?_
    · simp [point, exponentChars, ExponentText.chars, shownExponent, Nat.toList_repr]
    · rw [List.append_nil]
    · rw [exponentValue, hvalue, List.length_nil, Nat.cast_zero, zero_sub]
    · rw [exponentValue, hvalue, Int.natAbs_neg]

end

theorem showMagnitude_writes (k : Nat) (scale : ℤ) :
    ∃ n : NumberText, n.Writes (showMagnitude k scale) k scale := by
  unfold showMagnitude
  by_cases hzero : k = 0
  · rw [if_pos hzero]
    refine ⟨⟨false, ['0'], [], none, List.cons_ne_nil _ _, .zeros 1, nofun⟩, rfl, ?_,
      Nat.zero_le _, Nat.zero_le _⟩
    have hdigits : digitsValue (['0'] ++ []) = 0 := rfl
    rw [NumberText.magnitude_eq, hdigits, hzero, Nat.cast_zero, zero_mul, zero_mul]
  · rw [if_neg hzero, Nat.toList_repr]
    by_cases hpos : 0 < scale
    · have hscale : (scale.toNat : ℤ) = scale := Int.toNat_of_nonneg hpos.le
      have hwrites := showFraction_writes (.toDigits k) Nat.toDigits_ne_nil
        (Int.lt_toNat.mpr hpos)
      rw [hscale, digitsValue_toDigits] at hwrites
      rw [if_pos hpos]
      exact hwrites
    · have hscale : -((-scale).toNat : ℤ) = scale := by
        rw [Int.toNat_of_nonneg (by omega), neg_neg]
      have hwrites := showInteger_writes (.toDigits k) Nat.toDigits_ne_nil (-scale).toNat
      rw [hscale, digitsValue_toDigits] at hwrites
      rw [if_neg hpos]
      exact hwrites

/-- A decimal is shown as a text of its value. -/
theorem exists_toString (x : Decimal) : ∃ n : NumberText,
    n.toString = x.toString ∧ n.value = x.value ∧ n.Within x.scale.natAbs := by
  obtain ⟨n, hchars, hmagnitude, hexponent, hscale⟩ :=
    showMagnitude_writes x.mantissa.natAbs x.scale
  by_cases hneg : x.mantissa < 0
  · have hmantissa : (x.mantissa : ℚ) = -(x.mantissa.natAbs : ℚ) := by
      rw [Nat.cast_natAbs, abs_of_neg hneg, Int.cast_neg, neg_neg]
    refine ⟨{ n with negative := true }, ?_, ?_, hexponent, hscale⟩
    · rw [Decimal.toString, Decimal.toChars, if_pos hneg, ← hchars]
      rfl
    · calc -n.magnitude = -(x.mantissa.natAbs : ℚ) * 10 ^ (-x.scale) := by rw [hmagnitude, neg_mul]
        _ = x.value := by rw [← hmantissa, value]
  · have hmantissa : (x.mantissa : ℚ) = x.mantissa.natAbs := by
      rw [Nat.cast_natAbs, abs_of_nonneg (Int.not_lt.mp hneg)]
    refine ⟨{ n with negative := false }, ?_, ?_, hexponent, hscale⟩
    · rw [Decimal.toString, Decimal.toChars, if_neg hneg, ← hchars]
      rfl
    · calc n.magnitude = x.mantissa.natAbs * 10 ^ (-x.scale) := hmagnitude
        _ = x.value := by rw [← hmantissa, value]

/-- A decimal that is shown is read back as one of the same value. -/
theorem ofString?_toString {x : Decimal} (h : x.scale.natAbs < 2 ^ 63) :
    ∃ y, ofString? x.toString = .ok y ∧ y.value = x.value := by
  obtain ⟨n, htext, hvalue, hwithin⟩ := exists_toString x
  refine ⟨n.decimal, ?_, n.value_decimal.trans hvalue⟩
  rw [← htext]
  exact NumberText.ofString?_toString (hwithin.mono (Nat.le_sub_one_of_lt h))

end Decimal

end ChainIngest
