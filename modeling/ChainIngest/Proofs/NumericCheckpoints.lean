import ChainIngest.Store
import ChainIngest.Proofs.CheckpointHeights
import ChainIngest.Proofs.NumberTexts

/-! Numeric checkpoints: a map of heights in which the first default stays until it is set
(`Store.heights_keep_first_default`). What a text must look like to be read as a height is said
without the reader (`Number.IsNumeral`). -/

namespace ChainIngest

namespace Number

open Decimal (Digits digitsValue)

/-- Digits that stand for `n`, with or without a plus sign before them. -/
def IsUnsigned (cs : List Char) (n : Nat) : Prop :=
  ∃ sign digits, cs = sign ++ digits ∧ (sign = [] ∨ sign = ['+']) ∧ digits ≠ [] ∧
    Digits digits ∧ digitsValue digits = n

/-- A text that stands for `n`: digits, with or without a plus sign before them, and blanks or
nothing around them. -/
def IsNumeral (text : String) (n : Nat) : Prop :=
  ∃ before core after, text.toList = before ++ core ++ after ∧
    (∀ c ∈ before, Text.isBlank c) ∧ (∀ c ∈ after, Text.isBlank c) ∧ IsUnsigned core n

theorem IsUnsigned.not_blank (H : IsUnsigned cs n) :
    cs ≠ [] ∧ ∀ c ∈ cs, Text.isBlank c = false := by
  obtain ⟨sign, digits, rfl, hsign, hne, hdigits, -⟩ := H
  refine ⟨by simp [hne], fun c hc => ?_⟩
  rcases List.mem_append.mp hc with hc | hc
  · rcases hsign with rfl | rfl
    · cases hc
    · rw [List.mem_singleton.mp hc]
      rfl
  · exact Text.isBlank_of_isDigit (hdigits c hc)

theorem isNumeral_iff {text : String} :
    IsNumeral text n ↔ IsUnsigned (Text.trimChars text.toList) n := by
  constructor
  · rintro ⟨before, core, after, htext, hbefore, hafter, hcore⟩
    obtain ⟨hne, hnot⟩ := hcore.not_blank
    rwa [htext, Text.trimChars_blanks hbefore hafter hnot hne]
  · intro hcore
    obtain ⟨before, after, htext, hbefore, hafter⟩ := Text.exists_blanks text.toList
    exact ⟨before, _, after, htext, hbefore, hafter, hcore⟩

/-! ### Reading -/

theorem of_digit? {c : Char} (h : digit? c = some d) : c.isDigit ∧ d = c.toNat - '0'.toNat := by
  unfold digit? at h
  split at h
  · next hc => exact ⟨Char.isDigit_iff_toNat.mpr hc, (Option.some.inj h).symm⟩
  · cases h

theorem extendMagnitude_eq_ok {cs : List Char} (hbound : value ≤ bound)
    (h : extendMagnitude bound overflow value cs = .ok n) :
    Digits cs ∧ Nat.ofDigitChars 10 cs value = n ∧ n ≤ bound := by
  induction cs generalizing value with
  | nil =>
    obtain rfl := Except.ok.inj h
    exact ⟨List.forall_mem_nil _, rfl, hbound⟩
  | cons c rest ih =>
    rw [extendMagnitude] at h
    split at h
    · cases h
    · next d hdigit =>
      split at h
      · next hle =>
        obtain ⟨hc, rfl⟩ := of_digit? hdigit
        obtain ⟨hrest, hvalue, hn⟩ := ih hle h
        refine ⟨List.forall_mem_cons.mpr ⟨hc, hrest⟩, ?_, hn⟩
        rwa [Nat.ofDigitChars_cons, Nat.mul_comm 10 value]
      · cases h

/-- Digits are read as the number that they stand for, if it is within the bound. -/
theorem extendMagnitude_eq_ok_iff {cs : List Char} :
    extendMagnitude bound overflow 0 cs = .ok n ↔ Digits cs ∧ digitsValue cs = n ∧ n ≤ bound := by
  refine ⟨extendMagnitude_eq_ok (Nat.zero_le bound), ?_⟩
  rintro ⟨hdigits, rfl, hn⟩
  exact extendMagnitude_digits hdigits hn

/-- What is read is what stands for a number within the bound. -/
theorem readUnsigned_eq_ok_iff {cs : List Char} :
    readUnsigned bound cs = .ok n ↔ IsUnsigned cs n ∧ n ≤ bound := by
  constructor
  · intro h
    unfold readUnsigned at h
    split at h
    · cases h
    · next rest =>
      cases rest with
      | nil => cases h
      | cons c rest =>
        obtain ⟨hdigits, hvalue, hn⟩ := extendMagnitude_eq_ok_iff.mp h
        exact ⟨⟨['+'], c :: rest, rfl, .inr rfl, nofun, hdigits, hvalue⟩, hn⟩
    · next hne _ =>
      obtain ⟨hdigits, hvalue, hn⟩ := extendMagnitude_eq_ok_iff.mp h
      exact ⟨⟨[], cs, rfl, .inl rfl, hne, hdigits, hvalue⟩, hn⟩
  · rintro ⟨⟨sign, digits, rfl, hsign, hne, hdigits, rfl⟩, hn⟩
    have hread : extendMagnitude bound .tooLarge 0 digits = .ok (digitsValue digits) :=
      extendMagnitude_eq_ok_iff.mpr ⟨hdigits, rfl, hn⟩
    cases digits with
    | nil => exact absurd rfl hne
    | cons c rest =>
      rcases hsign with rfl | rfl
      · rw [List.nil_append, readUnsigned]
        · exact hread
        · exact nofun
        · intro cs heq
          exact Decimal.ne_of_isDigit (hdigits c List.mem_cons_self) rfl (List.cons.inj heq).1
      · exact hread

/-- A text that is trimmed and read is read as the number that it stands for. -/
theorem readUInt64_trim_eq_ok_iff {text : String} {n : UInt64} :
    readUInt64 (Text.trim text) = .ok n ↔ IsNumeral text n.toNat := by
  rw [isNumeral_iff, readUInt64, Text.trim, String.toList_ofList]
  have hread : readUnsigned (UInt64.size - 1) (Text.trimChars text.toList) = .ok n.toNat ↔ _ :=
    readUnsigned_eq_ok_iff
  have hn : n.toNat ≤ UInt64.size - 1 := Nat.le_sub_one_of_lt n.toNat_lt
  cases hcs : readUnsigned (UInt64.size - 1) (Text.trimChars text.toList) with
  | error reason =>
    rw [hcs] at hread
    constructor
    · intro h
      cases h
    · intro h
      cases hread.mpr ⟨h, hn⟩
  | ok m =>
    rw [hcs, Except.ok.injEq, and_iff_left hn] at hread
    rw [← hread]
    have hm : m < UInt64.size := Nat.lt_of_le_pred (by decide) (readUnsigned_eq_ok_iff.mp hcs).2
    constructor
    · intro h
      rw [← Except.ok.inj h]
      exact (UInt64.toNat_ofNat_of_lt' hm).symm
    · rintro rfl
      exact congrArg Except.ok (UInt64.ofNat_toNat ..)

/-- A text that stands for no number below 2^64 cannot be read, and no other one. -/
theorem readUInt64_trim_eq_error_iff {text : String} :
    (∃ reason, readUInt64 (Text.trim text) = .error reason) ↔ ∀ n < 2 ^ 64, ¬IsNumeral text n := by
  cases h : readUInt64 (Text.trim text) with
  | error reason =>
    refine ⟨fun _ n hn hnumeral => ?_, fun _ => ⟨reason, rfl⟩⟩
    have hsame : (UInt64.ofNat n).toNat = n := UInt64.toNat_ofNat_of_lt' hn
    rw [← hsame] at hnumeral
    rw [readUInt64_trim_eq_ok_iff.mpr hnumeral] at h
    cases h
  | ok n =>
    refine ⟨nofun, fun hnone => absurd (readUInt64_trim_eq_ok_iff.mp h) (hnone _ n.toNat_lt)⟩

end Number

/-! ### Calls -/

theorem Program.interpret_bind {m : Type → Type} [Monad m] [LawfulMonad m] {I : Interface}
    {α β : Type} (handle : (q : I.Query) → m (I.Answer q)) (p : Program I α)
    (k : α → Program I β) :
    (p.bind k).interpret handle = p.interpret handle >>= fun value =>
      (k value).interpret handle := by
  induction p with
  | pure value => simp [interpret]
  | query q next ih => simp [interpret, ih]

/-- A call to the checkpoints of a store. -/
inductive CheckpointCall where
  | get (key default : String)
  | set (key value : String)
  | getHeight (key : String) (default : UInt64)
  | setHeight (key : String) (height : UInt64)
  deriving DecidableEq, Repr

namespace CheckpointCall

/-- What a call answers with if it succeeds. -/
abbrev Answer : CheckpointCall → Type
  | .get .. => String
  | .getHeight .. => UInt64
  | .set .. | .setHeight .. => Unit

/-- What a call runs. -/
def action : (call : CheckpointCall) → Action call.Answer
  | .get key default => Engine.readCheckpoint key default
  | .set key value => Engine.writeCheckpoint key value
  | .getHeight key default => Engine.readHeight key default
  | .setHeight key height => Engine.writeHeight key height

/-- The text that a call sets a checkpoint to. -/
def setting? (key : String) : CheckpointCall → Option String
  | .set k value => if k = key then some value else none
  | .setHeight k height => if k = key then some (Number.showUInt64 height) else none
  | .get .. | .getHeight .. => none

/-- The text that a call creates a checkpoint with if it is not there. -/
def default? (key : String) : CheckpointCall → Option String
  | .get k default => if k = key then some default else none
  | .getHeight k default => if k = key then some (Number.showUInt64 default) else none
  | .set .. | .setHeight .. => none

/-- The last text that calls set a checkpoint to. -/
def lastSetting? (key : String) (calls : List CheckpointCall) : Option String :=
  (calls.filterMap (setting? key)).getLast?

/-- The first text that calls would create a checkpoint with. -/
def firstDefault? (key : String) (calls : List CheckpointCall) : Option String :=
  (calls.filterMap (default? key)).head?

theorem lastSetting?_cons (key : String) (call : CheckpointCall) (calls : List CheckpointCall) :
    lastSetting? key (call :: calls) = (lastSetting? key calls).or (call.setting? key) := by
  cases h : call.setting? key with
  | none => simp [lastSetting?, h]
  | some text => simp [lastSetting?, h, List.getLast?_cons, Option.or_some]

theorem firstDefault?_cons (key : String) (call : CheckpointCall) (calls : List CheckpointCall) :
    firstDefault? key (call :: calls) = (call.default? key).or (firstDefault? key calls) := by
  cases h : call.default? key with
  | none => simp [firstDefault?, h]
  | some text => simp [firstDefault?, h]

end CheckpointCall

namespace Store

open Number (showUInt64 IsNumeral)

/-- How a store in memory answers what is asked of its checkpoints. Of anything else it has no
answer. -/
def respond : (q : Engine.Query) → StateT Store Option (Engine.Answer q)
  | .readCheckpoint key default => fun s =>
    some (.ok (s.read key default).1, (s.read key default).2)
  | .writeCheckpoint key value => fun s => some (.ok (), s.write key value)
  | _ => fun _ => none

/-- What an action comes to that asks a store in memory, and the store after it. -/
def perform (s : Store) (a : Action α) : Option (Except Fault α × Store) :=
  (a.run.interpret respond).run s

/-- The store after some calls, whether they have succeeded or not. -/
def afterCalls (s : Store) : List CheckpointCall → Option Store
  | [] => some s
  | call :: rest => (s.perform call.action).bind fun (_, s') => s'.afterCalls rest

/-- The text of a checkpoint, if it is there. -/
def text? (s : Store) (key : String) : Option String := s.checkpoints.get? key

variable {s : Store}

theorem text?_write (s : Store) (key value k : String) :
    (s.write key value).text? k = if k = key then some value else s.text? k :=
  Checkpoints.get?_put ..

theorem read_of_some (h : s.text? key = some text) : s.read key initial = (text, s) := by
  simp only [read, Checkpoints.getOrCreate_of_some h]

theorem read_of_none (h : s.text? key = none) :
    s.read key initial = (initial, s.write key initial) := by
  simp only [read, Checkpoints.getOrCreate_of_none h, write]

/-- A checkpoint that is read is there, with the default if it has not been. -/
theorem text?_read (s : Store) (key default k : String) :
    (s.read key default).2.text? k =
      (s.text? k).or (if key = k then some default else none) := by
  cases h : s.text? key with
  | none =>
    rw [read_of_none h, text?_write]
    by_cases hk : k = key
    · subst hk
      rw [if_pos rfl, if_pos rfl, h, Option.none_or]
    · rw [if_neg hk, if_neg (Ne.symm hk), Option.or_none]
  | some text =>
    rw [read_of_some h]
    by_cases hk : key = k
    · subst hk
      rw [h, Option.some_or]
    · rw [if_neg hk, Option.or_none]

/-- An action goes on in the store that its first part has left, unless that has failed. -/
theorem perform_bind (s : Store) (a : Action α) (k : α → Action β) :
    s.perform (a >>= k) = (s.perform a).bind fun
      | (.ok value, s') => s'.perform (k value)
      | (.error fault, s') => some (.error fault, s') := by
  unfold perform
  rw [show (a >>= k).run = Program.bind a.run fun
    | .ok value => (k value).run
    | .error fault => .pure (.error fault) from ?_, Program.interpret_bind, StateT.run_bind]
  · refine Option.bind_congr fun ⟨result, s'⟩ _ => ?_
    cases result with
    | ok value => rfl
    | error fault => rfl
  · refine congrArg (Program.bind a.run) (funext fun result => ?_)
    cases result with
    | ok value => rfl
    | error fault => rfl

theorem perform_readCheckpoint (s : Store) (key initial : String) :
    s.perform (Engine.readCheckpoint key initial) =
      some (.ok (s.read key initial).1, (s.read key initial).2) := rfl

theorem perform_writeCheckpoint (s : Store) (key value : String) :
    s.perform (Engine.writeCheckpoint key value) = some (.ok (), s.write key value) := rfl

/-- What is read as a height, by the text that the checkpoint has after the reading. -/
theorem perform_readHeight (s : Store) (key : String) (initial : UInt64) :
    s.perform (Engine.readHeight key initial) =
      some ((Number.readUInt64 (Text.trim (s.read key (showUInt64 initial)).1)).mapError
        (.notANumber key (s.read key (showUInt64 initial)).1),
      (s.read key (showUInt64 initial)).2) := by
  rw [Engine.readHeight, perform_bind, perform_readCheckpoint, Option.bind_some]
  dsimp only
  cases Number.readUInt64 (Text.trim (s.read key (showUInt64 initial)).1) with
  | ok height => rfl
  | error reason => rfl

/-- A checkpoint that is there is read as the number that its text stands for, and stays. -/
theorem perform_readHeight_of_numeral {n : UInt64} (h : s.text? key = some text)
    (hn : IsNumeral text n.toNat) (initial : UInt64) :
    s.perform (Engine.readHeight key initial) = some (.ok n, s) := by
  rw [perform_readHeight, read_of_some h, Number.readUInt64_trim_eq_ok_iff.mpr hn]
  rfl

/-- A checkpoint that is not there is created with the default. -/
theorem perform_readHeight_of_none (h : s.text? key = none) (initial : UInt64) :
    s.perform (Engine.readHeight key initial) =
      some (.ok initial, s.write key (showUInt64 initial)) := by
  rw [perform_readHeight, read_of_none h, Number.readUInt64_trim_showUInt64]
  rfl

/-- A reading fails exactly on a text that stands for no number below 2^64, and changes nothing. -/
theorem perform_readHeight_eq_error_iff (s : Store) (key : String) (initial : UInt64) :
    (∃ fault s', s.perform (Engine.readHeight key initial) = some (.error fault, s')) ↔
      ∃ text, s.text? key = some text ∧ ∀ n < 2 ^ 64, ¬IsNumeral text n := by
  cases h : s.text? key with
  | none => simp [perform_readHeight_of_none h]
  | some text =>
    have hread : (∃ reason, Number.readUInt64 (Text.trim text) = .error reason) ↔ _ :=
      Number.readUInt64_trim_eq_error_iff
    rw [perform_readHeight, read_of_some h]
    cases hresult : Number.readUInt64 (Text.trim text) with
    | ok n => simp_all [Except.mapError]
    | error reason => simp_all [Except.mapError]

theorem perform_readHeight_error_eq (h : s.perform (Engine.readHeight key initial) =
    some (.error fault, s')) : s' = s := by
  obtain ⟨text, htext, -⟩ := (perform_readHeight_eq_error_iff s key initial).mp ⟨_, _, h⟩
  rw [perform_readHeight, read_of_some htext] at h
  exact (Prod.mk.inj (Option.some.inj h)).2.symm

/-- Every call ends. A checkpoint has the text that the call sets it to, or else the one that it
has had, or else the call's default. -/
theorem text?_perform (s : Store) (call : CheckpointCall) :
    ∃ result s', s.perform call.action = some (result, s') ∧
      ∀ key, s'.text? key = (call.setting? key).or ((s.text? key).or (call.default? key)) := by
  cases call with
  | get k initial =>
    exact ⟨_, _, perform_readCheckpoint s k initial, fun key => text?_read s k initial key⟩
  | set k value =>
    refine ⟨_, _, perform_writeCheckpoint s k value, fun key => ?_⟩
    rw [text?_write]
    simp only [CheckpointCall.setting?, CheckpointCall.default?, Option.or_none]
    by_cases hk : key = k
    · simp [hk]
    · simp [hk, Ne.symm hk]
  | getHeight k initial =>
    exact ⟨_, _, perform_readHeight s k initial, fun key => text?_read s k _ key⟩
  | setHeight k height =>
    refine ⟨_, _, perform_writeCheckpoint s k (showUInt64 height), fun key => ?_⟩
    rw [text?_write]
    simp only [CheckpointCall.setting?, CheckpointCall.default?, Option.or_none]
    by_cases hk : key = k
    · simp [hk]
    · simp [hk, Ne.symm hk]

open CheckpointCall (lastSetting? firstDefault?)

/-- After calls, a checkpoint has the text that it has been set to last, or else the one that it has
had to begin with, or else the first default. -/
theorem text?_afterCalls (s : Store) (calls : List CheckpointCall) :
    ∃ s', s.afterCalls calls = some s' ∧ ∀ key,
      s'.text? key = (lastSetting? key calls).or ((s.text? key).or (firstDefault? key calls)) := by
  induction calls generalizing s with
  | nil => exact ⟨s, rfl, fun key => by simp [lastSetting?, firstDefault?]⟩
  | cons call rest ih =>
    obtain ⟨result, s₁, hcall, htext₁⟩ := text?_perform s call
    obtain ⟨s', hrest, htext⟩ := ih s₁
    refine ⟨s', ?_, fun key => ?_⟩
    · rw [afterCalls, hcall, Option.bind_some]
      exact hrest
    · rw [htext, htext₁, CheckpointCall.lastSetting?_cons, CheckpointCall.firstDefault?_cons]
      simp only [Option.or_assoc]

/-- Whatever calls are made to the checkpoints of a store in memory:

* each checkpoint has the text that it has been set to last, or else the one that it has had to
  begin with, or else the first default that it has been asked for with; so none is ever removed,
  and a text that is there changes only by being set;
* one that has been set to a height, and to nothing since, is read as that height with any default;
* one that is not there is created with the default and read as it, and so it is later with any
  other default, until it is set;
* a reading fails exactly if the text of the checkpoint stands for no number below 2^64, and then
  leaves the store as it was; a text that stands for one is read as it. -/
theorem heights_keep_first_default (s : Store) (calls : List CheckpointCall) :
    ∃ s', s.afterCalls calls = some s' ∧
      (∀ key, s'.text? key =
        (lastSetting? key calls).or ((s.text? key).or (firstDefault? key calls))) ∧
      (∀ key height, lastSetting? key calls = some (showUInt64 height) → ∀ initial,
        s'.perform (Engine.readHeight key initial) = some (.ok height, s')) ∧
      (∀ key initial, s'.text? key = none → ∃ created,
        s'.perform (Engine.readHeight key initial) = some (.ok initial, created) ∧
        created.text? key = some (showUInt64 initial) ∧
        ∀ later, lastSetting? key later = none → ∃ s'', created.afterCalls later = some s'' ∧
          ∀ other, s''.perform (Engine.readHeight key other) = some (.ok initial, s'')) ∧
      (∀ key initial,
        ((∃ fault s'', s'.perform (Engine.readHeight key initial) = some (.error fault, s'')) ↔
          ∃ text, s'.text? key = some text ∧ ∀ n < 2 ^ 64, ¬IsNumeral text n) ∧
        (∀ fault s'', s'.perform (Engine.readHeight key initial) = some (.error fault, s'') →
          s'' = s') ∧
        ∀ text (n : UInt64), s'.text? key = some text → IsNumeral text n.toNat →
          s'.perform (Engine.readHeight key initial) = some (.ok n, s')) := by
  have hshown (height : UInt64) : IsNumeral (showUInt64 height) height.toNat :=
    Number.readUInt64_trim_eq_ok_iff.mp (Number.readUInt64_trim_showUInt64 height)
  obtain ⟨s', hcalls, htext⟩ := text?_afterCalls s calls
  refine ⟨s', hcalls, htext, ?_, ?_, fun key initial =>
    ⟨perform_readHeight_eq_error_iff s' key initial, fun _ _ => perform_readHeight_error_eq,
      fun _ _ h hn => perform_readHeight_of_numeral h hn initial⟩⟩
  · intro key height hset initial
    have hheight : s'.text? key = some (showUInt64 height) := by rw [htext, hset, Option.some_or]
    exact perform_readHeight_of_numeral hheight (hshown height) initial
  · intro key initial hnone
    refine ⟨_, perform_readHeight_of_none hnone initial, ?_, fun later hlater => ?_⟩
    · rw [text?_write, if_pos rfl]
    · obtain ⟨s'', hlater', htext'⟩ := text?_afterCalls (s'.write key (showUInt64 initial)) later
      have hcreated : s''.text? key = some (showUInt64 initial) := by
        rw [htext', hlater, text?_write, if_pos rfl, Option.none_or, Option.some_or]
      exact ⟨s'', hlater', perform_readHeight_of_numeral hcreated (hshown initial)⟩

end Store

end ChainIngest
