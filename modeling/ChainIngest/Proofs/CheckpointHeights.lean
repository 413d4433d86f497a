import ChainIngest.Checkpoint.Map
import ChainIngest.Proofs.Numeral

/-! Checkpoints as heights: the number that reading a checkpoint gives, and what reading and
writing checkpoints do to it. -/

namespace ChainIngest.Checkpoints

open Number (showUInt64)

/-- The height that a checkpoint holds, or would be created with; none if it holds no number. -/
def height? (c : Checkpoints) (key : String) (initial : UInt64) : Option UInt64 :=
  (Number.readUInt64 (Text.trim (c.getOrCreate key (showUInt64 initial)).1)).toOption

/-- A checkpoint exists and holds a height. -/
def Holds (c : Checkpoints) (key : String) (height : UInt64) : Prop :=
  ∃ text, c.get? key = some text ∧ Number.readUInt64 (Text.trim text) = .ok height

@[simp] theorem get?_empty : empty.get? key = none := rfl

theorem getOrCreate_of_none {c : Checkpoints} (h : c.get? key = none) :
    c.getOrCreate key text = (text, c.put key text) := by
  simp only [getOrCreate, h]

theorem getOrCreate_of_some {c : Checkpoints} (h : c.get? key = some value) :
    c.getOrCreate key text = (value, c) := by
  simp only [getOrCreate, h]

/-- The text that is read depends on the text of its own key alone. -/
theorem getOrCreate_congr {c c' : Checkpoints} (h : c'.get? key = c.get? key) :
    (c'.getOrCreate key text).1 = (c.getOrCreate key text).1 := by
  cases hc : c.get? key with
  | none => rw [getOrCreate_of_none hc, getOrCreate_of_none (h.trans hc)]
  | some value => rw [getOrCreate_of_some hc, getOrCreate_of_some (h.trans hc)]

theorem height?_eq_some_iff {c : Checkpoints} :
    c.height? key initial = some height ↔
      Number.readUInt64 (Text.trim (c.getOrCreate key (showUInt64 initial)).1) = .ok height := by
  unfold height?
  cases Number.readUInt64 (Text.trim (c.getOrCreate key (showUInt64 initial)).1) <;>
    simp [Except.toOption]

/-- A checkpoint holds no height if its text is no number. -/
theorem height?_eq_none_iff {c : Checkpoints} :
    c.height? key initial = none ↔ ∃ reason,
      Number.readUInt64 (Text.trim (c.getOrCreate key (showUInt64 initial)).1) = .error reason := by
  unfold height?
  cases Number.readUInt64 (Text.trim (c.getOrCreate key (showUInt64 initial)).1) <;>
    simp [Except.toOption]

theorem height?_of_none {c : Checkpoints} (h : c.get? key = none) :
    c.height? key initial = some initial := by
  simp [height?, getOrCreate_of_none h, Number.readUInt64_trim_showUInt64, Except.toOption]

theorem height?_of_some {c : Checkpoints} (h : c.get? key = some text) :
    c.height? key initial = (Number.readUInt64 (Text.trim text)).toOption := by
  simp [height?, getOrCreate_of_some h]

/-- The height depends on the text of its own key alone. -/
theorem height?_congr {c c' : Checkpoints} (h : c'.get? key = c.get? key) :
    c'.height? key initial = c.height? key initial := by
  cases hc : c.get? key with
  | none => rw [height?_of_none hc, height?_of_none (h.trans hc)]
  | some text => rw [height?_of_some hc, height?_of_some (h.trans hc)]

theorem Holds.height? {c : Checkpoints} (H : c.Holds key height) :
    c.height? key initial = some height := by
  obtain ⟨text, hget, hread⟩ := H
  rw [height?_of_some hget, hread]
  rfl

/-- What a checkpoint holds depends on the text of its own key alone. -/
theorem Holds.congr {c c' : Checkpoints} (H : c.Holds key height) (h : c'.get? key = c.get? key) :
    c'.Holds key height := by
  obtain ⟨text, hget, hread⟩ := H
  exact ⟨text, h.trans hget, hread⟩

/-- A height that can be read is held, or is the default of a checkpoint that is not there. -/
theorem holds_or_of_height? {c : Checkpoints} (h : c.height? key initial = some height) :
    c.Holds key height ∨ c.get? key = none ∧ height = initial := by
  cases hget : c.get? key with
  | none =>
    rw [height?_of_none hget, Option.some.injEq] at h
    exact .inr ⟨rfl, h.symm⟩
  | some text =>
    rw [height?_eq_some_iff, getOrCreate_of_some hget] at h
    exact .inl ⟨text, hget, h⟩

theorem holds_put (c : Checkpoints) (key : String) (height : UInt64) :
    (c.put key (showUInt64 height)).Holds key height :=
  ⟨showUInt64 height, by simp, Number.readUInt64_trim_showUInt64 height⟩

theorem height?_put_of_ne {c : Checkpoints} (h : k ≠ key) :
    (c.put key value).height? k initial = c.height? k initial :=
  height?_congr (by rw [get?_put, if_neg h])

theorem Holds.put_of_ne {c : Checkpoints} (H : c.Holds k height) (h : k ≠ key) :
    (c.put key value).Holds k height :=
  H.congr (by rw [get?_put, if_neg h])

/-- Reading a height leaves every height as it was: a checkpoint that is created by reading holds
the default that it would have been read as. -/
theorem height?_getOrCreate {c : Checkpoints} (h : k = key → d = initial) :
    (c.getOrCreate key (showUInt64 initial)).2.height? k d = c.height? k d := by
  cases hc : c.get? key with
  | some value => rw [getOrCreate_of_some hc]
  | none =>
    rw [getOrCreate_of_none hc]
    by_cases hk : k = key
    · rw [h hk, hk, height?_of_none hc, (holds_put c key initial).height?]
    · rw [height?_put_of_ne hk]

theorem get?_getOrCreate_of_ne {c : Checkpoints} (h : k ≠ key) :
    (c.getOrCreate key text).2.get? k = c.get? k := by
  cases hc : c.get? key with
  | some value => rw [getOrCreate_of_some hc]
  | none => rw [getOrCreate_of_none hc, get?_put, if_neg h]

theorem get?_getOrCreate_isSome {c : Checkpoints} (h : (c.get? k).isSome) :
    (c.getOrCreate key text).2.get? k = c.get? k := by
  by_cases hk : k = key
  · obtain ⟨value, hvalue⟩ := Option.isSome_iff_exists.mp h
    rw [getOrCreate_of_some (hk ▸ hvalue)]
  · exact get?_getOrCreate_of_ne hk

/-- Reading leaves a height that is held as it is. -/
theorem Holds.getOrCreate {c : Checkpoints} (H : c.Holds k height) :
    (c.getOrCreate key text).2.Holds k height := by
  refine H.congr (get?_getOrCreate_isSome ?_)
  obtain ⟨value, hget, -⟩ := H
  exact Option.isSome_of_eq_some hget

/-- A text that is there after a reading has been there, or is the default of the reading. -/
theorem get?_of_getOrCreate {c : Checkpoints} (h : (c.getOrCreate key text).2.get? k = some value) :
    c.get? k = some value ∨ k = key ∧ value = text := by
  cases hc : c.get? key with
  | some held =>
    rw [getOrCreate_of_some hc] at h
    exact .inl h
  | none =>
    rw [getOrCreate_of_none hc, get?_put] at h
    split at h
    · next hkey => exact .inr ⟨hkey, (Option.some.inj h).symm⟩
    · exact .inl h

theorem get?_getOrCreate_self (c : Checkpoints) (key text : String) :
    (c.getOrCreate key text).2.get? key = some (c.getOrCreate key text).1 := by
  cases hc : c.get? key with
  | some value => rw [getOrCreate_of_some hc, hc]
  | none => rw [getOrCreate_of_none hc, get?_put, if_pos rfl]

/-- A height that has been read is held. -/
theorem holds_getOrCreate {c : Checkpoints} (h : c.height? key initial = some height) :
    (c.getOrCreate key (showUInt64 initial)).2.Holds key height :=
  ⟨_, get?_getOrCreate_self .., height?_eq_some_iff.mp h⟩

end ChainIngest.Checkpoints
