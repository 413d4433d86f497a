import Mathlib.Data.List.Basic
import ChainIngest.Chain.Event
import ChainIngest.Proofs.ByteNumbers

/-!
Events and their logs. Whatever an event's declaration is, its values are read back from the topics
and the data they are logged with (`EventDeclaration.decode?_encode`), and values are read from no
log with too few or too many topics or too little data (`EventDeclaration.decode?_isSome_iff`).
-/

namespace ChainIngest

/-! ### Words -/

theorem length_wordBytes (n : BitVec 256) : (wordBytes n).length = 32 := Bytes.length_natBytes _ _

theorem toNat_wordOfBytes (data : List UInt8) :
    (wordOfBytes data).toNat = Bytes.natOf (data.take 32) := by
  have hlt : Bytes.natOf (data.take 32) < 2 ^ 256 :=
    calc Bytes.natOf (data.take 32) < 256 ^ (data.take 32).length := Bytes.natOf_lt _
      _ ≤ 256 ^ 32 := Nat.pow_le_pow_right (by decide) (List.length_take_le _ _)
      _ = 2 ^ 256 := by decide
  rw [wordOfBytes, BitVec.toNat_ofNat, Nat.mod_eq_of_lt hlt]

/-- A word is read from its bytes. -/
theorem natOf_wordBytes (n : BitVec 256) : Bytes.natOf (wordBytes n) = n.toNat :=
  Bytes.natOf_natBytes (Nat.lt_of_lt_of_eq n.isLt (by decide))

theorem wordOfBytes_wordBytes (n : BitVec 256) : wordOfBytes (wordBytes n) = n := by
  apply BitVec.eq_of_toNat_eq
  rw [toNat_wordOfBytes, ← length_wordBytes n, List.take_length, natOf_wordBytes]

theorem wordOfBytes_take (data : List UInt8) : wordOfBytes (data.take 32) = wordOfBytes data := by
  rw [wordOfBytes, wordOfBytes, List.take_take, Nat.min_self]

theorem Address.ofTopic_toTopic (a : Address) : Address.ofTopic a.toTopic = a := by
  have hdrop : (List.replicate 12 0 ++ a.toList).drop 12 = a.toList :=
    List.drop_left' List.length_replicate
  simp only [ofTopic, toTopic, hdrop]

theorem WordType.ofWord_toWord (type : WordType) (value : type.Value) :
    type.ofWord (type.toWord value) = value := by
  cases type with
  | address => exact Address.ofTopic_toTopic value
  | uint256 => exact wordOfBytes_wordBytes value

/-- The first word of some data. -/
theorem Bytes.ofList?_take (word : Bytes n) (rest : List UInt8) :
    ofList? n ((word.toList ++ rest).take n) = some word := by
  have htake : (word.toList ++ rest).take n = word.toList := List.take_left' word.length_eq
  simp only [htake, ofList?, word.length_eq, dif_pos]

theorem Bytes.isSome_ofList?_take (data : List UInt8) :
    (ofList? n (data.take n)).isSome ↔ n ≤ data.length := by
  have hlength : (data.take n).length = n ↔ n ≤ data.length := by
    rw [List.length_take]
    omega
  rw [ofList?]
  split
  · next h => exact iff_of_true rfl (hlength.mp h)
  · next h => exact iff_of_false Bool.false_ne_true fun hle => h (hlength.mpr hle)

/-! ### Parameters -/

namespace EventParameter

/-- The values are read back, whatever follows the words of the data. -/
theorem decode?_encode (ps : List EventParameter) (values : Values ps) (rest : List UInt8) :
    decode? ps (encode ps values).1 ((encode ps values).2.flatMap (·.toList) ++ rest)
      = some values := by
  induction ps with
  | nil => rfl
  | cons p ps ih =>
    obtain ⟨value, values⟩ := values
    obtain ⟨type, isIndexed⟩ := p
    cases isIndexed with
    | true =>
      rw [encode, decode?, ih, type.ofWord_toWord]
      rfl
    | false =>
      have hdrop (word : Hash) (bytes : List UInt8) : (word.toList ++ bytes).drop 32 = bytes :=
        List.drop_left' word.length_eq
      rw [encode, decode?, List.flatMap_cons, List.append_assoc, Bytes.ofList?_take, hdrop,
        Option.bind_some, ih, type.ofWord_toWord]
      rfl

/-- Values are read if there is a topic for each indexed parameter, and no other, and a word for
each of the other parameters. -/
theorem decode?_isSome_iff (ps : List EventParameter) (topics : List Hash) (data : List UInt8) :
    (decode? ps topics data).isSome ↔
      topics.length = ps.countP (·.isIndexed) ∧
        32 * ps.countP (fun p => !p.isIndexed) ≤ data.length := by
  induction ps generalizing topics data with
  | nil => cases topics <;> simp [decode?]
  | cons p ps ih =>
    obtain ⟨type, isIndexed⟩ := p
    cases isIndexed with
    | true =>
      cases topics with
      | nil => simp [decode?]
      | cons word topics => simp [decode?, ih]
    | false =>
      have hword := Bytes.isSome_ofList?_take (n := 32) data
      cases h : Bytes.ofList? 32 (data.take 32) with
      | none =>
        rw [h] at hword
        simp [decode?, h] at *
        omega
      | some word =>
        rw [h] at hword
        simp [decode?, h, ih] at *
        omega

end EventParameter

namespace EventDeclaration

/-- An event is read back from the topics and the data it is logged with. -/
theorem decode?_encode (d : EventDeclaration) (values : d.Values) :
    d.decode? (d.encode values).1 (d.encode values).2 = some values := by
  have hdecode := EventParameter.decode?_encode d.parameters values []
  rw [List.append_nil] at hdecode
  rw [encode, decode?, if_pos rfl, hdecode]

theorem decode?_isSome_iff (d : EventDeclaration) (topics : List Hash) (data : List UInt8) :
    (d.decode? topics data).isSome ↔
      topics.head? = some d.topic ∧ topics.length = d.parameters.countP (·.isIndexed) + 1 ∧
        32 * d.parameters.countP (fun p => !p.isIndexed) ≤ data.length := by
  cases topics with
  | nil => simp [decode?]
  | cons signature topics =>
    rw [decode?]
    split
    · next h => simp [h, EventParameter.decode?_isSome_iff]
    · next h => simp [h]

end EventDeclaration

/-! ### Transfers -/

namespace TransferEvent

theorem encode_eq (e : TransferEvent) :
    e.encode = ([topic, e.sender.toTopic, e.recipient.toTopic], wordBytes e.amount) := by
  have hdata : e.encode.2 = wordBytes e.amount ++ [] := rfl
  exact Prod.ext rfl (hdata.trans (List.append_nil _))

/-- An event is read back from the topics and the data it is logged with. -/
theorem decode?_encode (e : TransferEvent) : decode? e.encode.1 e.encode.2 = some e := by
  rw [decode?, encode, EventDeclaration.decode?_encode]
  rfl

theorem decode?_of_length (sender recipient : Hash) (h : 32 ≤ data.length) :
    decode? [topic, sender, recipient] data
      = some ⟨.ofTopic sender, .ofTopic recipient, wordOfBytes data⟩ := by
  have hword : Bytes.ofList? 32 (data.take 32) = some ⟨data.take 32, List.length_take_of_le h⟩ :=
    dif_pos (List.length_take_of_le h)
  have hparameters : declaration.decode? [topic, sender, recipient] data
      = EventParameter.decode? declaration.parameters [sender, recipient] data := if_pos rfl
  rw [decode?, hparameters]
  simp only [declaration, EventParameter.decode?, hword, Option.bind_some, Option.map_some]
  exact congrArg (fun amount => some (mk (.ofTopic sender) (.ofTopic recipient) amount))
    (wordOfBytes_take data)

/-- What a log is whose event is read, and what is read. -/
theorem decode?_eq_some_iff {topics : List Hash} {e : TransferEvent} :
    decode? topics data = some e ↔ ∃ sender recipient, topics = [topic, sender, recipient] ∧
      32 ≤ data.length ∧ e = ⟨.ofTopic sender, .ofTopic recipient, wordOfBytes data⟩ := by
  constructor
  · intro h
    obtain ⟨values, hvalues, -⟩ := Option.map_eq_some_iff.mp h
    obtain ⟨hhead, htopics, hdata⟩ :=
      (declaration.decode?_isSome_iff topics data).mp (Option.isSome_of_eq_some hvalues)
    obtain ⟨signature, sender, recipient, rfl⟩ := List.length_eq_three.mp htopics
    obtain rfl : signature = topic := Option.some.inj hhead
    have hlength : 32 ≤ data.length := hdata
    rw [decode?_of_length sender recipient hlength] at h
    exact ⟨sender, recipient, rfl, hlength, (Option.some.inj h).symm⟩
  · rintro ⟨sender, recipient, rfl, hlength, rfl⟩
    exact decode?_of_length sender recipient hlength

end TransferEvent

end ChainIngest
