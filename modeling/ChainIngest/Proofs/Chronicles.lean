import ChainIngest.Proofs.CatchUps
import ChainIngest.Proofs.SerialTicks

/-! What a program has asked, written down beside the surroundings in the order of the asking. -/

namespace ChainIngest

/-- The record that a query is to insert. -/
def Engine.insertion? : Engine.Query → Option Transfer
  | .insertTransfer t => some t
  | _ => none

/-- The records that were to be inserted, in their order. -/
def insertions {ι : Type} (events : List (Event ι)) : List Transfer :=
  events.filterMap fun e => Engine.insertion? e.query

/-- What the reading of a checkpoint has told: its key, and the height if the text is a number. -/
def Engine.reading? : (q : Engine.Query) → Engine.Answer q → Option (String × Option UInt64)
  | .readCheckpoint key _, .ok text =>
    some (key, (Number.readUInt64 (Text.trim text)).toOption)
  | _, _ => none

/-- What checkpoints have been read as, in the order of the readings. -/
def readingsIn {ι : Type} (events : List (Event ι)) : List (String × Option UInt64) :=
  events.filterMap fun e => Engine.reading? e.query e.answer

/-- The heights that one checkpoint has been read as, in their order. -/
def heightsRead {ι : Type} (key : String) (events : List (Event ι)) : List UInt64 :=
  (readingsIn events).filterMap fun r => if r.1 = key then r.2 else none

/-- The engine has told that it is cancelled. -/
def Engine.cancels : (q : Engine.Query) → Engine.Answer q → Bool
  | .isCancelled, cancelled => cancelled
  | _, _ => false

def ToldCancelled {ι : Type} (events : List (Event ι)) : Prop :=
  ∃ e ∈ events, Engine.cancels e.query e.answer

/-- Surroundings, and what has been asked of them so far. -/
structure Chronicle where
  world : Surroundings
  events : List (Event Unit)

namespace Chronicle

/-- How many rows the ledger has. -/
def rows (st : Chronicle) : Nat := st.world.store.ledger.rows.length

/-- The chronicle after a query. -/
def after (st : Chronicle) (q : Engine.Query) (answer : Engine.Answer q) (w : Surroundings) :
    Chronicle :=
  ⟨w, st.events ++ [⟨(), q, answer, st.world, w⟩]⟩

/-- Queries are answered by the surroundings, and written down. -/
def noting (A : Answering Engine Surroundings) : Answering Engine Chronicle :=
  fun st q answer st' => A st.world q answer st'.world ∧ st' = st.after q answer st'.world

variable {A : Answering Engine Surroundings} {st st' : Chronicle}

theorem noting_after {q : Engine.Query} {answer : Engine.Answer q} {w : Surroundings}
    (h : A st.world q answer w) : noting A st q answer (st.after q answer w) := ⟨h, rfl⟩

/-- What has been written down stays. -/
theorem events_prefix {p : Program Engine α} (H : p.Runs (noting A) st value st') :
    st.events <+: st'.events := by
  induction H with
  | pure => exact List.prefix_rfl
  | query hanswer _ ih =>
    refine List.IsPrefix.trans ?_ ih
    rw [hanswer.2]
    exact List.prefix_append ..

/-- The ledger is `l`, with all that was to be inserted. -/
def Ledgers (l : Ledger) (st : Chronicle) : Prop :=
  st.world.store.ledger = l.insertAll (insertions st.events)

end Chronicle

/-- The ledger changes by the record that a query is to insert, if there is one. -/
theorem Surroundings.Answers.ledger_eq {w w' : Surroundings} {q : Engine.Query}
    {answer : Engine.Answer q} (h : w.Answers q answer w') :
    w'.store.ledger = w.store.ledger.insertAll (Engine.insertion? q).toList := by
  cases q with
  | insertTransfer | readCheckpoint | writeCheckpoint | insertSnapshot | latestSnapshot | whitelist
  | headHeight | block | blockTime | transferLogs | tokenDecimals | oracleAnswer | poolPrice
  | acquire | tryAcquire | isCancelled =>
    obtain ⟨-, rfl⟩ := h
    rfl
  | _ =>
    obtain rfl := h
    rfl

namespace Chronicle

variable {st st' : Chronicle} {l : Ledger}

theorem insertions_after (st : Chronicle) (q : Engine.Query) (answer : Engine.Answer q)
    (w : Surroundings) :
    insertions (st.after q answer w).events =
      insertions st.events ++ (Engine.insertion? q).toList := by
  cases h : Engine.insertion? q <;> simp [insertions, after, h]

theorem readingsIn_after (st : Chronicle) (q : Engine.Query) (answer : Engine.Answer q)
    (w : Surroundings) :
    readingsIn (st.after q answer w).events =
      readingsIn st.events ++ (Engine.reading? q answer).toList := by
  cases h : Engine.reading? q answer <;> simp [readingsIn, after, h]

theorem Ledgers.after {q : Engine.Query} {answer : Engine.Answer q} {w : Surroundings}
    (H : st.Ledgers l) (h : st.world.Answers q answer w) : (st.after q answer w).Ledgers l := by
  rw [Ledgers, insertions_after, Ledger.insertAll_append, ← H]
  exact h.ledger_eq

end Chronicle

/-- The answer to what a tick asks is settled by the surroundings. -/
theorem Scraper.AsksHeld.unique {s : Scraper} {q : Engine.Query} {answer answer' : Engine.Answer q}
    {w w₁ w₂ : Surroundings} (H : s.AsksHeld q) (h : w.Answers q answer w₁)
    (h' : w.Answers q answer' w₂) : answer' = answer ∧ w₂ = w₁ := by
  rcases H with ⟨key, initial, -, rfl⟩ | hscans | ⟨height, rfl⟩
  · exact ⟨h'.1.trans h.1.symm, h'.2.trans h.2.symm⟩
  · cases q with
    | insertTransfer | whitelist | block | blockTime | transferLogs =>
      exact ⟨h'.1.trans h.1.symm, h'.2.trans h.2.symm⟩
    | tell => exact ⟨rfl, Eq.trans h' (Eq.symm h)⟩
    | _ => exact absurd hscans id
  · exact ⟨h'.1.trans h.1.symm, h'.2.trans h.2.symm⟩

end ChainIngest
