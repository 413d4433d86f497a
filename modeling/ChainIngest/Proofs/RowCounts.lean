import ChainIngest.Proofs.CatchUps
import ChainIngest.Proofs.Deeds

/-! The count of new rows that a tick tells. If none of its calls fails then it is the number of
rows that the tick has added itself, whatever others add meanwhile. -/

namespace ChainIngest

open Engine (Failed)

/-- No call fails, and the state is how many rows a program has added so far. -/
def rowCount : Pact Engine Nat where
  answers n q answer n' := ¬Failed q answer ∧ n' = n + (Deeds.of q answer).added
  rely n n' := n = n'
  guar _ _ _ _ := True
  live := False
  rely_refl _ := rfl
  rely_trans := Eq.trans

theorem rowCount_stable (K : Nat → Prop) : rowCount.Stable K := by
  intro n n' hK hsame
  subst hsame
  exact hK

theorem rowCount_ask (q : Engine.Query) (n : Nat) : (Engine.ask q).Abides rowCount
    (fun answer n' => ¬Failed q answer ∧ n' = n + (Deeds.of q answer).added) n := by
  refine .ask (rowCount_stable (· = n)) rfl (fun _ _ hlive => hlive.elim) ?_
  intro n₁ answer n' hn hanswer
  subst hn
  exact ⟨trivial, hanswer⟩

/-- What is only told adds no row. -/
theorem rowCount_tell {post : Unit → Nat → Prop} {fail : Fault → Nat → Prop} {notice : Notice}
    {n : Nat} (h : post () n) :
    Action.Abides rowCount post fail (liftM (Engine.tell notice)) n := by
  refine .lift ((rowCount_ask (.tell notice) n).mono fun _ n' h' => ?_)
  obtain rfl : n' = n := h'.2
  exact h

/-- An action that counts the rows it adds, some having been counted before. -/
def Action.Counts (a : Action Nat) (before : Nat) : Prop :=
  a.Abides rowCount (fun count n => count = n) (fun _ _ => False) before

namespace Scraper

variable {s : Scraper} {n : Nat}

/-- A record is inserted, and counted if it is new. -/
theorem insertAndGoOn_counts {next : Nat → Action Nat} (hnext : ∀ n, (next n).Counts n)
    (t : Transfer) (n : Nat) : Action.Counts (do
      let added ← Engine.insertTransfer t
      next (if added then n + 1 else n)) n := by
  apply Action.Abides.bind
  refine .of_program (rowCount_ask (.insertTransfer t) n) ?_ fun fault _ h => h.1 ⟨fault, rfl⟩
  intro added n' h
  have hcount : n' = if added then n + 1 else n := by
    rw [h.2]
    cases added <;> rfl
  rw [← hcount]
  exact hnext n'

theorem scanTransactions_counts (recipients : List Address) (block : Block)
    (txs : List Transaction) (n : Nat) :
    (s.scanTransactions recipients block txs n).Counts n := by
  induction txs generalizing n with
  | nil => exact .pure rfl
  | cons tx rest ih =>
    rw [scanTransactions]
    by_cases hto : tx.recipient.any recipients.contains
    · rw [if_pos hto]
      cases tx.sender with
      | none =>
        apply Action.Abides.bind
        exact rowCount_tell (ih n)
      | some sender => exact insertAndGoOn_counts ih _ n
    · rw [if_neg hto]
      exact ih n

theorem scanBlocks_counts (recipients : List Address) (count : Nat) (number : UInt64) (n : Nat) :
    (s.scanBlocks recipients count number n).Counts n := by
  induction count generalizing number n with
  | zero => exact .pure rfl
  | succ count ih =>
    rw [scanBlocks]
    apply Action.Abides.bind
    refine .of_program (rowCount_ask (.block s.node number) n) ?_ fun fault _ h => h.1 ⟨fault, rfl⟩
    intro block n' h
    obtain rfl : n' = n := h.2
    apply Action.Abides.bind
    refine (scanTransactions_counts recipients block block.transactions n').mono ?_
      fun _ _ => False.elim
    intro count' n'' hcount
    subst hcount
    exact ih _ _

theorem scanNative_counts (window : Window) : (s.scanNative window).Counts 0 := by
  unfold scanNative allRecipients
  rw [bind_assoc]
  apply Action.Abides.bind
  refine .of_program (rowCount_ask (.whitelist s.task.chainId) 0) ?_
    fun fault _ h => h.1 ⟨fault, rfl⟩
  intro stored n h
  obtain rfl : n = 0 := h.2
  simp only [pure_bind]
  cases (s.recipients ++ stored).isEmpty with
  | true =>
    apply Action.Abides.bind
    exact rowCount_tell (.pure rfl)
  | false => exact scanBlocks_counts ..

theorem logRecord?_counts (contract : Address) (log : EventLog) (n : Nat) :
    (s.logRecord? contract log).Abides rowCount (fun _ n' => n' = n) (fun _ _ => False) n := by
  unfold logRecord? logRecordBy?
  split
  · next block index tx _ _ _ =>
    split
    · apply Action.Abides.bind
      exact rowCount_tell (.pure rfl)
    · next event _ =>
      cases log.timestamp with
      | some timestamp => exact .pure rfl
      | none =>
        apply Action.Abides.bind
        refine .of_program (rowCount_ask (.blockTime s.node block) n) ?_
          fun fault _ h => h.1 ⟨fault, rfl⟩
        exact fun timestamp n' h => .pure h.2
  · apply Action.Abides.bind
    exact rowCount_tell (.pure rfl)

theorem scanLogs_counts (contract : Address) (logs : List EventLog) (n : Nat) :
    (s.scanLogs contract logs n).Counts n := by
  induction logs generalizing n with
  | nil => exact .pure rfl
  | cons log rest ih =>
    rw [scanLogs]
    apply Action.Abides.bind
    refine (logRecord?_counts contract log n).mono ?_ fun _ _ => False.elim
    intro record? n' hsame
    subst hsame
    cases record? with
    | none => exact ih n'
    | some record => exact insertAndGoOn_counts ih record n'

theorem scanToken_counts (contract : Address) (window : Window) :
    (s.scanToken contract window).Counts 0 := by
  unfold scanToken
  cases window.isInverted with
  | true => exact .pure rfl
  | false =>
    apply Action.Abides.bind
    refine .of_program (rowCount_ask (.transferLogs s.node contract window.first window.last) 0) ?_
      fun fault _ h => h.1 ⟨fault, rfl⟩
    intro logs n h
    obtain rfl : n = 0 := h.2
    exact scanLogs_counts contract logs 0

theorem scanWindow_counts (lastScanned head range overlap : UInt64) :
    (s.scanWindow lastScanned head range overlap).Abides rowCount (fun o n => o.emitted = n)
      (fun _ _ => False) 0 := by
  unfold scanWindow
  cases s.task.asset with
  | native =>
    apply Action.Abides.bind
    exact (scanNative_counts _).mono (fun _ _ h => .pure h) fun _ _ h => h
  | token contract =>
    apply Action.Abides.bind
    exact (scanToken_counts contract _).mono (fun _ _ h => .pure h) fun _ _ h => h

/-- Reading a checkpoint adds no row. The text may be no number. -/
theorem readHeight_counts (key : String) (initial : UInt64) (n : Nat) :
    (Engine.readHeight key initial).Abides rowCount (fun _ n' => n' = n) (fun _ n' => n' = n)
      n := by
  unfold Engine.readHeight
  apply Action.Abides.bind
  refine .of_program (rowCount_ask (.readCheckpoint key (Number.showUInt64 initial)) n) ?_
    fun fault _ h => absurd ⟨fault, rfl⟩ h.1
  intro text n' h
  cases Number.readUInt64 (Text.trim text) with
  | ok height => exact .pure h.2
  | error reason => exact .throw h.2

theorem readPlan_counts :
    s.readPlan.Abides rowCount (fun _ n => n = 0) (fun _ n => n = 0) 0 := by
  have hread {k : UInt64 → Action Plan} {key : String} {initial : UInt64}
      (hk : ∀ height, (k height).Abides rowCount (fun _ n => n = 0) (fun _ n => n = 0) 0) :
      (Engine.readHeight key initial >>= k).Abides rowCount (fun _ n => n = 0) (fun _ n => n = 0)
        0 := by
    apply Action.Abides.bind
    refine (readHeight_counts key initial 0).mono ?_ fun _ _ h => h
    intro height n hn
    subst hn
    exact hk height
  unfold readPlan
  refine hread fun range => ?_
  split
  · apply Action.Abides.bind
    exact .throw rfl
  · exact hread fun overlap => hread fun lastScanned => hread fun head => .pure rfl

theorem advance_counts {p : Plan} {o : ScanOutcome} :
    (s.advance p o).Abides rowCount (fun o' n' => o'.emitted = o.emitted ∧ n' = n)
      (fun _ _ => False) n := by
  have htell : Action.Abides rowCount (fun o' n' => o'.emitted = o.emitted ∧ n' = n)
      (fun _ _ => False) (do
        Engine.tell (.scanned s.task.label o.window.first o.window.last o.emitted (p.next o))
        return p.outcome o) n := by
    apply Action.Abides.bind
    exact rowCount_tell (.pure ⟨rfl, rfl⟩)
  unfold advance
  split
  · apply Action.Abides.bind
    refine .of_program (rowCount_ask (.writeCheckpoint _ _) n) ?_ fun fault _ h => h.1 ⟨fault, rfl⟩
    intro _ n' h
    obtain rfl : n' = n := h.2
    exact htell
  · exact htell

/-- A tick tells how many rows it has added. One that stops has added none: without a call that
fails it stops before it scans. -/
def CountsRows : Except Fault TickOutcome → Nat → Prop
  | .ok o, n => o.emitted = n
  | .error _, n => n = 0

theorem tickHeld_counts : s.tickHeld.run.Abides rowCount CountsRows 0 := by
  apply Action.Abides.of_results
  rw [tickHeld_eq]
  apply Action.Abides.bind
  refine readPlan_counts.mono ?_ fun _ _ h => h
  intro p n hn
  subst hn
  apply Action.Abides.bind
  refine (scanWindow_counts ..).mono ?_ fun _ _ => False.elim
  intro o n hn
  refine advance_counts.mono ?_ fun _ _ => False.elim
  exact fun o' n' h => h.1.trans (hn.trans h.2.symm)

theorem tick_counts : s.tick.run.Abides rowCount CountsRows 0 := by
  refine .guarded CountsRows (rowCount_stable (· = 0)) rfl ?answered ?body
    (fun _ => rowCount_stable _) ?answeredMid ?release
  case answered => exact fun _ _ hlive => hlive.elim
  case answeredMid => exact fun _ _ _ hlive => hlive.elim
  case body =>
    intro n n' hn hacquired
    obtain rfl : n' = n := hacquired.2
    subst hn
    exact ⟨trivial, tickHeld_counts⟩
  case release =>
    intro result n n' hcounts hreleased
    obtain rfl : n' = n := hreleased.2
    exact ⟨trivial, hcounts⟩

end Scraper

/-- While no call is to fail, the rows that a party adds are counted however others go on. -/
theorem Party.runs_rowCount {p : Party} {F : Outages} {prog : Program Engine α} {st st' : Noted}
    (hF : ∀ i n q, F i n q = none) (hrun : prog.Runs (p.notedPact F).among st value st') :
    prog.Runs rowCount.among (st.deeds p.caller).added value (st'.deeds p.caller).added := by
  refine hrun.image (fun st => (st.deeds p.caller).added) fun s q answer s' h => ?_
  obtain ⟨s₁, hrely, hnotes⟩ := h
  have hbefore : s.deeds p.caller = s₁.deeds p.caller := (agree_noting_iff.mp hrely).2
  have hafter := Outages.deeds_of_notes hnotes
  refine ⟨(s₁.deeds p.caller).added, congrArg Deeds.added hbefore, ?_, ?_⟩
  · rcases hnotes.1 with ⟨hfailure, -⟩ | ⟨-, w, hanswer, -⟩
    · simp [Outages.failure?, hF] at hfailure
    · exact hanswer.not_failed
  · exact (congrArg Deeds.added hafter).trans (Nat.add_comm ..)

end ChainIngest
