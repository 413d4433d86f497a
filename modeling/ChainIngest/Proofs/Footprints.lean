import ChainIngest.Scraper
import ChainIngest.Proofs.Interference

/-! What a scan asks, and on which answers it depends. Two scans that are given the same answers
go the same way, even if a record is new to the one and not to the other: that is only counted, and
told. Without a call that fails a scan has no fault. -/

namespace ChainIngest

namespace Engine

/-- Answers that differ at most in whether a record was new. -/
def Concur : (q : Query) → Answer q → Answer q → Prop
  | .insertTransfer _, a, b => a.map (fun _ => ()) = b.map fun _ => ()
  | _, a, b => a = b

/-- The answer of a call that has failed. -/
def Failed (q : Query) (a : Answer q) : Prop := ∃ fault, failure? q fault = some a

theorem Concur.refl (q : Query) (a : Answer q) : Concur q a a := by
  cases q <;> exact Eq.refl _

end Engine

open Engine (Concur Failed)

/-- Results that are alike as `R` says, or the same fault if there may be one. -/
def ResultsAlike (mayFault : Prop) (R : α → β → Prop) : Except Fault α → Except Fault β → Prop
  | .ok a, .ok b => R a b
  | .error fault, .error fault' => fault = fault' ∧ mayFault
  | _, _ => False

namespace ResultsAlike

variable {mayFault : Prop}

theorem of_eq {a b : Except Fault α} (h : a = b) (hfault : ∀ fault, a = .error fault → mayFault) :
    ResultsAlike mayFault Eq a b := by
  subst h
  cases a with
  | error fault => exact ⟨rfl, hfault fault rfl⟩
  | ok value => exact Eq.refl value

theorem of_map_eq {a b : Except Fault α} (h : a.map (fun _ => ()) = b.map fun _ => ())
    (hfault : ∀ fault, a = .error fault → mayFault) :
    ResultsAlike mayFault (fun _ _ => True) a b := by
  cases a with
  | error fault =>
    cases b with
    | error fault' => exact ⟨Except.error.inj h, hfault fault rfl⟩
    | ok value => cases h
  | ok value =>
    cases b with
    | error fault => cases h
    | ok value' => exact trivial

theorem isOk {R : α → β → Prop} {a : Except Fault α} {b : Except Fault β}
    (H : ResultsAlike False R a b) : ∃ value, a = .ok value := by
  cases a with
  | error fault =>
    cases b with
    | error fault' => exact absurd H.2 id
    | ok value => exact absurd H id
  | ok value => exact ⟨value, rfl⟩

end ResultsAlike

/-- Two programs ask the same queries in `Q` as long as they are given answers that concur, tell
what they will, and end as `R` says. Unless there may be a fault, no call fails. -/
inductive Program.Alike (Q : Engine.Query → Prop) (mayFault : Prop) (R : α → β → Prop) :
    Program Engine α → Program Engine β → Prop
  | pure : R a b → Alike Q mayFault R (.pure a) (.pure b)
  | ask : Q q → (∀ a b, Concur q a b → (Failed q a → mayFault) →
      Alike Q mayFault R (next a) (next' b)) →
      Alike Q mayFault R (.query q next) (.query q next')
  | tell {notice notice' : Notice} {next : Unit → Program Engine α}
      {next' : Unit → Program Engine β} :
      Alike Q mayFault R (next ()) (next' ()) →
      Alike Q mayFault R (.query (.tell notice) next) (.query (.tell notice') next')

namespace Program.Alike

variable {Q Q' : Engine.Query → Prop} {mayFault : Prop} {R R' : α → α → Prop}

theorem mono {p p' : Program Engine α} (H : p.Alike Q mayFault R p') (hQ : ∀ q, Q q → Q' q)
    (hR : ∀ a b, R a b → R' a b) : p.Alike Q' mayFault R' p' := by
  induction H with
  | pure h => exact .pure (hR _ _ h)
  | ask hq _ ih => exact .ask (hQ _ hq) fun a b hab hfail => ih a b hab hfail
  | tell _ ih => exact .tell ih

theorem bind {p p' : Program Engine α} {k k' : α → Program Engine β} {S : β → β → Prop}
    (H : p.Alike Q mayFault R p') (h : ∀ a b, R a b → (k a).Alike Q mayFault S (k' b)) :
    (p >>= k).Alike Q mayFault S (p' >>= k') := by
  induction H with
  | pure hab => exact h _ _ hab
  | ask hq _ ih => exact .ask hq fun a b hab hfail => ih a b hab hfail
  | tell _ ih => exact .tell ih

/-- What two programs ask alike each of them asks. -/
theorem asks {p p' : Program Engine α} (H : p.Alike Q True R p')
    (htell : ∀ notice, Q (.tell notice)) : p.Asks Q := by
  induction H with
  | pure => exact trivial
  | ask hq _ ih => exact ⟨hq, fun a => ih a a (.refl _ a) fun _ => trivial⟩
  | tell _ ih => exact ⟨htell _, fun _ => ih⟩

variable {σ : Type} {P : Pact Engine σ} {K F : σ → Prop}

theorem abides {p p' : Program Engine α} (H : p.Alike Q True R p') (hK : P.Allows Q K)
    (htell : ∀ notice, Q (.tell notice)) (hs : K s) :
    p.Abides P (fun a s' => K s' ∧ ∃ b, R a b) s := by
  induction H generalizing s with
  | pure h => exact ⟨hs, _, h⟩
  | @ask q next next' hq _ ih =>
    refine .andThen hK hq hs fun _ answer _ _ _ hs' => ?_
    exact ih answer answer (.refl q answer) (fun _ => trivial) hs'
  | tell _ ih => exact .andThen hK (htell _) hs fun _ _ _ _ _ hs' => ih hs'

/-- A program that has no fault unless a call fails ends without a fault, or with `F`, which holds
once a call has failed. -/
theorem abides_or_failed {p p' : Program Engine α} (H : p.Alike Q False R p') (hasks : p.Asks Q)
    (hK : P.Allows Q K) (hF : P.Allows Q fun s => K s ∧ F s)
    (hfails : ∀ {s q answer s'}, Q q → K s → P.answers s q answer s' → Failed q answer → F s')
    (hs : K s) : p.Abides P (fun a s' => (∃ b, R a b) ∨ F s') s := by
  induction H generalizing s with
  | pure h => exact .inl ⟨_, h⟩
  | @ask q next next' hq _ ih =>
    refine .andThen hK hq hs fun s₁ answer s' hs₁ hanswer hs' => ?_
    -- After a failure it does not matter which way the program goes: `F` stays true.
    by_cases hfail : Failed q answer
    · have hF' : F s' := hfails hq hs₁ hanswer hfail
      exact ((hasks.2 answer).abides hF ⟨hs', hF'⟩).mono fun _ _ h => .inr h.2
    · exact ih answer answer (.refl q answer) (fun h => absurd h hfail) (hasks.2 answer) hs'
  | tell _ ih => exact .andThen hK hasks.1 hs fun _ _ _ _ _ hs' => ih (hasks.2 ()) hs'

/-- Runs of programs that go the same way, from states in which they are answered alike, end as `R`
says, and in states of that kind. -/
theorem runs {A : Answering Engine σ} {like : σ → σ → Prop} {p p' : Program Engine α}
    (answers : ∀ {s s' q a a' t t'}, Q q → like s s' → A s q a t → A s' q a' t' →
      Concur q a a' ∧ like t t')
    (tells : ∀ {s s' notice notice' a a' t t'}, like s s' → A s (.tell notice) a t →
      A s' (.tell notice') a' t' → like t t')
    (H : p.Alike Q True R p') (hlike : like s s') (hrun : p.Runs A s a t)
    (hrun' : p'.Runs A s' a' t') : R a a' ∧ like t t' := by
  induction H generalizing s s' with
  | pure h =>
    cases hrun
    cases hrun'
    exact ⟨h, hlike⟩
  | ask hq _ ih =>
    cases hrun with
    | query hanswer hrun =>
      cases hrun' with
      | query hanswer' hrun' =>
        obtain ⟨hconcur, hlike'⟩ := answers hq hlike hanswer hanswer'
        exact ih _ _ hconcur (fun _ => trivial) hlike' hrun hrun'
  | tell _ ih =>
    cases hrun with
    | query hanswer hrun =>
      cases hrun' with
      | query hanswer' hrun' => exact ih (tells hlike hanswer hanswer') hrun hrun'

end Program.Alike

theorem Program.Alike.guarded {Q : Engine.Query → Prop} {mayFault : Prop} {R : α → α → Prop}
    {guard : Guard} {p p' : Program Engine α} (hacquire : Q (.acquire guard))
    (hrelease : Q (.release guard)) (H : p.Alike Q mayFault R p') :
    (Engine.guarded guard p).Alike Q mayFault R (Engine.guarded guard p') :=
  .ask hacquire fun _ _ _ _ => H.bind fun _ _ h => .ask hrelease fun _ _ _ _ => .pure h

/-- Two actions go the same way, as programs do. -/
def Action.Alike (Q : Engine.Query → Prop) (mayFault : Prop) (R : α → α → Prop)
    (a a' : Action α) : Prop :=
  Program.Alike Q mayFault (ResultsAlike mayFault R) a.run a'.run

namespace Action.Alike

variable {Q : Engine.Query → Prop} {mayFault : Prop} {R : α → α → Prop}

theorem pure {value value' : α} (h : R value value') :
    Action.Alike Q mayFault R (Pure.pure value) (Pure.pure value') :=
  Program.Alike.pure h

theorem throw (h : mayFault) :
    Action.Alike Q mayFault R (MonadExcept.throw fault) (MonadExcept.throw fault) :=
  Program.Alike.pure ⟨rfl, h⟩

theorem bind {a a' : Action α} {k k' : α → Action β} {S : β → β → Prop}
    (H : a.Alike Q mayFault R a')
    (h : ∀ value value', R value value' → (k value).Alike Q mayFault S (k' value')) :
    (a >>= k).Alike Q mayFault S (a' >>= k') := by
  refine Program.Alike.bind H ?_
  intro result result' hresults
  cases result with
  | error fault =>
    cases result' with
    | error fault' => exact .pure hresults
    | ok value' => exact absurd hresults id
  | ok value =>
    cases result' with
    | error fault' => exact absurd hresults id
    | ok value' => exact h value value' hresults

theorem tell (notice notice' : Notice) :
    Action.Alike Q mayFault Eq (liftM (Engine.tell notice)) (liftM (Engine.tell notice')) :=
  Program.Alike.tell (Program.Alike.pure (Eq.refl ()))

theorem insertTransfer (hQ : Q (.insertTransfer t)) :
    Action.Alike Q mayFault (fun _ _ => True) (Engine.insertTransfer t)
      (Engine.insertTransfer t) :=
  .ask hQ fun _ _ hab hfail =>
    .pure (.of_map_eq hab fun fault h => hfail ⟨fault, congrArg some h.symm⟩)

theorem whitelist (hQ : Q (.whitelist chainId)) :
    Action.Alike Q mayFault Eq (Engine.whitelist chainId) (Engine.whitelist chainId) :=
  .ask hQ fun _ _ hab hfail =>
    .pure (.of_eq hab fun fault h => hfail ⟨fault, congrArg some h.symm⟩)

theorem block (hQ : Q (.block node number)) :
    Action.Alike Q mayFault Eq (Engine.block node number) (Engine.block node number) :=
  .ask hQ fun _ _ hab hfail =>
    .pure (.of_eq hab fun fault h => hfail ⟨fault, congrArg some h.symm⟩)

theorem blockTime (hQ : Q (.blockTime node number)) :
    Action.Alike Q mayFault Eq (Engine.blockTime node number) (Engine.blockTime node number) :=
  .ask hQ fun _ _ hab hfail =>
    .pure (.of_eq hab fun fault h => hfail ⟨fault, congrArg some h.symm⟩)

theorem transferLogs (hQ : Q (.transferLogs node contract first last)) :
    Action.Alike Q mayFault Eq (Engine.transferLogs node contract first last)
      (Engine.transferLogs node contract first last) :=
  .ask hQ fun _ _ hab hfail =>
    .pure (.of_eq hab fun fault h => hfail ⟨fault, congrArg some h.symm⟩)

theorem headHeight (hQ : Q (.headHeight node)) :
    Action.Alike Q mayFault Eq (Engine.headHeight node) (Engine.headHeight node) :=
  .ask hQ fun _ _ hab hfail =>
    .pure (.of_eq hab fun fault h => hfail ⟨fault, congrArg some h.symm⟩)

theorem readHeight (hQ : Q (.readCheckpoint key (Number.showUInt64 initial))) :
    Action.Alike Q True Eq (Engine.readHeight key initial) (Engine.readHeight key initial) := by
  have hread : Action.Alike Q True Eq (Engine.readCheckpoint key (Number.showUInt64 initial))
      (Engine.readCheckpoint key (Number.showUInt64 initial)) :=
    .ask hQ fun _ _ hab _ => .pure (.of_eq hab fun _ _ => trivial)
  refine hread.bind ?_
  intro text _ htext
  subst htext
  cases Number.readUInt64 (Text.trim text) with
  | ok height => exact .pure rfl
  | error reason => exact .throw trivial

theorem writeHeight (hQ : Q (.writeCheckpoint key (Number.showUInt64 height))) :
    Action.Alike Q mayFault Eq (Engine.writeHeight key height) (Engine.writeHeight key height) :=
  .ask hQ fun _ _ hab hfail =>
    .pure (.of_eq hab fun fault h => hfail ⟨fault, congrArg some h.symm⟩)

end Action.Alike

/-- What is only told changes nothing. -/
theorem Surroundings.Responds.of_tell {w w' : Surroundings} {answer : Unit}
    (H : w.Responds (.tell notice) answer w') : w' = w := by
  rcases H with heq | ⟨heq, -⟩
  · exact heq
  · exact heq

/-- A checkpoint whose writing fails is left as it is. -/
theorem Surroundings.Responds.of_failed_write {w w' : Surroundings} {fault : Fault}
    (H : w.Responds (.writeCheckpoint key text) (.error fault) w') : w' = w := by
  rcases H with ⟨hok, -⟩ | ⟨heq, -⟩
  · cases hok
  · exact heq

theorem Conduct.allows_tells {C : Conduct} {K : Surroundings → Prop} (h : C.Keeps K) :
    C.pact.Allows (fun q => ∃ notice, q = .tell notice) K := by
  refine allows_pact h ?_
  intro w q answer w' hq hw hanswer
  obtain ⟨notice, rfl⟩ := hq
  exact hanswer.of_tell ▸ hw

namespace Scraper

variable {s : Scraper} {mayFault : Prop}

/-- What a scan may ask. -/
def Scans (s : Scraper) : Engine.Query → Prop
  | .insertTransfer _ | .tell _ => True
  | .whitelist chainId => chainId = s.task.chainId
  | .block node _ | .blockTime node _ | .transferLogs node _ _ _ => node = s.node
  | _ => False

/-- A scan changes nothing but the ledger. -/
theorem Scans.effect {w w' : Surroundings} {q : Engine.Query} {answer : Engine.Answer q}
    (H : s.Scans q) (hanswer : w.Responds q answer w') :
    w' = w ∨ ∃ t, w' = w.withLedger (w.store.ledger.insert t).2 := by
  rcases hanswer with hanswer | ⟨heq, -⟩
  · cases q with
    | insertTransfer t => exact .inr ⟨t, hanswer.2⟩
    | tell notice => exact .inl hanswer
    | whitelist | block | blockTime | transferLogs => exact .inl hanswer.2
    | _ => exact absurd H id
  · exact .inl heq

/-- A scan keeps what others keep and what one more record in the ledger keeps. -/
theorem allows_scans {C : Conduct} {K : Surroundings → Prop} (h : C.Keeps K)
    (insert : ∀ {w : Surroundings} (t : Transfer), K w →
      K (w.withLedger (w.store.ledger.insert t).2)) : C.pact.Allows s.Scans K := by
  refine Conduct.allows_pact h ?_
  intro w q answer w' hq hw hanswer
  rcases hq.effect hanswer with rfl | ⟨t, rfl⟩
  · exact hw
  · exact insert t hw

theorem scanTransactions_alike (recipients : List Address) (block : Block)
    (txs : List Transaction) (emitted emitted' : Nat) :
    (s.scanTransactions recipients block txs emitted).Alike s.Scans mayFault (fun _ _ => True)
      (s.scanTransactions recipients block txs emitted') := by
  induction txs generalizing emitted emitted' with
  | nil => exact .pure trivial
  | cons tx rest ih =>
    rw [scanTransactions, scanTransactions]
    by_cases hto : tx.recipient.any recipients.contains
    · rw [if_pos hto, if_pos hto]
      cases tx.sender with
      | none => exact (Action.Alike.tell ..).bind fun _ _ _ => ih ..
      | some sender =>
        apply Action.Alike.bind (R := fun _ _ => True)
        · exact .insertTransfer trivial
        · exact fun _ _ _ => ih ..
    · rw [if_neg hto, if_neg hto]
      exact ih _ _

theorem scanBlocks_alike (recipients : List Address) (count : Nat) (number : UInt64)
    (emitted emitted' : Nat) :
    (s.scanBlocks recipients count number emitted).Alike s.Scans mayFault (fun _ _ => True)
      (s.scanBlocks recipients count number emitted') := by
  induction count generalizing number emitted emitted' with
  | zero => exact .pure trivial
  | succ count ih =>
    apply Action.Alike.bind (R := Eq)
    · exact .block rfl
    · intro block _ hblock
      subst hblock
      exact (scanTransactions_alike recipients block ..).bind fun _ _ _ => ih ..

theorem scanNative_alike (window : Window) :
    (s.scanNative window).Alike s.Scans mayFault (fun _ _ => True) (s.scanNative window) := by
  unfold scanNative allRecipients
  rw [bind_assoc]
  apply Action.Alike.bind (R := Eq)
  · exact .whitelist rfl
  · intro stored _ hstored
    subst hstored
    simp only [pure_bind]
    cases (s.recipients ++ stored).isEmpty with
    | true => exact (Action.Alike.tell ..).bind fun _ _ _ => .pure trivial
    | false => exact scanBlocks_alike ..

theorem logRecord?_alike (contract : Address) (log : EventLog) :
    (s.logRecord? contract log).Alike s.Scans mayFault Eq (s.logRecord? contract log) := by
  unfold logRecord? logRecordBy?
  split
  · next block index tx _ _ _ =>
    split
    · exact (Action.Alike.tell ..).bind fun _ _ _ => .pure rfl
    · next event _ =>
      cases log.timestamp with
      | some timestamp => exact .pure rfl
      | none =>
        apply Action.Alike.bind (R := Eq)
        · exact .blockTime rfl
        · exact fun _ _ htime => .pure (by rw [htime])
  · exact (Action.Alike.tell ..).bind fun _ _ _ => .pure rfl

theorem scanLogs_alike (contract : Address) (logs : List EventLog) (emitted emitted' : Nat) :
    (s.scanLogs contract logs emitted).Alike s.Scans mayFault (fun _ _ => True)
      (s.scanLogs contract logs emitted') := by
  induction logs generalizing emitted emitted' with
  | nil => exact .pure trivial
  | cons log rest ih =>
    refine (logRecord?_alike contract log).bind ?_
    intro record? _ hrecord
    subst hrecord
    cases record? with
    | none => exact ih ..
    | some record =>
      apply Action.Alike.bind (R := fun _ _ => True)
      · exact .insertTransfer trivial
      · exact fun _ _ _ => ih ..

theorem scanToken_alike (contract : Address) (window : Window) :
    (s.scanToken contract window).Alike s.Scans mayFault (fun _ _ => True)
      (s.scanToken contract window) := by
  unfold scanToken
  cases window.isInverted with
  | true => exact .pure trivial
  | false =>
    apply Action.Alike.bind (R := Eq)
    · exact .transferLogs rfl
    · intro logs _ hlogs
      subst hlogs
      exact scanLogs_alike contract logs 0 0

/-- A scan's window is determined by what it begins with; only the count of new rows depends on the
ledger. -/
theorem scanWindow_alike (lastScanned head range overlap : UInt64) :
    (s.scanWindow lastScanned head range overlap).Alike s.Scans mayFault
      (fun o o' => o.window = .compute lastScanned overlap range head ∧ o.window = o'.window)
      (s.scanWindow lastScanned head range overlap) := by
  unfold scanWindow
  cases s.task.asset with
  | native => exact (scanNative_alike _).bind fun _ _ _ => .pure ⟨rfl, rfl⟩
  | token contract => exact (scanToken_alike contract _).bind fun _ _ _ => .pure ⟨rfl, rfl⟩

theorem scanWindow_asks (lastScanned head range overlap : UInt64) :
    (s.scanWindow lastScanned head range overlap).run.Asks s.Scans :=
  Program.Alike.asks (scanWindow_alike lastScanned head range overlap) fun _ => trivial

variable {σ : Type} {P : Pact Engine σ} {K F : σ → Prop} {st : σ}

/-- A scan leaves what it does not touch, and has a fault only if a call fails. -/
theorem scanWindow_abides (hK : P.Allows s.Scans K) (hF : P.Allows s.Scans fun st => K st ∧ F st)
    (hfails : ∀ {st q answer st'}, s.Scans q → K st → P.answers st q answer st' →
      Failed q answer → F st')
    (lastScanned head range overlap : UInt64) (hst : K st) :
    (s.scanWindow lastScanned head range overlap).Abides P
      (fun o st' => o.window = .compute lastScanned overlap range head ∧ K st')
      (fun _ st' => K st' ∧ F st') st := by
  have hwindow := Program.Alike.abides (scanWindow_alike lastScanned head range overlap) hK
    (fun _ => trivial) hst
  have hfault := Program.Alike.abides_or_failed
    (scanWindow_alike lastScanned head range overlap) (scanWindow_asks ..) hK hF hfails hst
  refine .of_program (hwindow.and hfault) ?_ ?_
  · intro o st' h
    obtain ⟨⟨hK', o', halike⟩, -⟩ := h
    cases o' with
    | error fault => exact absurd halike id
    | ok o' => exact ⟨halike.1, hK'⟩
  · intro fault st' h
    obtain ⟨⟨hK', -⟩, halike | hF'⟩ := h
    · obtain ⟨o', halike⟩ := halike
      cases halike.isOk with | intro _ h => cases h
    · exact ⟨hK', hF'⟩

/-- A scan keeps what it does not touch, whether it has a fault or not. -/
theorem scanWindow_keeps (hK : P.Allows s.Scans K) (lastScanned head range overlap : UInt64)
    (hst : K st) :
    (s.scanWindow lastScanned head range overlap).Abides P
      (fun o st' => o.window = .compute lastScanned overlap range head ∧ K st') (fun _ => K)
      st := by
  have hboth : P.Allows s.Scans fun st => K st ∧ True := by simpa only [and_true] using hK
  exact (scanWindow_abides hK hboth (fun _ _ _ _ => trivial) lastScanned head range overlap
    hst).mono (fun _ _ h => h) fun _ _ h => h.1

end Scraper

end ChainIngest
