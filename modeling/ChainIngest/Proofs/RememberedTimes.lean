import Mathlib.Data.List.Basic
import ChainIngest.Rpc.Client
import ChainIngest.Proofs.HexTexts
import ChainIngest.Proofs.Semantics

/-! The times of blocks that a client remembers. What is remembered may be forgotten at any moment;
however calls succeed and fail, a time that is recalled is the time that the node would give
(`Rpc.remembered_times_agree`). -/

namespace ChainIngest

namespace Program.Ensures

variable {I : Interface} {σ ε α β : Type} {A : Answering I σ}

theorem tryAsk {q : I.Query} {next : I.Answer q → ExceptT ε (Program I) β}
    {post : Except ε β → σ → Prop} (hex : ∃ answer s', A s q answer s')
    (h : ∀ answer s', A s q answer s' → (next answer).run.Ensures A post s') :
    (ExceptT.lift (ask q) >>= next).run.Ensures A post s :=
  ⟨hex, h⟩

theorem tryBind {first : ExceptT ε (Program I) α} {next : α → ExceptT ε (Program I) β}
    {post : Except ε β → σ → Prop}
    (H : first.run.Ensures A (fun
      | .ok value, s' => (next value).run.Ensures A post s'
      | .error error, s' => post (.error error) s') s) :
    (first >>= next).run.Ensures A post s := by
  refine bind (H.mono fun result s' h => ?_)
  cases result with
  | ok value => exact h
  | error error => exact h

end Program.Ensures

namespace Rpc

/-- How a client asks for a block. -/
def blockRequest (number : UInt64) (full : Bool) : Request :=
  ⟨"eth_getBlockByNumber", some (.list [quantity number.toNat, .bool full])⟩

/-- A node that gives the same time for a block whenever it gives one. -/
structure SteadyNode where
  time : UInt64 → UInt64
  /-- The results that a request may have. Any request may also fail. -/
  Replies : Request → Document → Prop
  steady : Replies (blockRequest number full) d → nodeBlock? d = some block →
    block.timestamp = time number

/-- What happens to the times that a client remembers, and the requests that it sends. -/
inductive TimeEvent where
  | sent (r : Request)
  | remembered (number time : UInt64)
  | forgotten (number : UInt64)

namespace TimeEvent

/-- The remembered time of a block after one more event. -/
def next (number : UInt64) (time : Option UInt64) : TimeEvent → Option UInt64
  | .sent _ => time
  | .remembered n t => if n = number then some t else time
  | .forgotten n => if n = number then none else time

/-- The remembered time of a block: the last one that has been remembered and not forgotten. -/
def lastTime (number : UInt64) (log : List TimeEvent) : Option UInt64 :=
  log.foldl (next number) none

/-- Events by which nothing happens but that times are forgotten. -/
def Forgetting (events : List TimeEvent) : Prop := ∀ e ∈ events, ∃ n, e = .forgotten n

theorem Forgetting.append (H : Forgetting events) (H' : Forgetting events') :
    Forgetting (events ++ events') := fun e he =>
  (List.mem_append.mp he).elim (H e) (H' e)

theorem Forgetting.not_sent (H : Forgetting events) : .sent r ∉ events :=
  fun h => nomatch H _ h

theorem Forgetting.not_remembered (H : Forgetting events) : .remembered n t ∉ events :=
  fun h => nomatch H _ h

theorem of_next_eq_some (h : next n time e = some t) : time = some t ∨ e = .remembered n t := by
  cases e with
  | sent r => exact .inl h
  | remembered m u =>
    rw [next] at h
    split at h
    · next hm => exact .inr (hm ▸ Option.some.inj h ▸ rfl)
    · exact .inl h
  | forgotten m =>
    rw [next] at h
    split at h
    · cases h
    · exact .inl h

theorem of_next_eq_none (h : next n time e = none) : time = none ∨ e = .forgotten n := by
  cases e with
  | sent r => exact .inl h
  | remembered m u =>
    rw [next] at h
    split at h
    · cases h
    · exact .inl h
  | forgotten m =>
    rw [next] at h
    split at h
    · next hm => exact .inr (hm ▸ rfl)
    · exact .inl h

/-- A time that is remembered after more events has been remembered before, or in them. -/
theorem of_foldl_eq_some {events : List TimeEvent} (h : events.foldl (next n) time = some t) :
    time = some t ∨ .remembered n t ∈ events := by
  induction events generalizing time with
  | nil => exact .inl h
  | cons e rest ih =>
    rcases ih h with hnext | hmem
    · exact (of_next_eq_some hnext).imp_right fun (he : e = _) => he ▸ List.mem_cons_self
    · exact .inr (List.mem_cons_of_mem _ hmem)

/-- A time that is not remembered after more events has not been remembered before, or has been
forgotten in them. -/
theorem of_foldl_eq_none {events : List TimeEvent} (h : events.foldl (next n) time = none) :
    time = none ∨ .forgotten n ∈ events := by
  induction events generalizing time with
  | nil => exact .inl h
  | cons e rest ih =>
    rcases ih h with hnext | hmem
    · exact (of_next_eq_none hnext).imp_right fun (he : e = _) => he ▸ List.mem_cons_self
    · exact .inr (List.mem_cons_of_mem _ hmem)

theorem lastTime_append (n : UInt64) (log events : List TimeEvent) :
    lastTime n (log ++ events) = events.foldl (next n) (lastTime n log) := List.foldl_append

theorem mem_of_lastTime (h : lastTime n log = some t) : .remembered n t ∈ log :=
  (of_foldl_eq_some h).resolve_left nofun

theorem lastTime_append_remembered : lastTime n (log ++ [.remembered n t]) = some t := by
  simp [lastTime, next]

/-- Without a time being remembered, no other time is recalled than before. -/
theorem lastTime_of_append (h : lastTime n (log ++ events) = some t)
    (hnot : .remembered n t ∉ events) : lastTime n log = some t :=
  (of_foldl_eq_some (lastTime_append .. ▸ h)).resolve_right hnot

/-- A time that is no longer remembered has been forgotten. -/
theorem forgotten_of_lastTime (h : lastTime n (log ++ events) = none)
    (hlog : lastTime n log = some t) : .forgotten n ∈ events := by
  refine (of_foldl_eq_none (lastTime_append .. ▸ h)).resolve_left fun hnone => ?_
  exact nomatch hlog.symm.trans hnone

theorem Forgetting.lastTime_eq_none (H : Forgetting events) (h : lastTime n log = none) :
    lastTime n (log ++ events) = none := by
  cases hafter : lastTime n (log ++ events) with
  | none => rfl
  | some t => exact nomatch h.symm.trans (lastTime_of_append hafter H.not_remembered)

end TimeEvent

open TimeEvent (lastTime Forgetting)

/-- A node, and the memory for the times of a chain's blocks. A lookup gives the time that has been
remembered last, or nothing: it may have been forgotten at any moment up to then. -/
def SteadyNode.answering (node : SteadyNode) (chain : String) :
    Answering Network (List TimeEvent)
  | log, .request _ r, answer, log' => ∃ quiet, Forgetting quiet ∧
    log' = log ++ quiet ++ [.sent r] ∧ ∀ d, answer = .ok d → node.Replies r d
  | log, .recallTime chain' number, answer, log' => ∃ quiet, Forgetting quiet ∧
    log' = log ++ quiet ∧ (chain' = chain → answer = lastTime number log')
  | log, .rememberTime chain' number time, _, log' => ∃ quiet, Forgetting quiet ∧
    log' = log ++ quiet ++ if chain' = chain then [.remembered number time] else []
  | log, _, _, log' => ∃ quiet, Forgetting quiet ∧ log' = log ++ quiet

/-! ### Calls -/

/-- A call that tells when a block was made. -/
inductive TimeCall where
  /-- The block with its transactions. -/
  | block (number : UInt64)
  | time (number : UInt64)
  deriving DecidableEq, Repr

variable {node : SteadyNode} {c : Client} {log : List TimeEvent}

namespace TimeCall

def number : TimeCall → UInt64
  | .block number | .time number => number

/-- What a call runs, up to the time of the block. -/
def run (c : Client) : TimeCall → Call UInt64
  | .block number => do return (← c.block number).timestamp
  | .time number => c.blockTime number

/-- Whether a call asks the node: for a time alone, it does so only if nothing is recalled. -/
def Asks (log : List TimeEvent) : TimeCall → Prop
  | .block _ => True
  | .time number => lastTime number log = none

/-- What a call may come to: the time is recalled, or the node is asked, and then the time is
remembered unless the call fails. -/
inductive Outcome (node : SteadyNode) (log : List TimeEvent) :
    TimeCall → Except CallError UInt64 → List TimeEvent → Prop
  | recalled {n t : UInt64} : Forgetting quiet → lastTime n (log ++ quiet) = some t →
    Outcome node log (.time n) (.ok t) (log ++ quiet)
  | failed {call : TimeCall} : Forgetting quiet → call.Asks (log ++ quiet) →
    Outcome node log call (.error error) (log ++ quiet ++ [.sent r])
  | fetched {call : TimeCall} : Forgetting quiet → call.Asks (log ++ quiet) → Forgetting quiet' →
    Outcome node log call (.ok (node.time call.number)) (log ++ quiet ++ [.sent r] ++ quiet' ++
      [.remembered call.number (node.time call.number)])

theorem Outcome.of_quiet {call : TimeCall} (H : call.Outcome node (log ++ quiet) result log')
    (hquiet : Forgetting quiet) : call.Outcome node log result log' := by
  generalize hstart : log ++ quiet = start at H
  cases H with
  | recalled hmore htime =>
    subst hstart
    rw [List.append_assoc] at htime ⊢
    exact .recalled (hquiet.append hmore) htime
  | failed hmore hasks =>
    subst hstart
    rw [List.append_assoc log] at hasks ⊢
    exact .failed (hquiet.append hmore) hasks
  | fetched hmore hasks hrest =>
    subst hstart
    rw [List.append_assoc log] at hasks ⊢
    exact .fetched (hquiet.append hmore) hasks hrest

/-- A call only adds to what has happened. -/
theorem Outcome.log_le {call : TimeCall} (H : call.Outcome node log result log') :
    log <+: log' := by
  cases H with
  | recalled => exact List.prefix_append ..
  | failed | fetched => simp only [List.append_assoc, List.prefix_append]

/-- A time that is remembered is one that has been, or the node's. -/
theorem Outcome.of_remembered {call : TimeCall} (H : call.Outcome node log result log')
    (h : .remembered n t ∈ log') : .remembered n t ∈ log ∨ t = node.time n := by
  cases H with
  | recalled hquiet => exact .inl ((List.mem_append.mp h).resolve_right hquiet.not_remembered)
  | failed hquiet => exact .inl (by simpa [hquiet.not_remembered] using h)
  | fetched hquiet _ hrest =>
    have h : .remembered n t ∈ log ∨ n = call.number ∧ t = node.time call.number := by
      simpa [hquiet.not_remembered, hrest.not_remembered] using h
    exact h.imp_right fun ⟨hn, ht⟩ => hn ▸ ht

/-- A call that succeeds leaves its result remembered. -/
theorem Outcome.lastTime_of_ok {call : TimeCall} (H : call.Outcome node log (.ok t) log') :
    lastTime call.number log' = some t := by
  cases H with
  | recalled _ hlast => exact hlast
  | fetched => exact TimeEvent.lastTime_append_remembered

/-- A call that fails leaves no time remembered that has not been. -/
theorem Outcome.lastTime_of_error {call : TimeCall} (H : call.Outcome node log (.error e) log')
    (h : lastTime n log' = some t) : lastTime n log = some t := by
  cases H with
  | failed hquiet =>
    rw [List.append_assoc] at h
    exact TimeEvent.lastTime_of_append h (by simp [hquiet.not_remembered])

/-- A call for a time alone sends a request only if nothing is recalled at that moment. -/
theorem Outcome.lastTime_of_sent (H : (time n).Outcome node log result log')
    (h : log' = log ++ (before ++ .sent r :: after)) : lastTime n (log ++ before) = none := by
  have hsplit {quiet rest} {r' : Request} (hquiet : Forgetting quiet) (hrest : .sent r ∉ rest)
      (heq : quiet ++ .sent r' :: rest = before ++ .sent r :: after) : quiet = before :=
    (List.append_cons_inj_of_notMem hquiet.not_sent hrest).mp heq |>.1
  cases H with
  | recalled hquiet =>
    have hmem : .sent r ∈ before ++ .sent r :: after := by simp
    exact absurd (List.append_cancel_left h ▸ hmem) hquiet.not_sent
  | failed hquiet hasks =>
    rw [List.append_assoc] at h
    exact hsplit hquiet List.not_mem_nil (List.append_cancel_left h) ▸ hasks
  | fetched hquiet hasks hrest =>
    simp only [List.append_assoc, List.append_cancel_left_eq, List.singleton_append] at h
    exact hsplit hquiet (by simp [hrest.not_sent]) h ▸ hasks

end TimeCall

theorem Client.request_ensures {call : String} {r : Request} {read : Document → Option α}
    {post : Except CallError α → List TimeEvent → Prop}
    (failed : ∀ error quiet, Forgetting quiet → post (.error error) (log ++ quiet ++ [.sent r]))
    (ok : ∀ d value quiet, node.Replies r d → read d = some value → Forgetting quiet →
      post (.ok value) (log ++ quiet ++ [.sent r])) :
    (c.request call r read).run.Ensures (node.answering c.chain) post log := by
  refine .tryAsk ⟨.error .timedOut, _, [], nofun, rfl, nofun⟩ ?_
  rintro answer _ ⟨quiet, hquiet, rfl, hreply⟩
  match answer with
  | .error .timedOut | .error .refused | .error (.rejected ..) | .error .unreadable =>
    exact failed _ quiet hquiet
  | .ok d =>
    cases hread : read d with
    | none =>
      simp only [hread]
      exact failed _ quiet hquiet
    | some value =>
      simp only [hread]
      exact ok d value quiet (hreply d rfl) hread hquiet

/-- A block is asked for once. Its time is remembered if the call succeeds, and is the node's. -/
theorem Client.fetchBlock_ensures {number : UInt64} {full : Bool}
    {accept : NodeBlock → Except CallError α}
    {post : Except CallError (NodeBlock × α) → List TimeEvent → Prop}
    (failed : ∀ error quiet, Forgetting quiet →
      post (.error error) (log ++ quiet ++ [.sent (blockRequest number full)]))
    (ok : ∀ block value quiet quiet', Forgetting quiet → Forgetting quiet' →
      block.timestamp = node.time number → post (.ok (block, value))
        (log ++ quiet ++ [.sent (blockRequest number full)] ++ quiet' ++
          [.remembered number (node.time number)])) :
    (c.fetchBlock number full accept).run.Ensures (node.answering c.chain) post log := by
  refine .tryBind (Client.request_ensures failed ?_)
  intro d value quiet hreply hread hquiet
  cases value with
  | none => exact failed _ quiet hquiet
  | some block =>
    have hblock : nodeBlock? d = some block := by
      cases d with
      | null => cases hread
      | _ => simpa [optional] using hread
    have htime := node.steady hreply hblock
    cases haccept : accept block with
    | error error =>
      simp only [haccept]
      exact failed error quiet hquiet
    | ok value =>
      simp only [haccept]
      refine .tryAsk ⟨(), _, [], nofun, rfl⟩ ?_
      rintro _ _ ⟨quiet', hquiet', rfl⟩
      rw [if_pos rfl, htime]
      exact ok block value quiet quiet' hquiet hquiet' htime

theorem TimeCall.run_ensures (call : TimeCall) :
    (call.run c).run.Ensures (node.answering c.chain) (call.Outcome node log) log := by
  cases call with
  | block number =>
    refine .tryBind (.tryBind (Client.fetchBlock_ensures ?_ ?_))
    · exact fun error quiet hquiet => .failed hquiet trivial
    · intro block transactions quiet quiet' hquiet hquiet' htime
      simp only [pure, ExceptT.pure, ExceptT.mk, htime]
      exact .fetched hquiet trivial hquiet'
  | time number =>
    refine .tryAsk ⟨_, _, [], nofun, rfl, fun _ => rfl⟩ ?_
    rintro time _ ⟨quiet, hquiet, rfl, htime⟩
    obtain rfl := htime rfl
    cases hlast : lastTime number (log ++ quiet) with
    | some time => exact .recalled hquiet hlast
    | none =>
      refine .mono (.tryBind (Client.fetchBlock_ensures ?_ ?_)) fun _ _ H =>
        Outcome.of_quiet H hquiet
      · exact fun error quiet' hquiet' => .failed hquiet' (hquiet'.lastTime_eq_none hlast)
      · intro block _ quiet' rest hquiet' hrest htime
        simp only [pure, ExceptT.pure, ExceptT.mk, htime]
        exact .fetched hquiet' (hquiet'.lastTime_eq_none hlast) hrest

/-! ### Sessions -/

/-- A call that has been made: its result, and what had happened when it ended. -/
structure FinishedCall where
  call : TimeCall
  result : Except CallError UInt64
  log : List TimeEvent

/-- The calls that have been made on a client one after another, and what has happened. -/
inductive Session (node : SteadyNode) (c : Client) : List FinishedCall → List TimeEvent → Prop
  | start : Session node c [] []
  | call {log log' : List TimeEvent} : Session node c past log →
    (call.run c).run.Runs (node.answering c.chain) log result log' →
    Session node c (past ++ [⟨call, result, log'⟩]) log'

/-- What is remembered is the node's, and each call that has succeeded has left its result
remembered. -/
structure Sound (node : SteadyNode) (past : List FinishedCall) (log : List TimeEvent) : Prop where
  times : ∀ n t, .remembered n t ∈ log → t = node.time n
  kept : ∀ earlier ∈ past, earlier.log <+: log ∧
    ∀ t, earlier.result = .ok t → lastTime earlier.call.number earlier.log = some t

theorem Sound.call (H : Sound node past log) {call : TimeCall}
    (hcall : call.Outcome node log result log') :
    Sound node (past ++ [⟨call, result, log'⟩]) log' where
  times n t h := (hcall.of_remembered h).elim (H.times n t) id
  kept earlier h := by
    rcases List.mem_append.mp h with hpast | hnew
    · obtain ⟨hlog, hkept⟩ := H.kept earlier hpast
      exact ⟨hlog.trans hcall.log_le, hkept⟩
    · obtain rfl := List.mem_singleton.mp hnew
      refine ⟨List.prefix_rfl, fun t (ht : result = .ok t) => ?_⟩
      exact TimeCall.Outcome.lastTime_of_ok (ht ▸ hcall)

theorem Session.sound (H : Session node c past log) : Sound node past log := by
  induction H with
  | start => exact ⟨nofun, nofun⟩
  | call _ hrun ih => exact ih.call ((TimeCall.run_ensures _).of_runs hrun)

/-- After whatever calls on a client, however they have succeeded or failed and whatever has been
forgotten, one more call ends, and

* if it succeeds, the time that it tells is the node's;
* if it fails, no time is remembered that has not been before;
* if it is for a time alone, it sends a request only if the result of every earlier call for that
  block that has succeeded has been forgotten since. -/
theorem remembered_times_agree (H : Session node c past log) (call : TimeCall) :
    (call.run c).run.Ensures (node.answering c.chain) (fun result log' =>
      (∀ time, result = .ok time → time = node.time call.number) ∧
      (∀ error, result = .error error →
        ∀ n t, lastTime n log' = some t → lastTime n log = some t) ∧
      ∀ n, call = .time n → ∀ before r after, log' = log ++ (before ++ .sent r :: after) →
        ∀ earlier ∈ past, earlier.call.number = n → ∀ t, earlier.result = .ok t →
          ∃ since, log ++ before = earlier.log ++ since ∧ .forgotten n ∈ since) log := by
  refine call.run_ensures.mono fun result log' hcall => ⟨?_, ?_, ?_⟩
  · rintro time rfl
    exact (H.sound.call hcall).times _ _ (TimeEvent.mem_of_lastTime hcall.lastTime_of_ok)
  · rintro error rfl n t ht
    exact hcall.lastTime_of_error ht
  · rintro n rfl before r after hsent earlier hearlier rfl t hok
    obtain ⟨hlog, hkept⟩ := H.sound.kept earlier hearlier
    obtain ⟨since, hsince⟩ := hlog.trans (List.prefix_append log before)
    refine ⟨since, hsince.symm, ?_⟩
    exact TimeEvent.forgotten_of_lastTime (hsince ▸ hcall.lastTime_of_sent hsent) (hkept t hok)

/-- A node that tells of a block with its transactions lets the call succeed. -/
theorem Client.block_runs {number : UInt64}
    (hreply : node.Replies (blockRequest number true) d)
    (hread : Client.optional nodeBlock? d = some (some ⟨time, some transactions⟩)) :
    ((TimeCall.block number).run c).run.Runs (node.answering c.chain) log (.ok time)
      (log ++ [.sent (blockRequest number true)] ++ [.remembered number time]) := by
  have hsent : node.answering c.chain log (.request c.url (blockRequest number true))
      (Except.ok d) (log ++ [.sent (blockRequest number true)]) :=
    ⟨[], nofun, by rw [List.append_nil], fun d' hd => Except.ok.inj hd ▸ hreply⟩
  have hremembered : node.answering c.chain (log ++ [.sent (blockRequest number true)])
      (.rememberTime c.chain number time) ()
      (log ++ [.sent (blockRequest number true)] ++ [.remembered number time]) :=
    ⟨[], nofun, by rw [List.append_nil, if_pos rfl]⟩
  refine .query hsent ?_
  simp only [Program.pure_bind, Function.comp_apply, ExceptT.bindCont, hread]
  exact .query hremembered .pure

/-! ### A sample session -/

/-- A block without transactions, as a node tells of it. -/
def emptyBlock (hash : Hash) (miner : Address) (bloom : Bytes 256) (time : UInt64) : Document :=
  .table [("hash", showBytes hash.toList), ("parentHash", showBytes hash.toList),
    ("sha3Uncles", showBytes hash.toList), ("miner", showBytes miner.toList),
    ("stateRoot", showBytes hash.toList), ("transactionsRoot", showBytes hash.toList),
    ("receiptsRoot", showBytes hash.toList), ("logsBloom", showBytes bloom.toList),
    ("difficulty", .integer 0), ("number", .integer 7), ("gasLimit", .integer 0),
    ("gasUsed", .integer 0), ("timestamp", .integer time.toNat), ("extraData", showBytes [])]

theorem bytes?_showBytes (b : Bytes n) : bytes? n (showBytes b.toList) = some b := by
  rw [showBytes, bytes?, Hex.read_encode]
  rfl

theorem data?_showBytes (bytes : List UInt8) : data? (showBytes bytes) = some bytes := by
  simp [data?, showBytes, Hex.encode, Hex.stripPrefix, Hex.bytes?_digits]

theorem quantity?_integer {n : Nat} (h : n < Nat.pow 2 bits) :
    quantity? bits (.integer n) = some n := by
  simpa [quantity?] using h

theorem isHeader_emptyBlock (hash : Hash) (miner : Address) (bloom : Bytes 256) (time : UInt64) :
    isHeader (emptyBlock hash miner bloom time) = true := by
  have hbytes {n : Nat} (b : Bytes n) : (bytes? n (showBytes b.toList)).isSome := by
    rw [bytes?_showBytes]
    rfl
  have hdata : (data? (showBytes [])).isSome := by
    rw [data?_showBytes]
    rfl
  have hinteger {bits n : Nat} (h : n < Nat.pow 2 bits) :
      (quantity? bits (.integer n)).isSome := by
    rw [quantity?_integer h]
    rfl
  have hhash := hbytes hash
  have hzero := hinteger (Nat.two_pow_pos 64)
  simp only [isHeader, Bool.and_eq_true, List.all_eq_true, List.forall_mem_cons]
  refine ⟨⟨⟨⟨⟨?hashes, ?numbers⟩, hbytes miner⟩, hbytes bloom⟩,
    hinteger (Nat.two_pow_pos 256)⟩, hdata⟩
  case hashes => exact ⟨hhash, hhash, hhash, hhash, hhash, hhash, nofun⟩
  case numbers =>
    exact ⟨hinteger (show 7 < 2 ^ 64 by decide), hzero, hzero, hinteger time.toNat_lt, nofun⟩

theorem nodeBlock?_emptyBlock (hash : Hash) (miner : Address) (bloom : Bytes 256) (time : UInt64) :
    nodeBlock? (emptyBlock hash miner bloom time) = some ⟨time, some []⟩ := by
  have htime : need (emptyBlock hash miner bloom time) "timestamp" height? = some time := by
    change height? (.integer time.toNat) = some time
    simp [height?, quantity?_integer time.toNat_lt]
  have htransactions : nodeTransactions? (emptyBlock hash miner bloom time) = some (some []) := rfl
  simp [nodeBlock?, isHeader_emptyBlock, htime, htransactions]

theorem optional_emptyBlock (hash : Hash) (miner : Address) (bloom : Bytes 256) (time : UInt64) :
    Client.optional nodeBlock? (emptyBlock hash miner bloom time) =
      some (some ⟨time, some []⟩) :=
  congrArg (some <$> ·) (nodeBlock?_emptyBlock hash miner bloom time)

/-- The reply to every request for block 7. -/
def sampleReply : Document := emptyBlock (.zero 32) (.zero 20) (.zero 256) 1000

def sampleNode : SteadyNode where
  time _ := 1000
  Replies r d := (∃ full, r = blockRequest 7 full) ∧ d = sampleReply
  steady := by
    rintro _ _ _ block ⟨-, rfl⟩ hblock
    rw [sampleReply, nodeBlock?_emptyBlock] at hblock
    exact Option.some.inj hblock ▸ rfl

def sampleClient : Client := ⟨"mainnet", "http://node", false, 10000⟩

def sampleLog : List TimeEvent := [.sent (blockRequest 7 true), .remembered 7 1000]

theorem sampleLog_begins : Session sampleNode sampleClient
    [⟨.block 7, .ok 1000, sampleLog⟩] sampleLog :=
  .call .start (Client.block_runs ⟨⟨true, rfl⟩, rfl⟩ (optional_emptyBlock ..))

/-- After block 7 with its transactions, its time is told, and without a request, unless it has been
forgotten. -/
theorem sample_time_agrees :
    Session sampleNode sampleClient [⟨.block 7, .ok 1000, sampleLog⟩] sampleLog ∧
    ((TimeCall.time 7).run sampleClient).run.Ensures (sampleNode.answering sampleClient.chain)
      (fun result log => (.forgotten 7 ∉ log → result = .ok 1000) ∧
        (∀ time, result = .ok time → time = 1000) ∧
        ∀ before r after, log = sampleLog ++ (before ++ .sent r :: after) →
          .forgotten 7 ∈ before) sampleLog := by
  refine ⟨sampleLog_begins, (remembered_times_agree sampleLog_begins (.time 7)).imp_of_runs ?_⟩
  rintro result log hrun ⟨hok, -, hsent⟩
  refine ⟨fun hkept => ?_, hok, fun before r after hlog => ?_⟩
  · cases (TimeCall.run_ensures (.time 7)).of_runs hrun with
    | recalled => exact congrArg Except.ok (hok _ rfl)
    | fetched => rfl
    -- A call that fails has asked the node, and so its time had been forgotten.
    | failed _ hasks =>
      have hforgotten := TimeEvent.forgotten_of_lastTime hasks (t := 1000) rfl
      exact absurd (List.mem_append_left _ (List.mem_append_right _ hforgotten)) hkept
  · obtain ⟨since, hsince, hforgotten⟩ :=
      hsent 7 rfl before r after hlog _ List.mem_cons_self rfl 1000 rfl
    exact List.append_cancel_left hsince ▸ hforgotten

end Rpc

end ChainIngest
