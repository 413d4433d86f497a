import ChainIngest.Launch
import ChainIngest.Proofs.Acceptance
import ChainIngest.Proofs.Semantics

/-! Accepted settings can be put to work. Every part of an engine can be built from them, so what
keeps an engine from being built is a node that cannot be connected to or that serves another
chain. -/

namespace ChainIngest

/-! ### The parts of an engine -/

namespace ChainSettings.Sound

variable {chain : ChainSettings}

/-- The tasks of a sound chain scan at least one block at a time. -/
theorem exists_tasks (h : chain.Sound) :
    ∃ tasks, ScanTask.ofChain chain = .ok tasks ∧ ∀ t ∈ tasks, t.scanRange ≠ 0 := by
  have htokens : ∀ token ∈ chain.tokens, ∃ t, ScanTask.ofToken chain token = .ok t ∧
      t.scanRange = token.scanRange := by
    intro token htoken
    obtain ⟨contract, hcontract⟩ := (h.tokens token htoken).1
    exact ⟨_, Except.bind_eq_ok.mpr ⟨contract, hcontract, rfl⟩, rfl⟩
  obtain ⟨tasks, htasks, hranges⟩ := List.exists_mapM htokens
  refine ⟨_, Except.bind_eq_ok.mpr ⟨tasks, htasks, rfl⟩, fun t ht => ?_⟩
  rcases List.mem_append.mp ht with ht | ht
  · obtain ⟨native, hnative, rfl⟩ := Option.map_eq_some_iff.mp (Option.mem_toList.mp ht)
    exact h.nativeRange native hnative
  · have hrange : t.scanRange ∈ chain.tokens.map (·.scanRange) :=
      hranges ▸ List.mem_map_of_mem ht
    obtain ⟨token, htoken, heq⟩ := List.mem_map.mp hrange
    exact heq ▸ (h.tokens token htoken).2

theorem exists_recipients (h : chain.Sound) :
    ∃ recipients, chain.whitelist.mapM Address.read = .ok recipients := by
  obtain ⟨recipients, hread, -⟩ := List.exists_mapM (g := fun _ => ()) (k := fun _ => ())
    fun text htext => (h.whitelist text htext).imp fun _ hread => ⟨hread, rfl⟩
  exact ⟨recipients, hread⟩

theorem exists_addChain (h : chain.Sound) (a : Assembly) :
    ∃ a', a.addChain chain = .ok a' := by
  obtain ⟨recipients, hrecipients⟩ := h.exists_recipients
  obtain ⟨tasks, htasks, -⟩ := h.exists_tasks
  exact ⟨_, Except.bind_eq_ok.mpr
    ⟨recipients, hrecipients, Except.bind_eq_ok.mpr ⟨tasks, htasks, rfl⟩⟩⟩

end ChainSettings.Sound

theorem PriceSettings.Sound.exists_aggregator {prices : PriceSettings}
    {chains : List ChainSettings} (h : prices.Sound chains) :
    ∃ a, Aggregator.ofSettings prices = .ok a := by
  obtain ⟨primary, hprimary⟩ := h.primaryOracle
  obtain ⟨reference, hreference⟩ := h.referenceOracle
  obtain ⟨pool, hpool⟩ := h.pool
  obtain ⟨fallback, hfallback⟩ := h.fallback
  exact ⟨_, Except.bind_eq_ok.mpr ⟨primary, Except.mapError_eq_ok.mpr hprimary,
    Except.bind_eq_ok.mpr ⟨reference, Except.mapError_eq_ok.mpr hreference,
    Except.bind_eq_ok.mpr ⟨pool, Except.mapError_eq_ok.mpr hpool,
    Except.bind_eq_ok.mpr ⟨fallback, Except.mapError_eq_ok.mpr hfallback, rfl⟩⟩⟩⟩⟩

theorem Assembly.exists_foldlM {chains : List ChainSettings} (h : ∀ chain ∈ chains, chain.Sound)
    (a : Assembly) : ∃ a', chains.foldlM Assembly.addChain a = .ok a' := by
  induction chains generalizing a with
  | nil => exact ⟨a, rfl⟩
  | cons chain rest ih =>
    obtain ⟨a₁, hadd⟩ := (h chain List.mem_cons_self).exists_addChain a
    obtain ⟨a', hrest⟩ := ih (fun c hc => h c (List.mem_cons_of_mem _ hc)) a₁
    rw [List.foldlM_cons]
    exact ⟨a', Except.bind_eq_ok.mpr ⟨a₁, hadd, hrest⟩⟩

/-- All parts of an engine can be built from accepted settings. -/
theorem Settings.exists_scheduler {s : Settings} (h : s.validate = .ok ()) :
    ∃ scheduler, Assembly.scheduler s = .ok scheduler := by
  obtain ⟨⟨-, hchains⟩, hprices⟩ := Settings.validate_eq_ok.mp h
  obtain ⟨assembly, hassembly⟩ := Assembly.exists_foldlM hchains .empty
  obtain ⟨aggregator, haggregator⟩ := hprices.exists_aggregator
  have hchain : s.chains.any (·.name == s.prices.chain) = true := by
    simpa using hprices.chain
  refine ⟨⟨s.scheduler, assembly.trackers, assembly.scrapers, aggregator⟩, ?_⟩
  refine Except.bind_eq_ok.mpr ⟨assembly, Except.mapError_eq_ok.mpr hassembly, ?_⟩
  rw [hchain]
  exact Except.bind_eq_ok.mpr ⟨aggregator, Except.mapError_eq_ok.mpr haggregator, rfl⟩

/-! ### Connections -/

namespace Network

/-- Whatever is asked, any answer may come. -/
def Anything : Answering Network Unit := fun _ _ _ _ => True

/-- However an action is answered, it ends; if it succeeds then `post` holds, and if not then
`fail`. -/
def Ensures (post : α → Prop) (fail : ε → Prop) (a : ExceptT ε (Program Network) α) : Prop :=
  Program.Ensures Anything (fun
    | .ok value, _ => post value
    | .error e, _ => fail e) a.run ()

/-- An action may succeed. -/
def MaySucceed (a : ExceptT ε (Program Network) α) (value : α) : Prop :=
  a.run.Runs Anything () (.ok value) ()

/-- Every program ends, whatever it is answered. -/
theorem ensures_anything (p : Program Network α) : p.Ensures Anything (fun _ _ => True) () := by
  induction p with
  | pure => trivial
  | query q next ih => exact ⟨⟨refuse q, (), trivial⟩, fun answer _ _ => ih answer⟩

namespace Ensures

variable {post : α → Prop} {fail : ε → Prop}

theorem pure (h : post value) : Ensures post fail (Pure.pure value) := h

theorem throw {post : α → Prop} (h : fail e) : Ensures post fail (MonadExcept.throw e) := h

theorem bind {a : ExceptT ε (Program Network) β} {k : β → ExceptT ε (Program Network) α}
    (H : Ensures (fun value => Ensures post fail (k value)) fail a) :
    Ensures post fail (a >>= k) := by
  refine Program.Ensures.bind (Program.Ensures.mono H ?_)
  intro result _ h
  cases result with
  | error e => exact h
  | ok value => exact h

theorem mono {post' : α → Prop} {fail' : ε → Prop} {a : ExceptT ε (Program Network) α}
    (H : Ensures post fail a) (hpost : ∀ value, post value → post' value)
    (hfail : ∀ e, fail e → fail' e) : Ensures post' fail' a := by
  refine Program.Ensures.mono H ?_
  intro result _ h
  cases result with
  | error e => exact hfail e h
  | ok value => exact hpost value h

/-- A program that cannot fail, as an action. -/
theorem lift {p : Program Network α} (h : ∀ value, post value) : Ensures post fail (liftM p) :=
  Program.Ensures.bind ((ensures_anything p).mono fun value _ _ => h value)

/-- An action whose error is given as a fault. -/
theorem orFault {context : ε → Launch.Fault} {fail' : Launch.Fault → Prop}
    {a : ExceptT ε (Program Network) α} (H : Ensures post fail a)
    (h : ∀ e, fail e → fail' (context e)) : Ensures post fail' (Launch.orFault context a) := by
  refine Program.Ensures.bind (Program.Ensures.mono H ?_)
  intro result _ hresult
  cases result with
  | error e => exact h e hresult
  | ok value => exact hresult

end Ensures

namespace MaySucceed

theorem pure (value : α) :
    MaySucceed (Pure.pure value : ExceptT ε (Program Network) α) value := Program.Runs.pure

theorem bind {a : ExceptT ε (Program Network) β} {k : β → ExceptT ε (Program Network) α}
    (H : MaySucceed a value) (H' : MaySucceed (k value) result) : MaySucceed (a >>= k) result :=
  Program.Runs.bind H H'

theorem ask {q : Query} (answer : Answer q) :
    MaySucceed (liftM (Network.ask q) : ExceptT ε (Program Network) (Answer q)) answer :=
  .query trivial .pure

/-- A program that cannot fail, as an action. -/
theorem lift (p : Program Network α) :
    ∃ value, MaySucceed (liftM p : ExceptT ε (Program Network) α) value := by
  obtain ⟨value, _, hrun, -⟩ := (ensures_anything p).exists_runs
  exact ⟨value, Program.Runs.bind hrun Program.Runs.pure⟩

theorem orFault {a : ExceptT ε (Program Network) α} (context : ε → Launch.Fault)
    (H : MaySucceed a value) : MaySucceed (Launch.orFault context a) value :=
  Program.Runs.bind H Program.Runs.pure

end MaySucceed

-- From here on actions are taken apart by the rules alone, not by running them.
attribute [irreducible] Ensures MaySucceed

end Network

open Network (Ensures MaySucceed)

namespace Rpc.Client

variable {chain : ChainSettings} {timeout : Nat}

/-- Why a chain's node is not connected to: it has no valid URL, it cannot be reached, it does not
tell which chain it serves, or it serves another one. -/
def Unconnected (chain : ChainSettings) : CallError → Prop
  | .invalidUrl name => name = chain.name ∧ Url.isValid chain.rpcUrl = false
  | .socketTimedOut name | .socketFailed name => name = chain.name ∧ chain.wsUrl.isSome
  | .failed call name | .timedOut call name _ => call = "eth_chainId" ∧ name = chain.name
  | .wrongChain name served expected =>
    name = chain.name ∧ expected = chain.chainId ∧ served ≠ expected
  | _ => False

theorem openSocket_ensures :
    Ensures (fun _ => True) (Unconnected chain) (openSocket chain) := by
  unfold openSocket
  cases hurl : chain.wsUrl with
  | none => exact .pure trivial
  | some url =>
    apply Ensures.bind
    apply Ensures.lift
    intro answer
    have hsome : chain.wsUrl.isSome := by rw [hurl]; rfl
    cases answer with
    | ok opened => exact .pure trivial
    | error failure =>
      cases failure with
      | timedOut => exact .throw ⟨rfl, hsome⟩
      | _ => exact .throw ⟨rfl, hsome⟩

theorem chainId_ensures {c : Client} (hchain : c.chain = chain.name) :
    Ensures (fun _ => True) (Unconnected chain) c.chainId := by
  unfold chainId request
  apply Ensures.bind
  apply Ensures.lift
  intro answer
  split
  · exact .throw ⟨rfl, hchain⟩
  · exact .throw ⟨rfl, hchain⟩
  · split
    · exact .pure trivial
    · exact .throw ⟨rfl, hchain⟩

theorem connect_ensures : Ensures (fun _ => True) (Unconnected chain) (connect chain timeout) := by
  unfold connect
  cases hurl : Url.isValid chain.rpcUrl with
  | false => exact .bind (.throw ⟨rfl, hurl⟩)
  | true =>
    apply Ensures.bind
    refine openSocket_ensures.mono (fun hasSocket _ => ?_) fun _ h => h
    apply Ensures.bind
    refine (chainId_ensures rfl).mono (fun served _ => ?_) fun _ h => h
    by_cases hserved : served ≠ chain.chainId
    · simp only [if_pos hserved]
      exact .bind (.throw ⟨rfl, rfl, hserved⟩)
    · simp only [if_neg hserved]
      exact .bind (.lift fun _ => .pure trivial)

/-- A node whose URL is valid may turn out to serve the chain. -/
theorem connect_maySucceed (timeout : Nat) (hurl : Url.isValid chain.rpcUrl = true) :
    ∃ c, MaySucceed (connect chain timeout) c := by
  have hsocket : ∃ opened, MaySucceed (openSocket chain) opened := by
    unfold openSocket
    cases chain.wsUrl with
    | none => exact ⟨false, .pure _⟩
    | some url => exact ⟨true, .bind (@MaySucceed.ask _ (.openSocket url) (Except.ok ())) (.pure _)⟩
  obtain ⟨opened, hopened⟩ := hsocket
  have hserves (c : Client) : MaySucceed c.chainId chain.chainId := by
    have hread : height? (.integer chain.chainId.toNat) = some chain.chainId := by
      simp [height?, quantity?, chain.chainId.toNat_lt]
    let answer : Network.Answer (.request c.url ⟨"eth_chainId", none⟩) :=
      Except.ok (.integer chain.chainId.toNat)
    unfold chainId request
    refine MaySucceed.bind (.ask answer) ?_
    simp only [answer, hread]
    exact .pure _
  unfold connect
  simp only [hurl, Bool.not_true, Bool.false_eq_true, if_false]
  refine ⟨⟨chain.name, chain.rpcUrl, opened, timeout⟩, hopened.bind ((hserves _).bind ?_)⟩
  simp only [ne_eq, not_true_eq_false, if_false]
  exact .bind (.ask ()) (.pure _)

end Rpc.Client

/-! ### Building -/

namespace Launch

variable {settings : Settings} {chain : ChainSettings} {chains : List ChainSettings}
  {p : Progress} {a : Assembly}

/-- The node of one of some chains is not connected to. -/
def ChainUnconnected (chains : List ChainSettings) (fault : Fault) : Prop :=
  ∃ chain ∈ chains, ∃ e, fault = .node chain.name e ∧ Rpc.Client.Unconnected chain e

theorem introduceAll_maySucceed (l : Live) (scrapers : List Scraper) :
    MaySucceed (scrapers.forM fun s => liftM (introduce l s) : Start Unit) () := by
  induction scrapers with
  | nil => exact .pure ()
  | cons s rest ih =>
    obtain ⟨_, hone⟩ := MaySucceed.lift (ε := Fault) (introduce l s)
    exact hone.bind ih

theorem introduceAll_ensures (l : Live) (scrapers : List Scraper) {fail : Fault → Prop} :
    Ensures (fun _ => True) fail (scrapers.forM fun s => liftM (introduce l s) : Start Unit) := by
  induction scrapers with
  | nil => exact .pure trivial
  | cons s rest ih => exact .bind (.lift fun _ => ih)

theorem connect_ensures {timeout : Nat} :
    Ensures (fun _ => True) (ChainUnconnected [chain])
      (orFault (.node chain.name) (Rpc.Client.connect chain timeout)) := by
  exact Rpc.Client.connect_ensures.orFault
    fun e h => ⟨chain, List.mem_singleton_self _, e, rfl, h⟩

theorem addChain_ensures (hadd : p.assembly.addChain chain = .ok a) :
    Ensures (fun p' => p'.assembly = a ∧ p'.clients.length = p.clients.length + 1)
      (ChainUnconnected [chain]) (addChain settings p chain) := by
  apply Ensures.bind
  refine connect_ensures.mono (fun c _ => ?_) fun _ h => h
  rw [hadd]
  apply Ensures.bind
  apply Ensures.pure
  apply Ensures.bind
  exact (introduceAll_ensures ..).mono (fun _ _ => .pure ⟨rfl, by simp⟩) fun _ h => h

theorem addChain_maySucceed (settings : Settings) (hadd : p.assembly.addChain chain = .ok a)
    (hurl : Rpc.Url.isValid chain.rpcUrl = true) :
    ∃ p', MaySucceed (addChain settings p chain) p' := by
  obtain ⟨c, hconnect⟩ :=
    Rpc.Client.connect_maySucceed (settings.rpcTimeoutSecs.toNat * 1000) hurl
  have hclient : MaySucceed (orFault (.node chain.name)
      (Rpc.Client.connect chain (settings.rpcTimeoutSecs.toNat * 1000))) c :=
    hconnect.orFault _
  refine ⟨⟨a, p.clients ++ [c]⟩, hclient.bind ?_⟩
  rw [hadd]
  exact .bind (.pure _) ((introduceAll_maySucceed ..).bind (.pure _))

theorem addChains_ensures (h : ∀ chain ∈ chains, chain.Sound) :
    Ensures (fun p' => p'.clients.length = p.clients.length + chains.length)
      (ChainUnconnected chains) (chains.foldlM (addChain settings) p) := by
  induction chains generalizing p with
  | nil => exact .pure rfl
  | cons chain rest ih =>
    obtain ⟨a, hadd⟩ := (h chain List.mem_cons_self).exists_addChain p.assembly
    rw [List.foldlM_cons]
    apply Ensures.bind
    refine (addChain_ensures hadd).mono ?added ?fails
    case fails =>
      rintro fault ⟨c, hc, hfault⟩
      exact ⟨c, List.mem_cons.mpr (.inl (List.mem_singleton.mp hc)), hfault⟩
    case added =>
      intro p₁ hp₁
      refine (ih fun c hc => h c (List.mem_cons_of_mem _ hc)).mono (fun p' hp' => ?_) ?_
      · rw [hp', hp₁.2, List.length_cons]
        omega
      · rintro fault ⟨c, hc, hfault⟩
        exact ⟨c, List.mem_cons_of_mem _ hc, hfault⟩

theorem addChains_maySucceed (settings : Settings) (p : Progress)
    (h : ∀ chain ∈ chains, chain.Sound)
    (hurls : ∀ chain ∈ chains, Rpc.Url.isValid chain.rpcUrl = true) :
    ∃ p', MaySucceed (chains.foldlM (addChain settings) p) p' := by
  induction chains generalizing p with
  | nil => exact ⟨p, .pure _⟩
  | cons chain rest ih =>
    obtain ⟨hchain, hrest⟩ := List.forall_mem_cons.mp h
    obtain ⟨hurl, hurls⟩ := List.forall_mem_cons.mp hurls
    obtain ⟨a, hadd⟩ := hchain.exists_addChain p.assembly
    obtain ⟨p₁, hone⟩ := addChain_maySucceed settings hadd hurl
    obtain ⟨p', hmany⟩ := ih p₁ hrest hurls
    rw [List.foldlM_cons]
    exact ⟨p', hone.bind hmany⟩

/-- The client of the price chain is among those of the chains. -/
theorem exists_priceClient {clients : List Rpc.Client} (hlength : clients.length = chains.length)
    (h : ∃ chain ∈ chains, chain.name = name) :
    ((chains.zip clients).reverse.find? (·.1.name == name)).isSome := by
  obtain ⟨chain, hchain, hname⟩ := h
  obtain ⟨i, hi, rfl⟩ := List.getElem_of_mem hchain
  have hpair : (chains[i], clients[i]) ∈ (chains.zip clients).reverse := by
    rw [List.mem_reverse, ← List.getElem_zip (h := by simp [hi, hlength])]
    exact List.getElem_mem _
  rw [List.find?_isSome]
  exact ⟨_, hpair, by simpa using hname⟩

/-- Accepted settings can be built: each chain has its tasks, each of which scans at least one block
at a time, and its recipients; a chain to follow has a websocket; prices have their chain and their
aggregator. What keeps an engine from being built is a node that is not connected to, so if all URLs
are valid nothing in the settings does. -/
theorem accepted_settings_build {s : Settings} (h : s.validate = .ok ()) :
    (∀ chain ∈ s.chains,
      (∃ tasks, ScanTask.ofChain chain = .ok tasks ∧ ∀ t ∈ tasks, 0 < t.scanRange) ∧
      (∀ text ∈ chain.whitelist, ∃ address, Address.read text = .ok address) ∧
      (chain.headMode = .subscribe → chain.wsUrl.isSome)) ∧
    (∃ chain ∈ s.chains, chain.name = s.prices.chain) ∧
    (∃ aggregator, Aggregator.ofSettings s.prices = .ok aggregator) ∧
    ∃ scheduler, Assembly.scheduler s = .ok scheduler ∧
      Ensures (fun built => built.1 = scheduler ∧ built.2.prices.isSome)
        (ChainUnconnected s.chains) (build s) ∧
      ((∀ chain ∈ s.chains, Rpc.Url.isValid chain.rpcUrl = true) →
        ∃ live, MaySucceed (build s) (scheduler, live)) := by
  obtain ⟨⟨-, hchains⟩, hprices⟩ := Settings.validate_eq_ok.mp h
  obtain ⟨scheduler, hscheduler⟩ := Settings.exists_scheduler h
  refine ⟨fun chain hchain => ⟨?tasks, (hchains chain hchain).whitelist,
    (hchains chain hchain).websocket⟩, hprices.chain, hprices.exists_aggregator, scheduler,
    hscheduler, ?ends, fun hurls => ?builds⟩
  case tasks =>
    obtain ⟨tasks, htasks, hranges⟩ := (hchains chain hchain).exists_tasks
    exact ⟨tasks, htasks, fun t ht => UInt64.pos_iff_ne_zero.mpr (hranges t ht)⟩
  case ends =>
    apply Ensures.bind
    refine (addChains_ensures hchains).mono (fun p hclients => ?_) fun _ h => h
    rw [hscheduler]
    refine .bind (.pure (.pure ⟨rfl, ?_⟩))
    rw [Option.isSome_map]
    exact exists_priceClient (by simpa using hclients) hprices.chain
  case builds =>
    obtain ⟨p, hadded⟩ := addChains_maySucceed s ⟨.empty, []⟩ hchains hurls
    let prices := (s.chains.zip p.clients).reverse.find? (·.1.name == s.prices.chain)
    refine ⟨⟨p.clients, prices.map (·.2), s.postgres⟩, hadded.bind ?_⟩
    rw [hscheduler]
    exact .bind (.pure _) (.pure _)

/-- One chain that is subscribed to, with its native asset, a token that is not scanned, and a
recipient. -/
def sample : Settings where
  postgres := ⟨"localhost", 5432, "postgres", "postgres", "pricefeed", 16⟩
  chains := [
    { name := "mainnet"
      chainId := 1
      rpcUrl := "http://localhost:8545"
      wsUrl := some "ws://localhost:8546"
      startBlock := 0
      headMode := .subscribe
      scrapeOnHeader := true
      native := some ⟨true, "ETH", 18, 500, 50⟩
      whitelist := ["0x0000000000000000000000000000000000000005"]
      tokens := [⟨"USDC", "0x0000000000000000000000000000000000000004", 6, false, 5000, 50⟩] }]
  prices := ⟨"mainnet", "0x0000000000000000000000000000000000000001",
    "0x0000000000000000000000000000000000000002", "0x0000000000000000000000000000000000000003",
    "80"⟩
  scheduler := ⟨12, 20, 60⟩
  rpcTimeoutSecs := 30

/-- The scrapers of the sample's two tasks. -/
def sampleScrapers : List Scraper :=
  [⟨0, ⟨"mainnet", 1, "ETH", .native, 18, true, 500, 50, 0⟩, 0, [.ofNat 20 5]⟩,
    ⟨1, ⟨"mainnet", 1, "USDC", .token (.ofNat 20 4), 6, false, 5000, 50, 0⟩, 0, [.ofNat 20 5]⟩]

def sampleScheduler : Scheduler where
  cadences := ⟨12, 20, 60⟩
  trackers := [⟨"mainnet", .subscribe, 0, sampleScrapers, 5000⟩]
  scrapers := sampleScrapers
  aggregator := ⟨.ofNat 20 1, .ofNat 20 2, .ofNat 20 3, ⟨80, 0⟩⟩

/-- The sample is accepted, and the engine built from it has its chain's head and its two tasks to
see to. -/
theorem sample_builds :
    sample.validate = .ok () ∧ Assembly.scheduler sample = .ok sampleScheduler ∧
      ∃ live, MaySucceed (build sample) (sampleScheduler, live) := by
  have haccepted : sample.validate = .ok () := by decide +kernel
  have hsample : Assembly.scheduler sample = .ok sampleScheduler := by decide +kernel
  obtain ⟨-, -, -, scheduler, hscheduler, -, hbuilds⟩ := accepted_settings_build haccepted
  obtain rfl : scheduler = sampleScheduler := Except.ok.inj (hscheduler.symm.trans hsample)
  have hurls : ∀ chain ∈ sample.chains, Rpc.Url.isValid chain.rpcUrl = true := by decide +kernel
  exact ⟨haccepted, hsample, hbuilds hurls⟩

end Launch

end ChainIngest
