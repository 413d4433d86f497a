import Mathlib.Data.List.Lattice
import ChainIngest.Engine.Assembly
import ChainIngest.Proofs.Acceptance
import ChainIngest.Proofs.CheckpointKeys

/-! Which streams of accepted settings share a checkpoint. The names of checkpoints are made of the
names of chains and symbols in lower case, so chains whose names differ in case alone share a head,
and streams whose names join to one text share all that they own. -/

namespace ChainIngest

open Text (lowercase uppercase)

namespace CheckpointKey

/-- Streams with these names share no checkpoint. A scan range is named as an overlap where the one
name is the other behind what tells the two apart. -/
def Apart (n n' : String) : Prop := n ≠ n' ∧ n ≠ "lookback_" ++ n' ∧ n' ≠ "lookback_" ++ n

instance : Decidable (Apart n n') := inferInstanceAs (Decidable (_ ∧ _ ∧ _))

theorem overlap_eq_scanRange_iff :
    overlap chain symbol = scanRange chain' symbol' ↔
      stream chain' symbol' = "lookback_" ++ stream chain symbol := by
  rw [eq_comm, scanRange_eq_overlap_iff]

/-- Names whose lower case has no underscore, which is what names are joined with. -/
def Plain (name : String) : Prop := '_' ∉ (lowercase name).toList

instance : Decidable (Plain name) := inferInstanceAs (Decidable (¬ _))

theorem stream_toList :
    (stream chain symbol).toList =
      (lowercase chain).toList ++ '_' :: (lowercase symbol).toList := by
  simp [stream]

/-- Plain names can be read off the name of their stream. -/
theorem Plain.stream_inj (hchain : Plain chain) (hsymbol : Plain symbol) :
    stream chain symbol = stream chain' symbol' ↔
      lowercase chain = lowercase chain' ∧ lowercase symbol = lowercase symbol' := by
  rw [← String.toList_inj, stream_toList, stream_toList,
    List.append_cons_inj_of_notMem hchain hsymbol, String.toList_inj, String.toList_inj]
  simp

theorem Plain.stream_ne_lookback (hchain : Plain chain) (hsymbol : Plain symbol) :
    stream chain symbol ≠ "lookback_" ++ stream chain' symbol' := by
  intro heq
  have hlist : ("lookback_" ++ stream chain' symbol').toList =
      "lookback".toList ++ '_' :: (stream chain' symbol').toList := by
    rw [String.toList_append]
    rfl
  rw [← String.toList_inj, stream_toList, hlist,
    List.append_cons_inj_of_notMem hchain hsymbol] at heq
  apply hsymbol
  rw [String.toList_inj.mp heq.2.2, stream_toList]
  simp

end CheckpointKey

namespace ScanTask

/-- What the names of the task's checkpoints end with. -/
def stream (t : ScanTask) : String := CheckpointKey.stream t.chain t.symbol

theorem keys_disjoint_iff {t t' : ScanTask} :
    t.keys.Disjoint t'.keys ↔ CheckpointKey.Apart t.stream t'.stream := by
  simp only [keys, List.disjoint_cons_left, List.disjoint_nil_left, List.mem_cons,
    List.not_mem_nil, or_false, not_or, and_true]
  simp only [lastBlockKey, scanRangeKey, overlapKey, CheckpointKey.lastBlock_inj,
    CheckpointKey.scanRange_inj, CheckpointKey.overlap_inj, CheckpointKey.scanRange_eq_overlap_iff,
    CheckpointKey.overlap_eq_scanRange_iff, CheckpointKey.lastBlock_ne_scanRange,
    CheckpointKey.lastBlock_ne_overlap, CheckpointKey.lastBlock_ne_scanRange.symm,
    CheckpointKey.lastBlock_ne_overlap.symm, not_false_eq_true, true_and, and_true]
  simp only [stream, CheckpointKey.Apart]
  constructor
  · intro h
    obtain ⟨hne, ⟨-, hleft⟩, hright, -⟩ := h
    exact ⟨hne, hleft, hright⟩
  · intro h
    obtain ⟨hne, hleft, hright⟩ := h
    exact ⟨hne, ⟨hne, hleft⟩, hright, hne⟩

end ScanTask

/-- The symbols of a chain's assets, in the order of their tasks. -/
def ChainSettings.symbols (chain : ChainSettings) : List String :=
  (chain.native.map (·.symbol)).toList ++ chain.tokens.map (·.symbol)

/-- The names of a chain's streams. Tasks have their symbols in upper case. -/
def ChainSettings.streams (chain : ChainSettings) : List String :=
  chain.symbols.map fun symbol => CheckpointKey.stream chain.name (uppercase symbol)

/-- A sound chain has a task for each of its assets. -/
theorem ChainSettings.Sound.tasks {chain : ChainSettings} (h : chain.Sound) :
    ∃ tasks, ScanTask.ofChain chain = .ok tasks ∧ tasks.map (·.stream) = chain.streams := by
  have htokens : ∀ token ∈ chain.tokens, ∃ t, ScanTask.ofToken chain token = .ok t ∧
      t.stream = CheckpointKey.stream chain.name (uppercase token.symbol) := by
    intro token htoken
    obtain ⟨contract, hcontract⟩ := (h.tokens token htoken).1
    exact ⟨_, Except.bind_eq_ok.mpr ⟨contract, hcontract, rfl⟩, rfl⟩
  obtain ⟨tasks, htasks, hstreams⟩ := List.exists_mapM htokens
  refine ⟨_, Except.bind_eq_ok.mpr ⟨tasks, htasks, rfl⟩, ?_⟩
  have hnative : ((chain.native.map (ScanTask.ofNative chain)).toList.map (·.stream)) =
      (chain.native.map (·.symbol)).toList.map fun symbol =>
        CheckpointKey.stream chain.name (uppercase symbol) := by
    cases chain.native with
    | none => rfl
    | some native => rfl
  rw [List.map_append, hstreams, hnative, streams, symbols, List.map_append, List.map_map]
  rfl

namespace Settings

/-- The tasks of all chains. -/
def tasks (s : Settings) : Except Address.ReadError (List ScanTask) :=
  return (← s.chains.mapM ScanTask.ofChain).flatten

/-- The names of all chains' streams. -/
def streams (s : Settings) : List String := s.chains.flatMap (·.streams)

/-- The heads of the chains. -/
def headKeys (s : Settings) : List String := s.chains.map fun chain => CheckpointKey.head chain.name

variable {s : Settings}

/-- Accepted settings have a task for each asset of each chain. -/
theorem tasks_of_validate (h : s.validate = .ok ()) :
    ∃ tasks, s.tasks = .ok tasks ∧ tasks.map (·.stream) = s.streams := by
  obtain ⟨tasks, htasks, hstreams⟩ :=
    List.exists_mapM fun chain hchain => ((validate_chains h).2 chain hchain).tasks
  refine ⟨tasks.flatten, Except.bind_eq_ok.mpr ⟨tasks, htasks, rfl⟩, ?_⟩
  rw [List.map_flatten, hstreams, streams, List.flatMap]

end Settings

namespace Assembly

variable {a a' : Assembly} {chain : ChainSettings} {chains : List ChainSettings}

theorem scrapersFrom_tasks {tasks : List ScanTask} :
    (scrapersFrom node recipients index tasks).map (·.task) = tasks := by
  induction tasks generalizing index with
  | nil => rfl
  | cons task tasks ih => rw [scrapersFrom, List.map_cons, ih]

theorem addChain_tasks (h : addChain a chain = .ok a') :
    ∃ tasks, ScanTask.ofChain chain = .ok tasks ∧
      a'.scrapers.map (·.task) = a.scrapers.map (·.task) ++ tasks := by
  obtain ⟨recipients, -, hrest⟩ := Except.bind_eq_ok.mp h
  obtain ⟨tasks, htasks, hresult⟩ := Except.bind_eq_ok.mp hrest
  obtain rfl := Except.ok.inj hresult
  exact ⟨tasks, htasks, by rw [List.map_append, scrapersFrom_tasks]⟩

theorem foldlM_tasks (h : chains.foldlM addChain a = .ok a') :
    ∃ tasks, chains.mapM ScanTask.ofChain = .ok tasks ∧
      a'.scrapers.map (·.task) = a.scrapers.map (·.task) ++ tasks.flatten := by
  induction chains generalizing a with
  | nil =>
    obtain rfl := Except.ok.inj h
    exact ⟨[], rfl, (List.append_nil _).symm⟩
  | cons chain chains ih =>
    rw [List.foldlM_cons] at h
    obtain ⟨a₁, hadd, hrest⟩ := Except.bind_eq_ok.mp h
    obtain ⟨tasks, htasks, hone⟩ := addChain_tasks hadd
    obtain ⟨rest, hmap, hmany⟩ := ih hrest
    refine ⟨tasks :: rest, ?_, ?_⟩
    · rw [List.mapM_cons, htasks, hmap]
      rfl
    · rw [hmany, hone, List.flatten_cons, List.append_assoc]

/-- The scrapers of an engine are those of the settings' tasks. -/
theorem ofChains_tasks {s : Settings} (h : ofChains s.chains = .ok a) :
    s.tasks = .ok (a.scrapers.map (·.task)) := by
  obtain ⟨tasks, htasks, heq⟩ := foldlM_tasks h
  rw [heq]
  exact Except.bind_eq_ok.mpr ⟨tasks, htasks, rfl⟩

end Assembly

namespace Settings

variable {s : Settings}

theorem headKeys_nodup_iff :
    s.headKeys.Nodup ↔ (s.chains.map fun chain => lowercase chain.name).Nodup := by
  simp only [headKeys, List.Nodup, List.pairwise_map, Ne, CheckpointKey.head_inj]

/-- When accepted settings keep the checkpoints of their streams apart: no task owns a chain's head,
two tasks own different checkpoints if the names of their streams are apart, and two chains have
different heads if their names differ in lower case. -/
theorem checkpoints_apart_iff (h : s.validate = .ok ()) :
    ∃ tasks, s.tasks = .ok tasks ∧
      (∀ t ∈ tasks, t.keys.Disjoint s.headKeys) ∧
      ((tasks.Pairwise fun t t' => t.keys.Disjoint t'.keys) ↔
        s.streams.Pairwise CheckpointKey.Apart) ∧
      (s.headKeys.Nodup ↔ (s.chains.map fun chain => lowercase chain.name).Nodup) := by
  obtain ⟨tasks, htasks, hstreams⟩ := tasks_of_validate h
  refine ⟨tasks, htasks, ?_, ?_, headKeys_nodup_iff⟩
  · intro t _ key hkey hhead
    obtain ⟨chain, -, rfl⟩ := List.mem_map.mp hhead
    exact ScanTask.key_ne_head hkey rfl
  · rw [← hstreams, List.pairwise_map]
    simp only [ScanTask.keys_disjoint_iff]

/-- Two chains whose names differ in case alone, each with a native asset. -/
def caseSample : Settings where
  postgres := ⟨"localhost", 5432, "postgres", "postgres", "pricefeed", 16⟩
  chains := [("mainnet", 1), ("Mainnet", 5)].map fun (name, chainId) =>
    { name
      chainId
      rpcUrl := "http://localhost:8545"
      wsUrl := none
      startBlock := 0
      headMode := .poll
      scrapeOnHeader := false
      native := some ⟨true, "ETH", 18, 500, 50⟩
      whitelist := []
      tokens := [] }
  prices := ⟨"mainnet", "0x0000000000000000000000000000000000000001",
    "0x0000000000000000000000000000000000000002", "0x0000000000000000000000000000000000000003",
    "80"⟩
  scheduler := ⟨12, 20, 60⟩
  rpcTimeoutSecs := 30

/-- The sample is accepted, though its tasks own the same checkpoints and its chains one head. -/
theorem caseSample_shares_checkpoints :
    caseSample.validate = .ok () ∧ ∃ tasks, caseSample.tasks = .ok tasks ∧
      (¬ tasks.Pairwise fun t t' => t.keys.Disjoint t'.keys) ∧ ¬ caseSample.headKeys.Nodup := by
  have haccepted : caseSample.validate = .ok () := by decide +kernel
  obtain ⟨tasks, htasks, -, hkeys, hheads⟩ := checkpoints_apart_iff haccepted
  have hstreams : ¬ caseSample.streams.Pairwise CheckpointKey.Apart := by decide
  have hnames : ¬ (caseSample.chains.map fun chain => lowercase chain.name).Nodup := by decide
  exact ⟨haccepted, tasks, htasks, mt hkeys.mp hstreams, mt hheads.mp hnames⟩

/-- Plain names that differ in lower case keep all streams apart. -/
theorem streams_apart_of_plain
    (hchain : ∀ chain ∈ s.chains, CheckpointKey.Plain chain.name)
    (hsymbol : ∀ chain ∈ s.chains, ∀ symbol ∈ chain.symbols,
      CheckpointKey.Plain (uppercase symbol))
    (hchains : (s.chains.map fun chain => lowercase chain.name).Nodup)
    (hsymbols : ∀ chain ∈ s.chains,
      (chain.symbols.map fun symbol => lowercase (uppercase symbol)).Nodup) :
    s.streams.Pairwise CheckpointKey.Apart := by
  have hapart : ∀ chain ∈ s.chains, ∀ symbol ∈ chain.symbols, ∀ chain' ∈ s.chains,
      ∀ symbol' ∈ chain'.symbols,
      (lowercase chain.name ≠ lowercase chain'.name ∨
        lowercase (uppercase symbol) ≠ lowercase (uppercase symbol')) →
      CheckpointKey.Apart (CheckpointKey.stream chain.name (uppercase symbol))
        (CheckpointKey.stream chain'.name (uppercase symbol')) := by
    intro chain hc symbol hs chain' hc' symbol' hs' hne
    have hplain := hsymbol chain hc symbol hs
    have hplain' := hsymbol chain' hc' symbol' hs'
    refine ⟨?_, (hchain chain hc).stream_ne_lookback hplain,
      (hchain chain' hc').stream_ne_lookback hplain'⟩
    rwa [Ne, (hchain chain hc).stream_inj hplain, not_and_or]
  rw [streams, List.pairwise_flatMap]
  constructor
  · intro chain hc
    rw [ChainSettings.streams, List.pairwise_map]
    refine (List.pairwise_map.mp (hsymbols chain hc)).imp_of_mem ?_
    intro symbol symbol' hs hs' hne
    exact hapart chain hc symbol hs chain hc symbol' hs' (.inr hne)
  · refine (List.pairwise_map.mp hchains).imp_of_mem ?_
    intro chain chain' hc hc' hne n hn n' hn'
    obtain ⟨symbol, hs, rfl⟩ := List.mem_map.mp hn
    obtain ⟨symbol', hs', rfl⟩ := List.mem_map.mp hn'
    exact hapart chain hc symbol hs chain' hc' symbol' hs' (.inl hne)

end Settings

end ChainIngest
