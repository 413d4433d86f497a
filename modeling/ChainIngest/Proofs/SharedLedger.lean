import ChainIngest.Proofs.Fleet
import ChainIngest.Proofs.ExactlyOnce

/-! One ledger for all assets of a chain. A row is known by its transaction and an index, which is a
log's index for a token and the transaction's position for the native asset. Transfers of one asset
never stand in the way of another token's; a native transfer and a log of its own transaction do if
the two numbers meet. -/

namespace ChainIngest

/-- The contract that records of an asset name. -/
def Asset.contract : Asset → Address
  | .native => .zero 20
  | .token contract => contract

/-- A transaction's hash determines its block and position, no two transactions of a block have one
position, and no two logs of a block have one index. -/
structure ChainHistory.Consistent (d : ChainHistory) : Prop where
  transaction : ∀ {n n' tx tx'}, tx ∈ (d.blocks n).transactions →
    tx' ∈ (d.blocks n').transactions → tx.hash = tx'.hash → n = n' ∧ tx.position = tx'.position
  position : ∀ {n tx tx'}, tx ∈ (d.blocks n).transactions → tx' ∈ (d.blocks n).transactions →
    tx.position = tx'.position → tx = tx'
  logBlock : ∀ {a a' log log' b b' hash}, d.logs a log → d.logs a' log' → log.block = some b →
    log'.block = some b' → log.tx = some hash → log'.tx = some hash → b = b'
  logTransaction : ∀ {a log b n tx}, d.logs a log → tx ∈ (d.blocks n).transactions →
    log.block = some b → log.tx = some tx.hash → b = n
  logIndex : ∀ {a a' log log' b i}, d.logs a log → d.logs a' log' → log.block = some b →
    log'.block = some b → log.index = some i → log'.index = some i → a = a' ∧ log = log'

namespace ChainHistory

variable {d : ChainHistory} {s s' : Scraper} {t u : Transfer}

theorem Sought.contract (H : d.Sought s t) : t.contract = s.task.asset.contract := by
  unfold Sought at H
  cases hasset : s.task.asset with
  | native =>
    rw [hasset] at H
    obtain ⟨_, _, _, _, _, _, _, _, rfl⟩ := H
    rfl
  | token contract =>
    rw [hasset] at H
    obtain ⟨_, _, _, _, _, _, _, _, _, rfl⟩ := H
    rfl

/-- A native transfer is determined by its identity. -/
theorem Consistent.native_eq {wanted : Address → Prop} (hd : d.Consistent)
    (ht : s.IsNativeRecord d.blocks wanted t) (hu : s.IsNativeRecord d.blocks wanted u)
    (hid : u.id = t.id) : u = t := by
  obtain ⟨n, tx, _, sender, htx, -, -, hsender, rfl⟩ := ht
  obtain ⟨n', tx', _, sender', htx', -, -, hsender', rfl⟩ := hu
  obtain ⟨-, hhash, hposition⟩ := TransferId.mk.inj hid
  obtain ⟨rfl, -⟩ := hd.transaction htx' htx hhash
  obtain rfl := hd.position htx' htx hposition
  obtain rfl := Option.some.inj (hsender.symm.trans hsender')
  rfl

/-- The transfers of all tokens are told apart by their identities. -/
theorem Consistent.token_eq {a a' : Address} (hd : d.Consistent)
    (ht : s.IsTokenRecord (d.logs a) (fun block time => time = d.time block) a t)
    (hu : s'.IsTokenRecord (d.logs a') (fun block time => time = d.time block) a' u)
    (hid : u.id = t.id) : a' = a ∧ (s' = s → u = t) := by
  obtain ⟨log, block, index, tx, event, time, hlog, hshows, htime, rfl⟩ := ht
  obtain ⟨log', block', index', tx', event', time', hlog', hshows', htime', rfl⟩ := hu
  obtain ⟨-, htx, hindex⟩ := TransferId.mk.inj hid
  obtain rfl : tx' = tx := htx
  obtain rfl : index' = index := hindex
  obtain rfl := hd.logBlock hlog' hlog hshows'.block hshows.block hshows'.tx hshows.tx
  obtain ⟨rfl, rfl⟩ := hd.logIndex hlog' hlog hshows'.block hshows.block hshows'.index hshows.index
  refine ⟨rfl, fun hs => ?_⟩
  subst hs
  obtain rfl := Option.some.inj (hshows.event.symm.trans hshows'.event)
  have heq : time' = time := by
    rcases htime with htime | ⟨hnone, htime⟩ <;> rcases htime' with htime' | ⟨hnone', htime'⟩
    · exact Option.some.inj (htime'.symm.trans htime)
    · cases htime.symm.trans hnone'
    · cases htime'.symm.trans hnone
    · exact htime'.trans htime.symm
  rw [heq]

/-- Only a native transfer and a token's can have one identity. -/
theorem Consistent.eq_or_mixed {F : Fleet} (hd : d.Consistent) (hs : s ∈ F.scrapers)
    (hs' : s' ∈ F.scrapers) (ht : d.Sought s t) (hu : d.Sought s' u) (hid : u.id = t.id) :
    u = t ∨ (s.task.asset = .native ↔ s'.task.asset ≠ .native) := by
  unfold Sought at ht hu
  cases hasset : s.task.asset with
  | native =>
    cases hasset' : s'.task.asset with
    | native =>
      obtain rfl := F.asset_inj s hs s' hs' (hasset.trans hasset'.symm)
      rw [hasset] at ht hu
      exact .inl (hd.native_eq ht hu hid)
    | token => exact .inr (by simp)
  | token a =>
    cases hasset' : s'.task.asset with
    | native => exact .inr (by simp)
    | token a' =>
      rw [hasset] at ht
      rw [hasset'] at hu
      obtain ⟨rfl, heq⟩ := hd.token_eq ht hu hid
      exact .inl (heq (F.asset_inj s' hs' s hs (hasset'.trans hasset.symm)))

end ChainHistory

/-- Whatever the order of the ticks of a chain's scrapers, once all have caught up there is exactly
one row with the identity of each transfer: the transfer's own record, unless a native transfer and
a token's have that identity both; then it is the record of one of the two. -/
theorem Fleet.transfers_share_ledger {F : Fleet} {d : ChainHistory} (hd : d.Consistent)
    {top : UInt64} {w₀ w : Surroundings} {trace : List (Scraper × TickOutcome)}
    (hcheckpoints : w₀.store.checkpoints = .empty) (hledger : w₀.store.ledger = .empty)
    (hfree : ∀ s ∈ F.scrapers, w₀.held s.guard = false)
    (hview : ∀ s ∈ F.scrapers, d.View s w₀.chains w₀.store.recipients)
    (hrun : F.Run (· ≤ top) w₀ trace w)
    (hcaught : ∀ s ∈ F.scrapers, ∃ o, (s, o) ∈ trace ∧ o.caughtUp ∧ o.head = top) :
    ∀ s ∈ F.scrapers, ∀ t, d.Sought s t → s.task.startBlock ≤ t.block →
      s.task.asset.Reaches top t.block → t.contract = s.task.asset.contract ∧
      ∃ u ∈ w.store.ledger.rows, u.id = t.id ∧
        (∀ v ∈ w.store.ledger.rows, v.id = t.id → v = u) ∧
        (u = t ∨ ∃ s' ∈ F.scrapers, d.Sought s' u ∧
          (s.task.asset = .native ↔ s'.task.asset ≠ .native)) := by
  intro s hs t hsought hstart hreach
  have hstanding : F.Standing d (· ≤ top) top (·.task.startBlock) w₀ :=
    .at_start hcheckpoints hledger hfree hview UInt64.zero_le
  obtain ⟨⟨cs, H⟩, hcovered⟩ := hstanding.of_run (fun _ h => h) hrun
  obtain ⟨o, hmem, hdone, hhead⟩ := hcaught s hs
  have hid : t.id ∈ w.store.ledger.ids := hcovered s o hmem hdone hhead t hsought
    (UInt64.le_trans (Height.subFloored_le ..) hstart) hreach
  rcases (H.grows.ids t.id).mp hid with hempty | ⟨u, hu, huid⟩
  · cases hempty
  obtain ⟨s', hs', hsought'⟩ := H.sound u hu
  refine ⟨hsought.contract, u, hu, huid, fun v hv hvid => ?_, ?_⟩
  · exact List.inj_on_of_nodup_map H.grows.nodup hv hu (hvid.trans huid.symm)
  · exact (hd.eq_or_mixed hs hs' hsought hsought' huid).imp_right fun hmixed =>
      ⟨s', hs', hsought', hmixed⟩

/-- A native and a token scraper of one chain. -/
def Fleet.sample : Fleet where
  chain := "mainnet"
  chainId := 1
  node := 0
  scrapers := [.sampleNative, .sampleToken]
  chain_eq := by simp [Scraper.sampleNative, Scraper.sampleToken]
  chainId_eq := by simp [Scraper.sampleNative, Scraper.sampleToken]
  node_eq := by simp [Scraper.sampleNative, Scraper.sampleToken]
  range_pos := by decide
  index_inj := by simp [Scraper.sampleNative, Scraper.sampleToken]
  asset_inj := by simp [Scraper.sampleNative, Scraper.sampleToken]
  keys_disjoint := by
    have hkeys : ∀ key ∈ Scraper.sampleNative.task.keys, key ∉ Scraper.sampleToken.task.keys := by
      decide
    intro s hs s' hs' hne
    rcases List.mem_pair.mp hs with rfl | rfl <;> rcases List.mem_pair.mp hs' with rfl | rfl
    · exact absurd rfl hne
    · exact fun key h h' => hkeys key h h'
    · exact fun key h h' => hkeys key h' h
    · exact absurd rfl hne

/-- Every block's one transaction is at position 0, and so are the logs of the zero address. -/
def ChainHistory.sample : ChainHistory where
  blocks := Surroundings.sample.chains.block 0
  logs contract log := contract = .zero 20 ∧ ∃ block ∈ [7, 9, 29, 30], log = .sample block
  time := Surroundings.sample.chains.blockTime 0
  wanted := (· = .zero 20)
  number_eq := Surroundings.sample_number

theorem ChainHistory.sample_consistent : sample.Consistent where
  transaction {n n' tx tx'} htx htx' hhash := by
    obtain rfl := List.mem_singleton.mp htx
    obtain rfl := List.mem_singleton.mp htx'
    exact ⟨Hash.sample_inj hhash, rfl⟩
  position {n tx tx'} htx htx' _ :=
    (List.mem_singleton.mp htx).trans (List.mem_singleton.mp htx').symm
  logBlock := by
    intro a a' log log' b b' hash hlog hlog' hblock hblock' htx htx'
    obtain ⟨-, n, -, rfl⟩ := hlog
    obtain ⟨-, n', -, rfl⟩ := hlog'
    obtain rfl := Option.some.inj hblock
    obtain rfl := Option.some.inj hblock'
    exact Hash.sample_inj (Option.some.inj (htx.trans htx'.symm))
  logTransaction := by
    intro a log b n tx hlog htx hblock hhash
    obtain ⟨-, n', -, rfl⟩ := hlog
    obtain rfl := List.mem_singleton.mp htx
    obtain rfl := Option.some.inj hblock
    exact Hash.sample_inj (Option.some.inj hhash)
  logIndex := by
    intro a a' log log' b i hlog hlog' hblock hblock' _ _
    obtain ⟨rfl, n, -, rfl⟩ := hlog
    obtain ⟨rfl, n', -, rfl⟩ := hlog'
    obtain rfl := Option.some.inj (hblock.trans hblock'.symm)
    exact ⟨rfl, rfl⟩

/-- The surroundings of the sample with nothing in the store. -/
def Surroundings.emptySample : Surroundings := { Surroundings.sample with store := .empty }

theorem ChainHistory.sample_view :
    ∀ s ∈ Fleet.sample.scrapers, sample.View s Surroundings.emptySample.chains [] := by
  intro s hs
  rcases List.mem_pair.mp hs with rfl | rfl
  · exact ⟨fun _ => rfl, fun a => by simp [Scraper.sampleNative, sample]⟩
  · refine ⟨fun first last log block hblock => ?_, fun _ => rfl⟩
    refine (Stream.sampleToken_begins.view.1 first last log block hblock).trans ?_
    exact and_congr_left' (and_iff_right rfl).symm

theorem Fleet.sample_standing :
    Fleet.sample.Standing .sample (· ≤ 30) 30 (·.task.startBlock) .emptySample :=
  .at_start rfl rfl (fun _ _ => rfl) ChainHistory.sample_view UInt64.zero_le

theorem Fleet.sample_run : ∃ trace w, Fleet.sample.Run (· ≤ 30) .emptySample trace w ∧
    ∀ s ∈ Fleet.sample.scrapers, ∃ o, (s, o) ∈ trace ∧ o.caughtUp ∧ o.head = 30 := by
  have hdrift : (Fleet.sample.conduct (· ≤ 30)).drift .emptySample
      (Surroundings.emptySample.afterWrite (CheckpointKey.head "mainnet") 30) :=
    .inr ⟨30, UInt64.le_refl _, rfl⟩
  have hstanding : Fleet.sample.Standing .sample (· = 30) 30 (·.task.startBlock) _ :=
    (Fleet.sample_standing.drift hdrift).of_head (Checkpoints.holds_put ..).height? rfl
  obtain ⟨trace, w, hrun, hcaught⟩ := hstanding.exists_all_caughtUp
  have hmono : ∀ height : UInt64, height = 30 → height ≤ 30 := by
    intro height hheight
    rw [hheight]
    exact UInt64.le_refl _
  refine ⟨_, w, (Run.drift .start hdrift).trans (hrun.mono hmono), ?_⟩
  rwa [List.append_nil]

/-- The transaction of block 29, as the native scraper records it. -/
theorem Fleet.sample_native_sought :
    ChainHistory.sample.Sought .sampleNative
      (.ofNative Scraper.sampleNative.assetName ⟨29, 0, .sample 29, 29⟩ (.zero 20) (some (.zero 20))
        1) :=
  ⟨29, _, .zero 20, .zero 20, List.mem_singleton.mpr rfl, rfl, rfl, rfl, rfl⟩

/-- The log of block 29, as the token scraper records it. -/
theorem Fleet.sample_token_sought :
    ChainHistory.sample.Sought .sampleToken
      (.ofEvent Scraper.sampleToken.assetName (.zero 20) ⟨29, 0, .sample 29, 29⟩
        ⟨.ofTopic (.zero 32), .ofTopic (.zero 32), wordOfBytes (List.replicate 32 0)⟩) :=
  ⟨_, 29, 0, _, _, 29, ⟨rfl, 29, by simp, rfl⟩, EventLog.sample_shows 29, .inr ⟨rfl, rfl⟩, rfl⟩

/-- The transaction of block 29 and its log get one row between them. -/
theorem Fleet.sample_shares_ledger :
    ∃ trace w, Fleet.sample.Run (· ≤ 30) .emptySample trace w ∧
      ∃ u ∈ w.store.ledger.rows, u.id = ⟨1, .sample 29, 0⟩ ∧
        ∀ v ∈ w.store.ledger.rows, v.id = ⟨1, .sample 29, 0⟩ → v = u := by
  obtain ⟨trace, w, hrun, hcaught⟩ := Fleet.sample_run
  obtain ⟨-, u, hu, hid, hunique, -⟩ := Fleet.transfers_share_ledger ChainHistory.sample_consistent
    rfl rfl (fun _ _ => rfl) ChainHistory.sample_view hrun hcaught .sampleToken
    (List.mem_pair.mpr (.inr rfl)) _ Fleet.sample_token_sought (by decide) (by decide)
  exact ⟨trace, w, hrun, u, hu, hid, hunique⟩

/-- A native transfer and a token's can stand in each other's way: however the two scrapers of the
sample take turns until they have caught up, one of the two transfers of block 29 has no row. -/
theorem Fleet.clash_loses_transfer :
    ChainHistory.sample.Consistent ∧
      (∀ s ∈ Fleet.sample.scrapers,
        ChainHistory.sample.View s Surroundings.emptySample.chains []) ∧
      (∃ trace w, Fleet.sample.Run (· ≤ 30) .emptySample trace w ∧
        ∀ s ∈ Fleet.sample.scrapers, ∃ o, (s, o) ∈ trace ∧ o.caughtUp ∧ o.head = 30) ∧
      ∀ trace w, Fleet.sample.Run (· ≤ 30) .emptySample trace w →
        ∃ s ∈ Fleet.sample.scrapers, ∃ t, ChainHistory.sample.Sought s t ∧
          s.task.startBlock ≤ t.block ∧ s.task.asset.Reaches 30 t.block ∧
          t ∉ w.store.ledger.rows := by
  refine ⟨ChainHistory.sample_consistent, ChainHistory.sample_view, Fleet.sample_run, ?_⟩
  intro trace w hrun
  obtain ⟨⟨cs, H⟩, -⟩ := Fleet.sample_standing.of_run (fun _ h => h) hrun
  by_contra! hall
  have hnative := hall .sampleNative (List.mem_pair.mpr (.inl rfl)) _ Fleet.sample_native_sought
    (by decide) (by decide)
  have htoken := hall .sampleToken (List.mem_pair.mpr (.inr rfl)) _ Fleet.sample_token_sought
    (by decide) (by decide)
  have heq := List.inj_on_of_nodup_map H.grows.nodup hnative htoken rfl
  exact absurd (congrArg Transfer.amount heq) (by decide)

end ChainIngest
