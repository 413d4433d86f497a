import Mathlib.Data.List.Basic
import ChainIngest.Settings.Validation
import ChainIngest.ScanTask

/-! What it takes for settings to be accepted, and the tasks that accepted settings have. -/

namespace ChainIngest

section Sequences

variable {ε α β : Type} {f : α → Except ε β} {x : Except ε α}

theorem Except.bind_eq_ok : x.bind f = .ok b ↔ ∃ a, x = .ok a ∧ f a = .ok b := by
  cases x with
  | ok a => simp [Except.bind]
  | error e => simp [Except.bind]

theorem Except.bind_const_eq_ok {x : Except ε PUnit} {y : Except ε β} :
    x.bind (fun _ => y) = .ok b ↔ x = .ok () ∧ y = .ok b := by
  rw [bind_eq_ok]
  exact ⟨fun ⟨_, hx, hy⟩ => ⟨hx, hy⟩, fun ⟨hx, hy⟩ => ⟨(), hx, hy⟩⟩

theorem Except.mapError_eq_ok {g : ε → α} {y : Except ε β} :
    y.mapError g = .ok b ↔ y = .ok b := by
  cases y with
  | ok value => simp [Except.mapError]
  | error e => simp [Except.mapError]

theorem List.forM_eq_ok {f : α → Except ε PUnit} {as : List α} :
    as.forM f = .ok () ↔ ∀ a ∈ as, f a = .ok () := by
  induction as with
  | nil => simp [pure, Except.pure]
  | cons a as ih =>
    change (f a).bind (fun _ => as.forM f) = _ ↔ _
    rw [Except.bind_const_eq_ok, List.forall_mem_cons, ih]

/-- A run over a list succeeds if each step does, and `g` sees of the results what `k` says. -/
theorem List.exists_mapM {γ : Type} {g : β → γ} {k : α → γ} {as : List α}
    (h : ∀ a ∈ as, ∃ b, f a = .ok b ∧ g b = k a) :
    ∃ bs, as.mapM f = .ok bs ∧ bs.map g = as.map k := by
  induction as with
  | nil => exact ⟨[], rfl, rfl⟩
  | cons a as ih =>
    obtain ⟨⟨b, hb, hg⟩, has⟩ := List.forall_mem_cons.mp h
    obtain ⟨bs, hbs, hgs⟩ := ih has
    refine ⟨b :: bs, ?_, by rw [List.map_cons, List.map_cons, hg, hgs]⟩
    rw [List.mapM_cons, hb, hbs]
    rfl

end Sequences

/-- A text that is an address. -/
def Address.Readable (text : String) : Prop := ∃ a, Address.read text = .ok a

/-- What is asked of a chain by itself. -/
structure ChainSettings.Sound (chain : ChainSettings) : Prop where
  websocket : chain.headMode = .subscribe → chain.wsUrl.isSome
  nativeRange : ∀ native ∈ chain.native, native.scanRange ≠ 0
  tokens : ∀ token ∈ chain.tokens, Address.Readable token.address ∧ token.scanRange ≠ 0
  whitelist : ∀ text ∈ chain.whitelist, Address.Readable text

/-- What is asked of the settings of prices, among those of some chains. -/
structure PriceSettings.Sound (prices : PriceSettings) (chains : List ChainSettings) : Prop where
  chain : ∃ chain ∈ chains, chain.name = prices.chain
  primaryOracle : Address.Readable prices.primaryOracle
  referenceOracle : Address.Readable prices.referenceOracle
  pool : Address.Readable prices.pool
  fallback : ∃ d, Decimal.ofString? prices.fallbackTokenCents = .ok d

namespace Settings

variable {chain : ChainSettings} {chains : List ChainSettings} {prices : PriceSettings}

theorem require_eq_ok : require condition e = .ok () ↔ condition = true := by
  unfold require
  split
  · simpa
  · simp_all

theorem requireAddress_eq_ok : requireAddress text e = .ok () ↔ Address.Readable text := by
  unfold requireAddress Address.Readable
  split
  · simp_all
  · simp_all

theorem validateToken_eq_ok :
    validateToken name token = .ok () ↔
      Address.Readable token.address ∧ token.scanRange ≠ 0 := by
  change Except.bind _ (fun _ => require _ _) = _ ↔ _
  simp [Except.bind_const_eq_ok, requireAddress_eq_ok, require_eq_ok]

theorem validateChain_eq_ok :
    validateChain before chain = .ok () ↔ chain.name ∉ before ∧ chain.Sound := by
  change Except.bind _ (fun _ => Except.bind _ fun _ => Except.bind _ fun _ =>
    Except.bind (chain.tokens.forM _) fun _ => chain.whitelist.forM _) = _ ↔ _
  simp only [Except.bind_const_eq_ok, require_eq_ok, List.forM_eq_ok, validateToken_eq_ok,
    requireAddress_eq_ok]
  constructor
  · intro h
    obtain ⟨hname, hmode, hrange, htokens, hwhitelist⟩ := h
    refine ⟨by simpa using hname, ?_, by simpa [Option.all_eq_true] using hrange, htokens,
      hwhitelist⟩
    intro hsubscribe
    simpa [hsubscribe] using hmode
  · intro h
    obtain ⟨hname, hsound⟩ := h
    refine ⟨by simpa using hname, ?_, by simpa [Option.all_eq_true] using hsound.nativeRange,
      hsound.tokens, hsound.whitelist⟩
    by_cases hmode : chain.headMode = .subscribe
    · simp [hsound.websocket hmode]
    · simp [hmode]

/-- Chains are accepted if each is sound and has a name of its own. -/
theorem validateChains_eq_ok :
    validateChains before chains = .ok () ↔
      (∀ chain ∈ chains, chain.name ∉ before) ∧ (chains.map (·.name)).Nodup ∧
        ∀ chain ∈ chains, chain.Sound := by
  induction chains generalizing before with
  | nil => simp [validateChains]
  | cons chain rest ih =>
    change Except.bind _ (fun _ => validateChains (chain.name :: before) rest) = _ ↔ _
    rw [Except.bind_const_eq_ok]
    simp only [validateChain_eq_ok, ih, List.forall_mem_cons, List.map_cons, List.nodup_cons]
    simp only [List.mem_cons, not_or, List.mem_map, not_exists, not_and]
    constructor
    · intro h
      obtain ⟨⟨hname, hsound⟩, hrest, hnodup, hsounds⟩ := h
      exact ⟨⟨hname, fun c hc => (hrest c hc).2⟩, ⟨fun c hc => (hrest c hc).1, hnodup⟩, hsound,
        hsounds⟩
    · intro h
      obtain ⟨⟨hname, hbefore⟩, ⟨hother, hnodup⟩, hsound, hsounds⟩ := h
      exact ⟨⟨hname, hsound⟩, fun c hc => ⟨hother c hc, hbefore c hc⟩, hnodup, hsounds⟩

theorem validatePrices_eq_ok : validatePrices chains prices = .ok () ↔ prices.Sound chains := by
  change Except.bind _ (fun _ => Except.bind _ fun _ => Except.bind _ fun _ =>
    Except.bind _ fun _ => _) = _ ↔ _
  simp only [Except.bind_const_eq_ok, require_eq_ok, requireAddress_eq_ok, List.any_eq_true,
    beq_iff_eq]
  constructor
  · intro h
    obtain ⟨hchain, hprimary, hreference, hpool, hfallback⟩ := h
    refine ⟨hchain, hprimary, hreference, hpool, ?_⟩
    cases hread : Decimal.ofString? prices.fallbackTokenCents with
    | ok d => exact ⟨d, rfl⟩
    | error e =>
      rw [hread] at hfallback
      cases hfallback
  · intro h
    obtain ⟨d, hread⟩ := h.fallback
    refine ⟨h.chain, h.primaryOracle, h.referenceOracle, h.pool, ?_⟩
    rw [hread]

/-- Settings are accepted if their chains are, and their prices among these. -/
theorem validate_eq_ok {s : Settings} :
    s.validate = .ok () ↔ ((s.chains.map (·.name)).Nodup ∧ ∀ chain ∈ s.chains, chain.Sound) ∧
      s.prices.Sound s.chains := by
  have hchains : validateChains [] s.chains = .ok () ↔
      (s.chains.map (·.name)).Nodup ∧ ∀ chain ∈ s.chains, chain.Sound := by
    rw [validateChains_eq_ok]
    exact ⟨And.right, fun h => ⟨fun _ _ => List.not_mem_nil, h⟩⟩
  rw [← hchains, ← validatePrices_eq_ok]
  exact Except.bind_const_eq_ok

theorem validate_chains {s : Settings} (h : s.validate = .ok ()) :
    (s.chains.map (·.name)).Nodup ∧ ∀ chain ∈ s.chains, chain.Sound :=
  (validate_eq_ok.mp h).1

end Settings

end ChainIngest
