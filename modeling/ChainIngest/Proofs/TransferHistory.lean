import Mathlib.Data.List.Nodup
import ChainIngest.Proofs.LedgerGrowth
import ChainIngest.Store

/-!
The history of an asset: what is found in a store at any time, and in which order
(`Store.history_newest_first`). A sort that keeps ties in their order is determined by that, so
it may be exchanged with a selection, and a later start selects the first part of a history.
-/

namespace List

variable {α : Type} {le : α → α → Bool} {p : α → Bool} {a b : α} {l l' : List α}

/-- What is tied with `a` in an order. -/
def ties (le : α → α → Bool) (a : α) (l : List α) : List α := l.filter fun b => le a b && le b a

theorem mem_ties : b ∈ ties le a l ↔ b ∈ l ∧ le a b ∧ le b a := by simp [ties]

/-- Sorted lists that have the same ties in the same order are the same. -/
theorem eq_of_sorted_of_ties (hrefl : ∀ a, le a a) (hl : l.Pairwise fun a b => le a b)
    (hl' : l'.Pairwise fun a b => le a b) (hties : ∀ a, l.ties le a = l'.ties le a) : l = l' := by
  have hmem {a : α} {l l' : List α} (h : ∀ a, l.ties le a = l'.ties le a) (ha : a ∈ l) : a ∈ l' :=
    (mem_ties.mp (h a ▸ mem_ties.mpr ⟨ha, hrefl a, hrefl a⟩)).1
  induction l generalizing l' with
  | nil => exact (eq_nil_iff_forall_not_mem.mpr fun a ha =>
      not_mem_nil (hmem (fun a => (hties a).symm) ha)).symm
  | cons a rest ih =>
    cases l' with
    | nil => exact absurd (hmem hties mem_cons_self) not_mem_nil
    | cons b rest' =>
      -- Each head is in the other list, so the heads are tied, and each is the first of its ties.
      have hba : le b a := by
        rcases mem_cons.mp (hmem hties mem_cons_self) with rfl | ha
        · exact hrefl a
        · exact rel_of_pairwise_cons hl' ha
      have hab : le a b := by
        rcases mem_cons.mp (hmem (fun a => (hties a).symm) mem_cons_self) with rfl | hb
        · exact hrefl b
        · exact rel_of_pairwise_cons hl hb
      have hhead := hties a
      rw [ties, ties, filter_cons_of_pos (by simp [hrefl]),
        filter_cons_of_pos (by simp [hab, hba])] at hhead
      obtain ⟨rfl, -⟩ := cons.inj hhead
      refine congrArg (a :: ·) (ih hl.tail hl'.tail fun c => ?_)
      have hc := hties c
      rw [ties, ties, filter_cons, filter_cons] at hc
      split at hc
      · exact (cons.inj hc).2
      · exact hc

section Sorting

variable (htrans : ∀ a b c, le a b → le b c → le a c) (htotal : ∀ a b, le a b || le b a)
include htrans htotal

/-- Ties stay in their order. -/
theorem ties_mergeSort (l : List α) (a : α) : (l.mergeSort le).ties le a = l.ties le a := by
  have hsorted : (l.ties le a).Pairwise fun b c => le b c := by
    refine pairwise_of_forall_mem_list fun b hb c hc => ?_
    exact htrans b a c (mem_ties.mp hb).2.2 (mem_ties.mp hc).2.1
  have hsub : ((l.ties le a).ties le a).Sublist ((l.mergeSort le).ties le a) :=
    (sublist_mergeSort htrans htotal hsorted filter_sublist).filter _
  have htwice : (l.ties le a).ties le a = l.ties le a := by simp [ties, filter_filter]
  rw [htwice] at hsub
  exact (hsub.eq_of_length ((mergeSort_perm l le).filter _).length_eq.symm).symm

/-- What is selected may be selected before sorting or after. -/
theorem mergeSort_filter (p : α → Bool) (l : List α) :
    (l.filter p).mergeSort le = (l.mergeSort le).filter p := by
  have hrefl : ∀ a, le a a := fun a => by simpa using htotal a a
  have hcomm (l : List α) (a : α) : (l.filter p).ties le a = (l.ties le a).filter p := by
    rw [ties, ties, filter_comm]
  refine eq_of_sorted_of_ties hrefl (pairwise_mergeSort htrans htotal _)
    ((pairwise_mergeSort htrans htotal l).filter p) fun a => ?_
  rw [ties_mergeSort htrans htotal, hcomm, hcomm, ties_mergeSort htrans htotal]

end Sorting

/-- What holds of everything before an element that it holds of selects a first part. -/
theorem filter_prefix_of_pairwise (h : l.Pairwise fun a b => p b → p a) : l.filter p <+: l := by
  induction l with
  | nil => exact prefix_rfl
  | cons a rest ih =>
    obtain ⟨hhead, hrest⟩ := pairwise_cons.mp h
    rw [filter_cons]
    split
    · exact (prefix_cons_inj a).mpr (ih hrest)
    · next ha =>
      rw [filter_eq_nil_iff.mpr fun b hb hp => ha (hhead b hb hp)]
      exact nil_prefix

end List

namespace ChainIngest

namespace Text

/-- Texts of one-byte characters. -/
def Ascii (s : String) : Prop := ∀ c ∈ s.toList, c.toNat < 0x80

instance (s : String) : Decidable (Ascii s) := List.decidableBAll _ s.toList

theorem toList_toUpper (s : String) : s.toUpper.toList = s.toList.map Char.toUpper :=
  String.toList_map

theorem toList_toLower (s : String) : s.toLower.toList = s.toList.map Char.toLower :=
  String.toList_map

theorem uppercase_of_ascii {s : String} (h : Ascii s) : uppercase s = s.toUpper := by
  have hchars : ∀ cs : List Char, (∀ c ∈ cs, c.toNat < 0x80) →
      cs.flatMap Casing.upperChar = cs.map Char.toUpper := by
    intro cs hcs
    induction cs with
    | nil => rfl
    | cons c rest ih =>
      rw [List.flatMap_cons, ih fun d hd => hcs d (List.mem_cons_of_mem c hd), Casing.upperChar,
        if_pos (hcs c List.mem_cons_self)]
      rfl
  rw [← String.toList_inj, uppercase, String.toList_ofList, hchars _ h, toList_toUpper]

theorem toLower_lt (c : Char) : c.toLower.toNat < 0x80 ↔ c.toNat < 0x80 := by
  unfold Char.toLower
  split
  case isTrue h =>
    have h₁ : 'A'.val.toNat ≤ c.val.toNat := h.1
    have h₂ : c.val.toNat ≤ 'Z'.val.toNat := h.2
    simp only [Char.isValue, Char.reduceVal, UInt32.reduceToNat, Char.toNat_val, UInt32.reduceSub,
      Char.toNat_mk, UInt32.toNat_add, Nat.reducePow] at h₁ h₂ ⊢
    omega
  case isFalse => rfl

theorem Ascii.toUpper_toLower {s : String} (h : Ascii s) : s.toLower.toUpper = s.toUpper := by
  have hall : ∀ v : Fin 0x80, (Char.ofNat v).toLower.toUpper = (Char.ofNat v).toUpper := by decide
  rw [← String.toList_inj]
  simp only [toList_toUpper, toList_toLower, List.map_map]
  refine List.map_congr_left fun c hc => ?_
  simpa only [Char.ofNat_toNat, Function.comp_apply] using hall ⟨c.toNat, h c hc⟩

theorem Ascii.of_toLower_eq {s s' : String} (hs : Ascii s) (h : s'.toLower = s.toLower) :
    Ascii s' := by
  intro c hc
  have hmem : c.toLower ∈ s.toLower.toList := by
    rw [← h, toList_toLower]
    exact List.mem_map_of_mem hc
  rw [toList_toLower] at hmem
  obtain ⟨d, hd, heq⟩ := List.mem_map.mp hmem
  rw [← toLower_lt, ← heq, toLower_lt]
  exact hs d hd

end Text

namespace Ledger

/-! ### Histories -/

theorem newestFirst_iff :
    newestFirst t u ↔ u.block < t.block ∨ t.block = u.block ∧ u.index ≤ t.index := by
  simp [newestFirst]

theorem newestFirst_trans (a b c : Transfer) :
    newestFirst a b → newestFirst b c → newestFirst a c := by
  simp only [newestFirst_iff, UInt64.lt_iff_toNat_lt, UInt64.le_iff_toNat_le, ← UInt64.toNat_inj]
  omega

theorem newestFirst_total (a b : Transfer) : newestFirst a b || newestFirst b a := by
  rw [Bool.or_eq_true]
  simp only [newestFirst_iff, UInt64.lt_iff_toNat_lt, UInt64.le_iff_toNat_le, ← UInt64.toNat_inj]
  omega

variable {l : Ledger} {chainId block : UInt64} {symbol : String}

theorem since_perm : (l.since chainId symbol block).Perm (l.rows.filter fun t =>
    t.chainId == chainId && t.symbol == Text.uppercase symbol && block < t.block) :=
  List.mergeSort_perm ..

theorem mem_since : t ∈ l.since chainId symbol block ↔ t ∈ l.rows ∧ t.chainId = chainId ∧
    t.symbol = Text.uppercase symbol ∧ block < t.block := by
  rw [since_perm.mem_iff]
  simp [and_assoc]

theorem since_sorted : (l.since chainId symbol block).Pairwise fun t u => newestFirst t u :=
  List.pairwise_mergeSort newestFirst_trans newestFirst_total _

/-- Rows of which the first one inserted may come first do so. -/
theorem pair_sublist_since (ht : t ∈ l.since chainId symbol block)
    (hu : u ∈ l.since chainId symbol block) (htied : newestFirst t u)
    (hrows : [t, u].Sublist l.rows) : [t, u].Sublist (l.since chainId symbol block) := by
  have hwanted : ∀ v ∈ [t, u],
      (v.chainId == chainId && v.symbol == Text.uppercase symbol && block < v.block) := by
    intro v hv
    have hv : v ∈ l.since chainId symbol block := by
      rcases List.mem_pair.mp hv with rfl | rfl <;> assumption
    exact (List.mem_filter.mp (since_perm.mem_iff.mp hv)).2
  refine List.pair_sublist_mergeSort newestFirst_trans newestFirst_total htied ?_
  rw [← List.filter_eq_self.mpr hwanted]
  exact hrows.filter _

/-- A history from later on is a selection of the whole one. -/
theorem since_of_le (h : block ≤ later) : l.since chainId symbol later =
    (l.since chainId symbol block).filter (later < ·.block) := by
  rw [since, since, ← List.mergeSort_filter newestFirst_trans newestFirst_total, List.filter_filter]
  congr 2
  funext t
  rw [Bool.eq_iff_iff]
  simp only [Bool.and_eq_true, decide_eq_true_eq]
  have hlater : later < t.block → block < t.block := UInt64.lt_of_le_of_lt h
  tauto

theorem since_prefix (h : block ≤ later) :
    l.since chainId symbol later <+: l.since chainId symbol block := by
  rw [since_of_le h]
  refine List.filter_prefix_of_pairwise (since_sorted.imp fun {t u} htu => ?_)
  rw [newestFirst_iff] at htu
  simp only [decide_eq_true_eq, UInt64.lt_iff_toNat_lt, ← UInt64.toNat_inj] at htu ⊢
  omega

theorem claim_eq_some {id : TransferId} {claimed : Ledger} :
    l.claim id = some claimed ↔ id ∉ l.ids ∧ ⟨id :: l.ids, l.rows⟩ = claimed := by
  simp [claim]

/-- Of texts that differ in the case of letters, each finds the same. -/
theorem since_of_toLower_eq (hascii : Text.Ascii symbol) (h : symbol'.toLower = symbol.toLower) :
    l.since chainId symbol' block = l.since chainId symbol block := by
  have hascii' : Text.Ascii symbol' := hascii.of_toLower_eq h
  have hupper : Text.uppercase symbol' = Text.uppercase symbol := by
    rw [Text.uppercase_of_ascii hascii', Text.uppercase_of_ascii hascii, ← hascii'.toUpper_toLower,
      h, hascii.toUpper_toLower]
  rw [since, hupper, since]

end Ledger

namespace Store

/-! ### Stores at any time -/

/-- The stores that operations make of an empty one. Of the insertions of `pending`, which are under
way, the identities are taken and the rows are not there yet. -/
inductive Reachable : (pending : List Transfer) → Store → Prop
  | empty : Reachable [] .empty
  | read : Reachable pending s → Reachable pending (s.read key default).2
  | write : Reachable pending s → Reachable pending (s.write key value)
  | claim : Reachable pending s → s.ledger.claim t.id = some l →
      Reachable (t :: pending) { s with ledger := l }
  | append : Reachable pending s → t ∈ pending →
      Reachable (pending.erase t) { s with ledger := s.ledger.append t }
  | insertSnapshot : Reachable pending s → Reachable pending (s.insertSnapshot snapshot)
  | addRecipient : Reachable pending s → Reachable pending (s.addRecipient chainId address)

namespace Reachable

variable {pending : List Transfer} {s : Store}

theorem insertTransfer (h : Reachable pending s) (t : Transfer) :
    Reachable pending (s.insertTransfer t).2 := by
  cases hclaim : s.ledger.claim t.id with
  | none => simpa [Store.insertTransfer, Ledger.insert, hclaim] using h
  | some l =>
    simpa [Store.insertTransfer, Ledger.insert, hclaim] using
      (h.claim hclaim).append List.mem_cons_self

/-- No two rows, there or on their way, have one identity. -/
theorem ids_nodup (h : Reachable pending s) :
    ((pending ++ s.ledger.rows).map Transfer.id).Nodup ∧
      ∀ t ∈ pending ++ s.ledger.rows, t.id ∈ s.ledger.ids := by
  induction h with
  | empty => exact ⟨List.nodup_nil, by simp [Store.empty, Ledger.empty]⟩
  | read _ ih | write _ ih | insertSnapshot _ ih | addRecipient _ ih => exact ih
  | @claim pending s t l _ hclaim ih =>
    obtain ⟨hnodup, htaken⟩ := ih
    obtain ⟨hfree, rfl⟩ := Ledger.claim_eq_some.mp hclaim
    refine ⟨List.nodup_cons.mpr ⟨fun hmem => ?_, hnodup⟩, fun u hu => ?_⟩
    · obtain ⟨u, hu, heq⟩ := List.mem_map.mp hmem
      exact hfree (heq ▸ htaken u hu)
    · rcases List.mem_cons.mp hu with rfl | hu
      · exact List.mem_cons_self
      · exact List.mem_cons_of_mem _ (htaken u hu)
  | @append pending s t _ ht ih =>
    -- A row that arrives is no longer pending: nothing is added to both together.
    have hperm : (pending.erase t ++ (s.ledger.rows ++ [t])).Perm (pending ++ s.ledger.rows) :=
      calc (pending.erase t ++ (s.ledger.rows ++ [t])).Perm
            (pending.erase t ++ t :: s.ledger.rows) :=
            (List.perm_append_singleton t s.ledger.rows).append_left _
        List.Perm _ (t :: (pending.erase t ++ s.ledger.rows)) := List.perm_middle
        List.Perm _ (pending ++ s.ledger.rows) := (List.perm_cons_erase ht).symm.append_right _
    exact ⟨(hperm.map _).nodup_iff.mpr ih.1, fun u hu => ih.2 u (hperm.mem_iff.mp hu)⟩

theorem rows_nodup (h : Reachable pending s) : s.ledger.rows.Nodup :=
  (List.Nodup.of_map _ h.ids_nodup.1).of_append_right

end Reachable

/-- A history has each of the asset's rows after a block once and nothing else, the newest first,
and rows of one block and index in the order in which they were inserted. It is the same however the
symbol's letters are written, and a history from later on is its first part. -/
theorem history_newest_first {pending : List Transfer} {s : Store} (h : s.Reachable pending)
    (chainId : UInt64) {symbol : String} (hascii : Text.Ascii symbol) (block : UInt64) :
    let history := s.ledger.since chainId symbol block
    (∀ t, history.count t = if t ∈ s.ledger.rows ∧ t.chainId = chainId ∧
      t.symbol = symbol.toUpper ∧ block < t.block then 1 else 0) ∧
    (history.Pairwise fun t u => u.block < t.block ∨ t.block = u.block ∧ u.index ≤ t.index) ∧
    (∀ t ∈ history, ∀ u ∈ history, t.block = u.block → t.index = u.index →
      [t, u].Sublist s.ledger.rows → [t, u].Sublist history) ∧
    (∀ symbol' : String, symbol'.toLower = symbol.toLower →
      s.ledger.since chainId symbol' block = history) ∧
    ∀ later, block ≤ later → s.ledger.since chainId symbol later <+: history := by
  intro history
  refine ⟨fun t => ?once, ?sorted, fun t ht u hu hblock hindex hrows => ?ties,
    fun symbol' hcase => Ledger.since_of_toLower_eq hascii hcase,
    fun later hlater => Ledger.since_prefix hlater⟩
  case once =>
    have hnodup : history.Nodup :=
      (Ledger.since_perm.nodup_iff).mpr (h.rows_nodup.filter _)
    have hmem : t ∈ history ↔ t ∈ s.ledger.rows ∧ t.chainId = chainId ∧
        t.symbol = symbol.toUpper ∧ block < t.block := by
      rw [← Text.uppercase_of_ascii hascii]
      exact Ledger.mem_since
    simp only [hnodup.count, hmem]
  case sorted => exact Ledger.since_sorted.imp Ledger.newestFirst_iff.mp
  case ties =>
    have htied : Ledger.newestFirst t u :=
      Ledger.newestFirst_iff.mpr (.inr ⟨hblock, hindex ▸ UInt64.le_refl _⟩)
    exact Ledger.pair_sublist_since ht hu htied hrows

/-- A token transfer in block `block` with this index and transaction. -/
def sampleRow (block index : UInt64) (tx : UInt8) : Transfer where
  block
  index
  chainId := 1
  contract := .zero 20
  symbol := "SUPS"
  decimals := 18
  tx := ⟨tx :: List.replicate 31 0, by simp⟩
  sender := .zero 20
  recipient := .zero 20
  amount := 1
  timestamp := 0

/-- A store with two transfers of one block and index. -/
def sample : Store :=
  [sampleRow 3 0 1, sampleRow 9 0 2, sampleRow 6 1 3, sampleRow 9 0 4].foldl
    (fun s t => (s.insertTransfer t).2) .empty

theorem sample_reachable : sample.Reachable [] :=
  (((Reachable.empty.insertTransfer _).insertTransfer _).insertTransfer _).insertTransfer _

theorem sample_rows :
    sample.ledger.rows = [sampleRow 3 0 1, sampleRow 9 0 2, sampleRow 6 1 3, sampleRow 9 0 4] := by
  decide

/-- Two rows of one block and index, asked for in mixed case. -/
theorem sample_history :
    sample.Reachable [] ∧ Text.Ascii "sUPs" ∧
      (sample.ledger.since 1 "sUPs" 2).count (sampleRow 9 0 4) = 1 ∧
      [sampleRow 9 0 2, sampleRow 9 0 4].Sublist (sample.ledger.since 1 "sUPs" 2) ∧
      sample.ledger.since 1 "Sups" 2 = sample.ledger.since 1 "sUPs" 2 ∧
      sample.ledger.since 1 "sUPs" 6 <+: sample.ledger.since 1 "sUPs" 2 := by
  have hascii : Text.Ascii "sUPs" := by decide
  obtain ⟨honce, -, hties, hcase, hlater⟩ := history_newest_first sample_reachable 1 hascii 2
  have hsymbol : "SUPS" = "sUPs".toUpper := by
    rw [← String.toList_inj, Text.toList_toUpper]
    rfl
  have hfirst : (sample.ledger.since 1 "sUPs" 2).count (sampleRow 9 0 2) = 1 := by
    rw [honce, if_pos]
    exact ⟨by simp [sample_rows], rfl, hsymbol, by decide⟩
  have hsecond : (sample.ledger.since 1 "sUPs" 2).count (sampleRow 9 0 4) = 1 := by
    rw [honce, if_pos]
    exact ⟨by simp [sample_rows], rfl, hsymbol, by decide⟩
  have hrows : [sampleRow 9 0 2, sampleRow 9 0 4].Sublist sample.ledger.rows := by
    rw [sample_rows]
    decide
  have hletters : "Sups".toLower = "sUPs".toLower := by
    rw [← String.toList_inj, Text.toList_toLower, Text.toList_toLower]
    rfl
  refine ⟨sample_reachable, hascii, hsecond, ?_, hcase "Sups" hletters, hlater 6 (by decide)⟩
  exact hties (sampleRow 9 0 2) (List.count_pos_iff.mp (by rw [hfirst]; decide))
    (sampleRow 9 0 4) (List.count_pos_iff.mp (by rw [hsecond]; decide)) rfl rfl hrows

end Store

end ChainIngest
