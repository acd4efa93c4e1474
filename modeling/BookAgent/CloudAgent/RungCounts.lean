import BookAgent.CloudAgent.SpentHoldings
import BookAgent.CloudAgent.SplitWorker
import Mathlib.Data.List.Flatten

/-!
# Rungs that are counted

A rung of a committed split is counted first through the entry recorded for it, then through
the watcher or a snapshot. Between these hand-overs it is never missing from
`count_in_band`, up to the largest count there is. The change of a split is not a rung: it
is not counted before the watcher or a snapshot brings it.
-/

namespace BookAgent.CloudAgent

open BookAgent.Lib

variable {D : Type}

/-! ## Runs -/

/-- A split as it was recorded, with the contracts that came of it. -/
structure RecordedSplit (D : Type) where
  instrument : String
  splits : List (D × Nat)
  rungs : List String
  change : List String
  recordedAt : Instant

/-- All contracts the split created. -/
def RecordedSplit.outputs (s : RecordedSplit D) : List String := s.rungs ++ s.change

/-- The entries recorded for the split. -/
def RecordedSplit.entries (s : RecordedSplit D) : List (PendingSplit D) :=
  s.splits.map fun d => ⟨s.instrument, d.1, d.2, s.recordedAt⟩

/-- The instrument and the amount of each contract. -/
abbrev Contracts := String → String × ℚ

inductive RungEvent (D : Type)
  /-- The watcher, a complete or truncated snapshot, a commit or a reservation. -/
  | holdings (e : CacheEvent D)
  | recordPendingSplit (instrument : String) (splits : List (D × Nat)) (rungs change : List String)
  | clearPendingSplitsBefore (snapshotStart : Instant)

/-- The cache with what the run has done to it: the splits recorded, the ids of the latest
complete snapshot and its start, and the ids seen consumed. -/
structure RungRun (D : Type) where
  cache : SplitCache D
  clock : Instant
  recorded : List (RecordedSplit D)
  lastStart : Option Instant
  listed : List String
  seenConsumed : List String

/-- The ids a complete snapshot lists. -/
def CacheEvent.lists : CacheEvent D → Option (List String)
  | .refresh holdings _ => some (holdings.map CachedHolding.contractId)
  | _ => none

namespace RungRun

def fresh (splitterReserveEnabled : Bool) (thresholds : Pool String D) : RungRun D :=
  ⟨⟨(HoldingsCache.new splitterReserveEnabled).setDustThresholds thresholds, [], ∅⟩, 0, [], none,
    [], []⟩

def apply (w : RungRun D) (e : RungEvent D × Instant) : RungRun D :=
  match e.1 with
  | .holdings event =>
    { w with
      cache := { w.cache with holdings := w.cache.holdings.apply event }
      clock := e.2
      lastStart := event.started.or w.lastStart
      listed := event.lists.getD w.listed
      seenConsumed := event.marks ++ w.seenConsumed }
  | .recordPendingSplit instrument splits rungs change =>
    { w with
      cache := w.cache.recordPendingSplit instrument splits e.2
      clock := e.2
      recorded := w.recorded ++ [⟨instrument, splits, rungs, change, e.2⟩] }
  | .clearPendingSplitsBefore snapshotStart =>
    { w with cache := w.cache.clearPendingSplitsBefore snapshotStart, clock := e.2 }

/-- An entry expires only after a complete snapshot that started later. -/
def ExpiresLate (w : RungRun D) (now : Instant) : Prop :=
  ∀ p ∈ w.cache.pendingSplits, p.isExpired now = true → ∃ start ∈ w.lastStart, p.recordedAt < start

end RungRun

section Promises

variable [Decimal D]

/-- The entry has the instrument and the amount of its contract. -/
def Carries (data : Contracts) (h : CachedHolding D) : Prop :=
  data h.contractId = (h.instrument, Decimal.value h.amount)

/-- The outputs exist when the split is recorded, and the rungs are the recorded ones. -/
structure RecordedSplit.Committed (ledger : Ledger) (data : Contracts) (s : RecordedSplit D) :
    Prop where
  created : ∀ cid ∈ s.outputs, ∃ life, ledger cid = some life ∧ life.created ≤ s.recordedAt
  rungs : (s.rungs.map data).Perm
    (s.splits.flatMap fun d => List.replicate d.2 (s.instrument, Decimal.value d.1))

/-- What the ledger and the callers promise: entries carry the data of their contracts, a
complete snapshot has every holding that is live at a moment between its start and now,
snapshots come in the order they started, and the pending entries are cleared after them. -/
def RungRun.Allowed (ledger : Ledger) (data : Contracts) (w : RungRun D)
    (e : RungEvent D × Instant) : Prop :=
  w.clock ≤ e.2 ∧ w.ExpiresLate e.2 ∧
    match e.1 with
    | .holdings (.addCreated holdings) => ∀ h ∈ holdings, Carries data h
    | .holdings (.refresh holdings snapshotStart) =>
      (∀ start ∈ w.lastStart, start ≤ snapshotStart) ∧ (∀ h ∈ holdings, Carries data h) ∧
        ∃ moment, snapshotStart ≤ moment ∧ moment ≤ e.2 ∧
          ∀ cid, ledger.Active moment cid → cid ∈ holdings.map CachedHolding.contractId
    | .holdings _ => True
    | .recordPendingSplit instrument splits rungs change =>
      RecordedSplit.Committed ledger data ⟨instrument, splits, rungs, change, e.2⟩
    | .clearPendingSplitsBefore snapshotStart => ∃ start ∈ w.lastStart, snapshotStart ≤ start

/-- The splitter reserve that `count_in_band` leaves out. -/
def SplitCache.splitterCid (c : SplitCache D) (now : Instant) (instrument : String) :
    Option String :=
  if c.holdings.splitterReserveEnabled then c.holdings.splitterReserveCid now instrument else none

/-- A live holding in the band, not the splitter reserve and not seen consumed, that the
agent knows of: a snapshot listed it, or it is one of those that `created` names. -/
structure Owed (ledger : Ledger) (data : Contracts) (created : RecordedSplit D → List String)
    (w : RungRun D) (instrument : String) (lo hi : D) (now : Instant) (cid : String) : Prop where
  live : ledger.Active now cid
  ofInstrument : (data cid).1 = instrument
  above : Decimal.value lo ≤ (data cid).2
  under : (data cid).2 < Decimal.value hi
  notReserve : some cid ≠ w.cache.splitterCid now instrument
  unspent : cid ∉ w.seenConsumed
  known : cid ∈ w.listed ∨ ∃ s ∈ w.recorded, cid ∈ created s

/-- From the first complete snapshot on, the count in each band is at least what `bound`
leaves of the number of holdings owed. -/
def NeverMisses (D : Type) [Decimal D] (created : RecordedSplit D → List String)
    (bound : Nat → Nat) : Prop :=
  ∀ (ledger : Ledger) (data : Contracts) (splitterReserveEnabled : Bool)
    (thresholds : Pool String D) (w : RungRun D),
    Reachable (RungRun.Allowed ledger data) RungRun.apply
      (RungRun.fresh splitterReserveEnabled thresholds) w → w.lastStart.isSome →
    ∀ (instrument : String) (lo hi : D) (now : Instant), w.clock ≤ now → w.ExpiresLate now →
    ∀ cids : List String, cids.Nodup →
      (∀ cid ∈ cids, Owed ledger data created w instrument lo hi now cid) →
      bound cids.length ≤ w.cache.countInBand instrument lo hi now

end Promises

/-! ## The entries -/

/-- The holdings an event enters. -/
def CacheEvent.enters : CacheEvent D → List (CachedHolding D)
  | .addCreated holdings | .refresh holdings _ => holdings
  | _ => []

section Entries

variable [Decimal D] {data : Contracts} {c : HoldingsCache D}

theorem carries_insertAll {p : Pool String (CachedHolding D)} {holdings : List (CachedHolding D)}
    (hp : ∀ cid g, p.lookup cid = some g → Carries data g) (hnew : ∀ g ∈ holdings, Carries data g) :
    ∀ cid g, (p.insertAll (byContractId holdings)).lookup cid = some g → Carries data g := by
  intro cid g hg
  rcases Pool.lookup_insertAll hg with hmem | hold
  · obtain ⟨g', hg', heq⟩ := List.mem_map.mp hmem
    obtain ⟨-, rfl⟩ := Prod.mk.inj heq
    exact hnew g' hg'
  · exact hp cid g hold

/-- Entries carry the data of their contracts as long as those entered do. -/
theorem carries_apply (h : ∀ cid g, c.available.lookup cid = some g → Carries data g)
    {e : CacheEvent D} (hnew : ∀ g ∈ e.enters, Carries data g) :
    ∀ cid g, (c.apply e).available.lookup cid = some g → Carries data g := by
  intro cid g hg
  cases e with
  | addCreated holdings => exact carries_insertAll h hnew cid g hg
  | refresh holdings snapshotStart =>
    rcases Pool.lookup_insertAll hg with hmem | hold
    · refine carries_insertAll (fun cid g hempty => ?_) hnew cid g (Pool.mem_toPairs.mp hmem)
      rw [AList.lookup_empty] at hempty
      cases hempty
    · exact h cid g (Pool.lookup_retain_eq_some.mp hold).1
  | reserve cids kind now => exact h cid g ((CacheRun.reserve_pools c cids kind now).1 ▸ hg)
  | markConsumed | release | restore | cleanup => exact h cid g hg

end Entries

/-! ## The invariant -/

namespace RungRun

/-- No complete snapshot started after the split was recorded. -/
def unconfirmed (w : RungRun D) (s : RecordedSplit D) : Bool :=
  w.lastStart.all fun start => decide (start ≤ s.recordedAt)

/-- What the splits without a later snapshot have recorded. -/
def kept (w : RungRun D) : List (PendingSplit D) :=
  (w.recorded.filter w.unconfirmed).flatMap RecordedSplit.entries

/-- Where each holding that is owed is counted: a listed one is available; the outputs of a
split are listed once a snapshot started after it, and its entries are there until then. -/
structure Counted [Decimal D] (ledger : Ledger) (data : Contracts) (w : RungRun D) : Prop where
  listed : ∀ cid ∈ w.listed, cid ∈ w.cache.holdings.available
  carries : ∀ cid h, w.cache.holdings.available.lookup cid = some h → Carries data h
  consumed : ∀ cid ∈ w.cache.holdings.consumed, cid ∈ w.seenConsumed
  committed : ∀ s ∈ w.recorded, s.Committed ledger data
  started : ∀ start ∈ w.lastStart, start ≤ w.clock
  confirmed : ∀ s ∈ w.recorded, w.unconfirmed s = false → ∀ cid ∈ s.outputs, ∀ t ≥ w.clock,
    ledger.Active t cid → cid ∈ w.listed
  pending : w.kept.Sublist w.cache.pendingSplits

variable [Decimal D] {ledger : Ledger} {data : Contracts} {w : RungRun D} {now : Instant}

omit [Decimal D] in
theorem recordedAt_of_mem_kept {p : PendingSplit D} (hp : p ∈ w.kept) :
    ∀ start ∈ w.lastStart, start ≤ p.recordedAt := by
  obtain ⟨s, hs, hp⟩ := List.mem_flatMap.mp hp
  obtain ⟨d, -, rfl⟩ := List.mem_map.mp hp
  have := (List.mem_filter.mp hs).2
  intro start hstart
  unfold unconfirmed at this
  rw [Option.mem_def.mp hstart] at this
  exact of_decide_eq_true this

/-- What is kept has not expired. -/
theorem Counted.not_isExpired_of_mem_kept (h : Counted ledger data w) (hlate : w.ExpiresLate now)
    {p : PendingSplit D} (hp : p ∈ w.kept) : p.isExpired now = false := by
  by_contra hexpired
  obtain ⟨start, hstart, hlt⟩ := hlate p (h.pending.subset hp) (by simpa using hexpired)
  exact absurd (recordedAt_of_mem_kept hp start hstart) (Nat.not_le_of_gt hlt)

/-- A pool that changes its entries for others keeps what is counted. -/
theorem Counted.of_pools (h : Counted ledger data w) {holdings : HoldingsCache D}
    {seen : List String} (hnow : w.clock ≤ now)
    (havailable : ∀ cid ∈ w.listed, cid ∈ holdings.available)
    (hcarries : ∀ cid h, holdings.available.lookup cid = some h → Carries data h)
    (hconsumed : ∀ cid ∈ holdings.consumed, cid ∈ seen) :
    Counted ledger data { w with cache := { w.cache with holdings }, clock := now,
                                 seenConsumed := seen } :=
  { h with
    listed := havailable
    carries := hcarries
    consumed := hconsumed
    started := fun start hstart => (h.started start hstart).trans hnow
    confirmed := fun s hs hconf cid hcid t ht => h.confirmed s hs hconf cid hcid t (hnow.trans ht) }

theorem counted_fresh (ledger : Ledger) (data : Contracts) (splitterReserveEnabled : Bool)
    (thresholds : Pool String D) : Counted ledger data (fresh splitterReserveEnabled thresholds) where
  listed cid hcid := absurd hcid List.not_mem_nil
  carries cid h hlookup := by
    have empty : AList.lookup cid (∅ : Pool String (CachedHolding D)) = some h := hlookup
    rw [AList.lookup_empty] at empty
    cases empty
  consumed cid hcid := absurd hcid (AList.notMem_empty cid)
  committed s hs := absurd hs List.not_mem_nil
  started start hstart := nomatch hstart
  confirmed s hs := absurd hs List.not_mem_nil
  pending := List.Sublist.slnil

/-- A complete snapshot lists every output that is still live of the splits before it. -/
theorem Counted.refresh (h : Counted ledger data w) {holdings : List (CachedHolding D)}
    {snapshotStart : Instant}
    (hallowed : w.Allowed ledger data (.holdings (.refresh holdings snapshotStart), now)) :
    Counted ledger data (w.apply (.holdings (.refresh holdings snapshotStart), now)) := by
  obtain ⟨hnow, -, horder, hcarries, moment, hstart, hmoment, hlive⟩ := hallowed
  refine ⟨fun cid hcid => HoldingsCache.mem_available_refresh.mpr (.inl hcid), ?_, ?_, h.committed,
    ?_, ?_, ?_⟩
  · exact carries_apply h.carries (e := .refresh holdings snapshotStart) hcarries
  · intro cid hcid
    exact List.mem_append_right _ (h.consumed cid (HoldingsCache.mem_consumed_refresh.mp hcid).1)
  · intro start hs
    obtain rfl := Option.some.inj hs
    exact hstart.trans hmoment
  · intro s hs hconf cid hcid t ht hactive
    have before : s.recordedAt < snapshotStart := by
      have hconf : decide (snapshotStart ≤ s.recordedAt) = false := hconf
      exact Nat.lt_of_not_le (of_decide_eq_false hconf)
    obtain ⟨life, hlife, hcreated⟩ := (h.committed s hs).created cid hcid
    obtain ⟨life', hlife', -, harchived⟩ := hactive
    obtain rfl := Option.some.inj (hlife.symm.trans hlife')
    exact hlive cid ⟨life, hlife, hcreated.trans (before.le.trans hstart), fun archived ha =>
      (hmoment.trans ht).trans_lt (harchived archived ha)⟩
  · refine List.Sublist.trans ?_ h.pending
    refine List.Sublist.flatMap (List.monotone_filter_right _ fun s hs => ?_) _
    have after : snapshotStart ≤ s.recordedAt := of_decide_eq_true hs
    unfold unconfirmed
    rw [Option.all_eq_true]
    exact fun start hstart' => decide_eq_true ((horder start hstart').trans after)

/-- A split recorded now is not before any snapshot. -/
theorem Counted.recordPendingSplit (h : Counted ledger data w) {instrument : String}
    {splits : List (D × Nat)} {rungs change : List String}
    (hallowed : w.Allowed ledger data (.recordPendingSplit instrument splits rungs change, now)) :
    Counted ledger data (w.apply (.recordPendingSplit instrument splits rungs change, now)) := by
  obtain ⟨hnow, hlate, hcommitted⟩ := hallowed
  refine ⟨h.listed, h.carries, h.consumed, ?_, fun start hs => (h.started start hs).trans hnow,
    ?_, ?_⟩
  · exact List.forall_mem_append.mpr ⟨h.committed, List.forall_mem_singleton.mpr hcommitted⟩
  · refine List.forall_mem_append.mpr ⟨fun s hs hconf cid hcid t ht =>
      h.confirmed s hs hconf cid hcid t (hnow.trans ht), List.forall_mem_singleton.mpr ?_⟩
    intro hconf
    have kept : w.lastStart.all (fun start => decide (start ≤ now)) = true := by
      rw [Option.all_eq_true]
      exact fun start hs => decide_eq_true ((h.started start hs).trans hnow)
    exact absurd (kept.symm.trans hconf) (by decide)
  · have unexpired : w.kept.Sublist
        (w.cache.pendingSplits.filter fun p => !p.isExpired now) := by
      have same : w.kept.filter (fun p => !p.isExpired now) = w.kept :=
        List.filter_eq_self.mpr fun p hp => by
          rw [h.not_isExpired_of_mem_kept hlate hp]
          rfl
      have hkept := h.pending.filter fun p => !p.isExpired now
      rwa [same] at hkept
    have own : ([(⟨instrument, splits, rungs, change, now⟩ : RecordedSplit D)].filter
        w.unconfirmed).flatMap RecordedSplit.entries |>.Sublist
          (splits.map fun d => (⟨instrument, d.1, d.2, now⟩ : PendingSplit D)) := by
      have all := (List.filter_sublist (p := w.unconfirmed)
        (l := [(⟨instrument, splits, rungs, change, now⟩ : RecordedSplit D)])).flatMap
          RecordedSplit.entries
      rwa [List.flatMap_singleton] at all
    have split : (w.apply (.recordPendingSplit instrument splits rungs change, now)).kept
        = w.kept ++ ([(⟨instrument, splits, rungs, change, now⟩ : RecordedSplit D)].filter
          w.unconfirmed).flatMap RecordedSplit.entries := by
      unfold kept
      rw [← List.flatMap_append, ← List.filter_append]
      rfl
    rw [split]
    exact unexpired.append own

/-- What is cleared was recorded before the latest snapshot started. -/
theorem Counted.clearPendingSplitsBefore (h : Counted ledger data w) {snapshotStart : Instant}
    (hallowed : w.Allowed ledger data (.clearPendingSplitsBefore snapshotStart, now)) :
    Counted ledger data (w.apply (.clearPendingSplitsBefore snapshotStart, now)) := by
  obtain ⟨hnow, -, start, hstart, hle⟩ := hallowed
  refine ⟨h.listed, h.carries, h.consumed, h.committed, fun s hs => (h.started s hs).trans hnow,
    fun s hs hconf cid hcid t ht => h.confirmed s hs hconf cid hcid t (hnow.trans ht), ?_⟩
  have later : w.kept.filter (fun p => decide (p.recordedAt ≥ snapshotStart)) = w.kept :=
    List.filter_eq_self.mpr fun p hp =>
      decide_eq_true (hle.trans (recordedAt_of_mem_kept hp start hstart))
  have hkept := h.pending.filter fun p => decide (p.recordedAt ≥ snapshotStart)
  rw [later] at hkept
  exact hkept

/-- **What one event preserves.** -/
theorem Counted.apply (h : Counted ledger data w) {e : RungEvent D × Instant}
    (hallowed : w.Allowed ledger data e) : Counted ledger data (w.apply e) := by
  obtain ⟨e, now⟩ := e
  cases e with
  | recordPendingSplit => exact h.recordPendingSplit hallowed
  | clearPendingSplitsBefore => exact h.clearPendingSplitsBefore hallowed
  | holdings e =>
    obtain ⟨hnow, -, hevent⟩ := id hallowed
    cases e with
    | refresh => exact h.refresh hallowed
    | addCreated holdings =>
      refine h.of_pools hnow (fun cid hcid => ?_)
        (carries_apply h.carries (e := .addCreated holdings) hevent) h.consumed
      exact HoldingsCache.mem_available_addCreated.mpr (.inr (h.listed cid hcid))
    | markConsumed cids reason at_ =>
      refine h.of_pools hnow h.listed h.carries fun cid hcid => List.mem_append.mpr ?_
      exact (HoldingsCache.mem_consumed_markConsumed.mp hcid).imp_right (h.consumed cid)
    | reserve cids kind at_ =>
      obtain ⟨havailable, hconsumed⟩ := CacheRun.reserve_pools w.cache.holdings cids kind at_
      refine h.of_pools hnow (fun cid hcid => ?_)
        (carries_apply h.carries (e := .reserve cids kind at_) (by rintro g ⟨⟩)) fun cid hcid => ?_
      · exact havailable ▸ h.listed cid hcid
      · exact h.consumed cid (hconsumed ▸ hcid)
    | release | restore | cleanup => exact h.of_pools hnow h.listed h.carries h.consumed

theorem counted_run {splitterReserveEnabled : Bool} {thresholds : Pool String D}
    (run : Reachable (Allowed ledger data) RungRun.apply
      (fresh splitterReserveEnabled thresholds) w) : Counted ledger data w :=
  run.invariant _ (counted_fresh ledger data _ _) fun _ _ h hallowed => h.apply hallowed

end RungRun

/-! ## Counting -/

section Counting

variable [Decimal D] {ledger : Ledger} {data : Contracts} {w : RungRun D} {instrument : String}
  {lo hi : D} {now : Instant}

/-- A contract with this instrument and amount is in the band. -/
def inBand (instrument : String) (lo hi : D) (x : String × ℚ) : Bool :=
  decide (x.1 = instrument) && decide (Decimal.value lo ≤ x.2) && decide (x.2 < Decimal.value hi)

/-- What the entry stands for. -/
def PendingSplit.contract (p : PendingSplit D) : String × ℚ := (p.instrument, Decimal.value p.denom)

/-- The rungs that the entries stand for. -/
def countOf (entries : List (PendingSplit D)) : Nat := (entries.map PendingSplit.count).sum

/-- As many rungs of a split are in the band as its entries say. -/
theorem RecordedSplit.Committed.length_inBand {s : RecordedSplit D} (h : s.Committed ledger data) :
    (s.rungs.filter fun cid => inBand instrument lo hi (data cid)).length
      = countOf (s.entries.filter fun p => inBand instrument lo hi p.contract) := by
  have rungs : (s.rungs.filter fun cid => inBand instrument lo hi (data cid)).length
      = (s.splits.flatMap fun d => List.replicate d.2 (s.instrument, Decimal.value d.1)).countP
        (inBand instrument lo hi) := by
    rw [← h.rungs.countP_eq, List.countP_map, ← List.countP_eq_length_filter]
    rfl
  rw [rungs]
  unfold RecordedSplit.entries countOf
  induction s.splits with
  | nil => rfl
  | cons d splits ih =>
    rw [List.flatMap_cons, List.countP_append, ih, List.countP_replicate, List.map_cons]
    cases hband : inBand instrument lo hi (s.instrument, Decimal.value d.1) with
    | true => simp only [List.filter_cons, PendingSplit.contract, hband, if_true, List.map_cons,
        List.sum_cons]
    | false => simp only [List.filter_cons, PendingSplit.contract, hband, Bool.false_eq_true,
        if_false, Nat.zero_add]

omit [Decimal D] in
theorem countOf_append (ps qs : List (PendingSplit D)) :
    countOf (ps ++ qs) = countOf ps + countOf qs := by
  unfold countOf
  rw [List.map_append, List.sum_append]

omit [Decimal D] in
theorem countOf_le_of_sublist {ps qs : List (PendingSplit D)} (h : ps.Sublist qs) :
    countOf ps ≤ countOf qs := by
  induction h with
  | slnil => exact le_rfl
  | @cons ps qs q h ih =>
    have : countOf (q :: qs) = q.count + countOf qs := List.sum_cons
    omega
  | @cons_cons ps qs q h ih =>
    have hq : countOf (q :: qs) = q.count + countOf qs := List.sum_cons
    have hp : countOf (q :: ps) = q.count + countOf ps := List.sum_cons
    omega

/-- The rungs in the band of some splits are as many as their entries say. -/
theorem length_rungs_inBand {splits : List (RecordedSplit D)}
    (h : ∀ s ∈ splits, s.Committed ledger data) :
    (splits.flatMap fun s => s.rungs.filter fun cid => inBand instrument lo hi (data cid)).length
      = countOf ((splits.flatMap RecordedSplit.entries).filter fun p =>
          inBand instrument lo hi p.contract) := by
  induction splits with
  | nil => rfl
  | cons s splits ih =>
    obtain ⟨hs, hrest⟩ := List.forall_mem_cons.mp h
    rw [List.flatMap_cons, List.flatMap_cons, List.length_append, List.filter_append,
      countOf_append, hs.length_inBand, ih hrest]

/-- The entries that count in the band. -/
def pendingInBand (w : RungRun D) (instrument : String) (lo hi : D) (now : Instant) :
    List (PendingSplit D) :=
  w.cache.pendingSplits.filter fun p =>
    decide (p.instrument = instrument) && !p.isExpired now && Decimal.le lo p.denom &&
      Decimal.lt p.denom hi

/-- The holdings that count in the band. -/
def existingInBand (w : RungRun D) (instrument : String) (lo hi : D) (now : Instant) :
    List (CachedHolding D) :=
  w.cache.holdings.available.values.filter fun h =>
    decide (h.instrument = instrument) && decide (h.contractId ∉ w.cache.holdings.consumed) &&
      decide (some h.contractId ≠ w.cache.splitterCid now instrument) &&
      Decimal.le lo h.amount && Decimal.lt h.amount hi

theorem countInBand_eq : w.cache.countInBand instrument lo hi now =
    min ((existingInBand w instrument lo hi now).length +
      countOf (pendingInBand w instrument lo hi now)) u32Max := by
  have pending :=
    foldl_saturating PendingSplit.count (pendingInBand w instrument lo hi now) (Nat.zero_le u32Max)
  have count : w.cache.countInBand instrument lo hi now =
      min (min (existingInBand w instrument lo hi now).length u32Max +
        (pendingInBand w instrument lo hi now).foldl (fun acc p => min (acc + p.count) u32Max) 0)
        u32Max := rfl
  rw [count, pending, countOf]
  omega

variable {cids : List String}

/-- What is owed and available is counted. -/
theorem length_existing (h : w.Counted ledger data) (hnodup : cids.Nodup)
    (howed : ∀ cid ∈ cids, Owed ledger data RecordedSplit.rungs w instrument lo hi now cid)
    (havailable : ∀ cid ∈ cids, cid ∈ w.cache.holdings.available) :
    cids.length ≤ (existingInBand w instrument lo hi now).length := by
  have counted : cids ⊆ (existingInBand w instrument lo hi now).map CachedHolding.contractId := by
    intro cid hcid
    obtain ⟨held, hlookup⟩ := Pool.mem_iff_lookup.mp (havailable cid hcid)
    obtain rfl := w.cache.holdings.keyed cid held hlookup
    have owed := howed _ hcid
    have hdata := h.carries _ held hlookup
    have above := owed.above
    have under := owed.under
    have ofInstrument := owed.ofInstrument
    unfold Carries at hdata
    rw [hdata] at above under ofInstrument
    refine List.mem_map.mpr ⟨held, List.mem_filter.mpr ⟨Pool.mem_values.mpr ⟨_, hlookup⟩, ?_⟩, rfl⟩
    simp only [Bool.and_eq_true, decide_eq_true_eq, Decimal.le, Decimal.lt]
    exact ⟨⟨⟨⟨ofInstrument, fun hconsumed => owed.unspent (h.consumed _ hconsumed)⟩,
      owed.notReserve⟩, above⟩, under⟩
  have := hnodup.length_le_of_subset counted
  rwa [List.length_map] at this

/-- What is owed but not available is pending. -/
theorem length_pending (h : w.Counted ledger data) (hnow : w.clock ≤ now)
    (hlate : w.ExpiresLate now) (hnodup : cids.Nodup)
    (howed : ∀ cid ∈ cids, Owed ledger data RecordedSplit.rungs w instrument lo hi now cid)
    (hmissing : ∀ cid ∈ cids, cid ∉ w.cache.holdings.available) :
    cids.length ≤ countOf (pendingInBand w instrument lo hi now) := by
  have unlisted {cid : String} (hcid : cid ∈ cids) : cid ∉ w.listed := fun hlisted =>
    hmissing cid hcid (h.listed cid hlisted)
  have pending : cids ⊆ (w.recorded.filter w.unconfirmed).flatMap fun s =>
      s.rungs.filter fun cid => inBand instrument lo hi (data cid) := by
    intro cid hcid
    have owed := howed cid hcid
    rcases owed.known with hlisted | ⟨s, hs, hrung⟩
    · exact absurd hlisted (unlisted hcid)
    · have hunconfirmed : w.unconfirmed s = true := by
        by_contra hconf
        exact unlisted hcid (h.confirmed s hs (by simpa using hconf) cid
          (List.mem_append_left _ hrung) now hnow owed.live)
      refine List.mem_flatMap.mpr ⟨s, List.mem_filter.mpr ⟨hs, hunconfirmed⟩,
        List.mem_filter.mpr ⟨hrung, ?_⟩⟩
      simp only [inBand, Bool.and_eq_true, decide_eq_true_eq]
      exact ⟨⟨owed.ofInstrument, owed.above⟩, owed.under⟩
  have rungs : ((w.recorded.filter w.unconfirmed).flatMap fun s =>
      s.rungs.filter fun cid => inBand instrument lo hi (data cid)).length =
        countOf (w.kept.filter fun p => inBand instrument lo hi p.contract) :=
    length_rungs_inBand fun s hs => h.committed s (List.mem_filter.mp hs).1
  have entries : (w.kept.filter fun p => inBand instrument lo hi p.contract).Sublist
      (pendingInBand w instrument lo hi now) := by
    have same : (w.kept.filter fun p => inBand instrument lo hi p.contract) =
        w.kept.filter fun p => decide (p.instrument = instrument) && !p.isExpired now &&
          Decimal.le lo p.denom && Decimal.lt p.denom hi := by
      refine List.filter_congr fun p hp => ?_
      rw [h.not_isExpired_of_mem_kept hlate hp]
      simp only [Bool.not_false, Bool.and_true]
      rfl
    rw [same]
    exact h.pending.filter _
  exact (hnodup.length_le_of_subset pending).trans (rungs.le.trans (countOf_le_of_sublist entries))

/-- **No rung is missed**: from the first complete snapshot on, the count in a band is at least
the number of live holdings owed in it, or the largest count. -/
theorem neverMisses_rungs (D : Type) [Decimal D] :
    NeverMisses D RecordedSplit.rungs (min · u32Max) := by
  intro ledger data enabled thresholds w run _ instrument lo hi now hnow hlate cids hnodup howed
  have h := RungRun.counted_run run
  have existing : (cids.filter fun cid => decide (cid ∈ w.cache.holdings.available)).length ≤
      (existingInBand w instrument lo hi now).length :=
    length_existing h (hnodup.filter _) (fun cid hcid => howed cid (List.mem_filter.mp hcid).1)
      fun cid hcid => of_decide_eq_true (List.mem_filter.mp hcid).2
  have pending : (cids.filter fun cid => !decide (cid ∈ w.cache.holdings.available)).length ≤
      countOf (pendingInBand w instrument lo hi now) :=
    length_pending h hnow hlate (hnodup.filter _)
      (fun cid hcid => howed cid (List.mem_filter.mp hcid).1)
      fun cid hcid => by simpa using (List.mem_filter.mp hcid).2
  have split := List.length_eq_length_filter_add (l := cids)
    fun cid => decide (cid ∈ w.cache.holdings.available)
  rw [countInBand_eq]
  dsimp only
  omega

end Counting

/-! ## What is not counted -/

section Samples

/-- A reserve of 100 that is split into a rung of 10 and a change of 90. -/
def splitLedger : Ledger := fun cid =>
  if cid = "reserve" then some ⟨0, some (seconds 2)⟩
  else if cid = "rung" ∨ cid = "change" then some ⟨seconds 2, none⟩
  else none

def splitContracts : Contracts := fun cid =>
  ("CC", if cid = "reserve" then 100 else if cid = "change" then 90 else 10)

def splitReserve : CachedHolding ScaledInt :=
  ⟨"reserve", "#splice-amulet:Splice.Amulet:Amulet", "CC", ⟨100, 0⟩, some "blob", "sync", 0⟩

/-- The reserve is listed, consumed, and its split recorded. -/
def splitEvents : List (RungEvent ScaledInt × Instant) :=
  [(.holdings (.refresh [splitReserve] 0), seconds 1),
    (.holdings (.markConsumed ["reserve"] "split" (seconds 3)), seconds 3),
    (.recordPendingSplit "CC" [(⟨10, 0⟩, 1)] ["rung"] ["change"], seconds 3)]

def splitRun : RungRun ScaledInt := splitEvents.foldl RungRun.apply (RungRun.fresh true ∅)

theorem splitLedger_early {cid : String} (h : splitLedger.Active (seconds 1) cid) :
    cid = "reserve" := by
  obtain ⟨life, hlife, hcreated, -⟩ := h
  unfold splitLedger at hlife
  split_ifs at hlife with hreserve houtput
  · exact hreserve
  · obtain rfl := Option.some.inj hlife
    exact absurd hcreated (by decide)

theorem value_whole (n : Int) : Decimal.value (⟨n, 0⟩ : ScaledInt) = n := by
  change (n : ℚ) / (10 : ℚ) ^ 0 = n
  rw [pow_zero, div_one]

theorem splitReserve_carries : Carries splitContracts splitReserve := by
  unfold Carries splitReserve
  rw [value_whole]
  rfl

theorem splitRun_reachable : Reachable (RungRun.Allowed splitLedger splitContracts) RungRun.apply
    (RungRun.fresh true ∅) splitRun := by
  refine Reachable.foldl .start ⟨⟨by decide, fun p hp => absurd hp List.not_mem_nil, ?_⟩,
    ⟨by decide, fun p hp => absurd hp List.not_mem_nil, trivial⟩,
    ⟨by decide, fun p hp => absurd hp List.not_mem_nil, ?_⟩, trivial⟩
  · refine ⟨fun start hs => (nomatch hs), List.forall_mem_singleton.mpr splitReserve_carries,
      seconds 1, by decide, by decide, fun cid hcid => ?_⟩
    rw [splitLedger_early hcid]
    exact List.mem_singleton.mpr rfl
  · refine ⟨fun cid hcid => ?_, .of_eq (congrArg (fun v => [("CC", v)]) (value_whole 10).symm)⟩
    have houtput : cid = "rung" ∨ cid = "change" := by
      simpa [RecordedSplit.outputs] using hcid
    refine ⟨⟨seconds 2, none⟩, ?_, by decide⟩
    rcases houtput with rfl | rfl <;> rfl

theorem splitRun_expiresLate : splitRun.ExpiresLate (seconds 3) := by
  intro p hp hexpired
  have fresh : ∀ p ∈ splitRun.cache.pendingSplits, p.isExpired (seconds 3) = false := by
    decide +kernel
  rw [fresh p hp] at hexpired
  cases hexpired

theorem splitContracts_outputs :
    (splitContracts "rung").2 = 10 ∧ (splitContracts "change").2 = 90 := ⟨rfl, rfl⟩

/-- An output of the sample's split, in a band that its amount is in. -/
theorem owed_split {created : RecordedSplit ScaledInt → List String} {cid : String} {lo hi : Int}
    (houtput : cid = "rung" ∨ cid = "change") (hlo : (lo : ℚ) ≤ (splitContracts cid).2)
    (hhi : (splitContracts cid).2 < hi) (hcreated : ∃ s ∈ splitRun.recorded, cid ∈ created s) :
    Owed splitLedger splitContracts created splitRun "CC" ⟨lo, 0⟩ ⟨hi, 0⟩ (seconds 3) cid where
  live := by
    refine ⟨⟨seconds 2, none⟩, ?_, by decide, fun t ht => (nomatch ht)⟩
    rcases houtput with rfl | rfl <;> rfl
  ofInstrument := rfl
  above := by rwa [value_whole]
  under := by rwa [value_whole]
  notReserve := by rcases houtput with rfl | rfl <;> decide +kernel
  unspent := by rcases houtput with rfl | rfl <;> decide
  known := .inr hcreated

/-- The rung of the sample counts before anyone has seen it. -/
theorem neverMisses_rungs_split :
    min ["rung"].length u32Max ≤ splitRun.cache.countInBand "CC" ⟨10, 0⟩ ⟨20, 0⟩ (seconds 3) := by
  refine neverMisses_rungs ScaledInt splitLedger splitContracts true ∅ splitRun splitRun_reachable
    rfl "CC" _ _ _ (by decide) splitRun_expiresLate ["rung"] (List.nodup_singleton _)
    (List.forall_mem_singleton.mpr (owed_split (.inl rfl) ?_ ?_
      ⟨_, List.mem_singleton.mpr rfl, List.mem_singleton.mpr rfl⟩))
  · exact le_of_eq splitContracts_outputs.1.symm
  · rw [splitContracts_outputs.1]
    exact_mod_cast (by decide : (10 : Int) < 20)

/-- Nobody counts the change. -/
theorem not_neverMisses_change {bound : Nat → Nat} (hbound : 0 < bound 1) :
    ¬ NeverMisses ScaledInt RecordedSplit.outputs bound := by
  intro claim
  have counted : bound ["change"].length ≤
      splitRun.cache.countInBand "CC" ⟨50, 0⟩ ⟨200, 0⟩ (seconds 3) := by
    refine claim splitLedger splitContracts true ∅ splitRun splitRun_reachable
      rfl "CC" _ _ _ (by decide) splitRun_expiresLate ["change"] (List.nodup_singleton _)
      (List.forall_mem_singleton.mpr (owed_split (.inr rfl) ?_ ?_
        ⟨_, List.mem_singleton.mpr rfl, List.mem_cons_of_mem _ (List.mem_singleton.mpr rfl)⟩))
    · rw [splitContracts_outputs.2]
      exact_mod_cast (by decide : (50 : Int) ≤ 90)
    · rw [splitContracts_outputs.2]
      exact_mod_cast (by decide : (90 : Int) < 200)
  have none : splitRun.cache.countInBand "CC" ⟨50, 0⟩ ⟨200, 0⟩ (seconds 3) = 0 := by decide +kernel
  rw [none] at counted
  exact absurd hbound (Nat.not_lt_of_le counted)

/-- A snapshot of `n` holdings of 1. -/
def manyNames (n : Nat) : List String := (List.range n).map toString

def manyHoldings (n : Nat) : List (CachedHolding ScaledInt) :=
  (manyNames n).map fun cid =>
    ⟨cid, "#splice-amulet:Splice.Amulet:Amulet", "CC", ⟨1, 0⟩, some "blob", "sync", 0⟩

def manyLedger (n : Nat) : Ledger := fun cid =>
  if cid ∈ manyNames n then some ⟨0, none⟩ else none

theorem manyLedger_active {n : Nat} {cid : String} (moment : Instant) :
    (manyLedger n).Active moment cid ↔ cid ∈ manyNames n := by
  unfold manyLedger Ledger.Active
  dsimp only
  split_ifs with hcid
  · exact iff_of_true ⟨_, rfl, Nat.zero_le _, fun t ht => (nomatch ht)⟩ hcid
  · exact iff_of_false (fun ⟨_, h, _⟩ => (nomatch h)) hcid

theorem contractIds_manyHoldings (n : Nat) :
    (manyHoldings n).map CachedHolding.contractId = manyNames n := by
  unfold manyHoldings
  rw [List.map_map]
  exact List.map_id _

/-- The count does not go beyond the largest one. -/
theorem not_neverMisses_many {n : Nat} (hn : u32Max < n) :
    ¬ NeverMisses ScaledInt RecordedSplit.rungs id := by
  intro claim
  have allowed : RungRun.Allowed (manyLedger n) (fun _ => ("CC", 1)) (RungRun.fresh false ∅)
      (.holdings (.refresh (manyHoldings n) 0), 0) := by
    refine ⟨le_rfl, fun p hp => absurd hp List.not_mem_nil, fun start hs => (nomatch hs),
      fun h hh => ?_, 0, le_rfl, le_rfl, fun cid hcid => ?_⟩
    · obtain ⟨cid, -, rfl⟩ := List.mem_map.mp hh
      exact congrArg (Prod.mk "CC") (value_whole 1).symm
    · rw [contractIds_manyHoldings]
      exact (manyLedger_active 0).mp hcid
  have nodup : (manyNames n).Nodup :=
    List.nodup_range.map fun a b hab => natText_injective hab
  have counted := claim (manyLedger n) (fun _ => ("CC", 1)) false ∅ _ (.step .start allowed) rfl "CC"
    ⟨0, 0⟩ ⟨2, 0⟩ 0 le_rfl (fun p hp => absurd hp List.not_mem_nil) (manyNames n) nodup
    fun cid hcid => ?_
  · have length : (manyNames n).length = n := by
      unfold manyNames
      rw [List.length_map, List.length_range]
    rw [countInBand_eq, length] at counted
    have capped := counted.trans (Nat.min_le_right _ _)
    exact absurd hn (Nat.not_lt_of_le capped)
  · refine ⟨(manyLedger_active 0).mpr hcid, rfl, ?_, ?_, fun h => (nomatch h), List.not_mem_nil,
      .inl ?_⟩
    · rw [value_whole]
      exact zero_le_one
    · rw [value_whole]
      exact one_lt_two
    rw [← contractIds_manyHoldings] at hcid
    exact hcid

/-- The change of a split is missed, and so are holdings beyond the largest count. -/
theorem change_and_excess_missed : ¬ NeverMisses ScaledInt RecordedSplit.outputs id ∧
    ¬ NeverMisses ScaledInt RecordedSplit.outputs (min · u32Max) ∧
    ¬ NeverMisses ScaledInt RecordedSplit.rungs id :=
  ⟨not_neverMisses_change (by decide), not_neverMisses_change (by decide),
    not_neverMisses_many (Nat.lt_succ_self u32Max)⟩

end Samples

end BookAgent.CloudAgent
