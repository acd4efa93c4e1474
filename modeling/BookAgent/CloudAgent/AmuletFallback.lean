import BookAgent.CloudAgent.SpentHoldings
import BookAgent.CloudAgent.AtomicSwap
import BookAgent.CloudAgent.Submitters

/-!
# The amulet fallback

When the snapshot of all holdings fails, the amulets alone are read and merged
(`CcView::refresh_from_acs`). The merge keeps what was discovered after a start that is taken
once the read is done, so what the watcher added in between is dropped unless the read lists it.
-/

namespace BookAgent.CloudAgent

open BookAgent.Lib

variable {D : Type}

/-! ## The merge -/

structure CachedAmulet (D : Type) where
  contractId : String
  amount : D
  discoveredAt : Instant

/-- `CcView::amulet_to_holding`. -/
def CachedAmulet.toHolding (a : CachedAmulet D) : CachedHolding D where
  contractId := a.contractId
  templateId := templateAmulet
  instrument := ccInstrument
  amount := a.amount
  createdEventBlob := none
  synchronizerId := ""
  discoveredAt := a.discoveredAt

namespace HoldingsCache

/-- What the amulets are cached as, discovered now. -/
def amuletHoldings (amulets : List (CachedAmulet D)) (now : Instant) : List (CachedHolding D) :=
  amulets.map fun a => { a with discoveredAt := now }.toHolding

/-- The holdings of the other instruments. -/
def nonCc (c : HoldingsCache D) : List (CachedHolding D) :=
  c.available.values.filter fun h => decide (h.instrument ≠ ccInstrument)

/-- `CcView::refresh_from_acs`: `merging` is the cache at the merge, `collected` the cache when the
other instruments were read from it. -/
def ccRefreshFromAcs (merging collected : HoldingsCache D) (amulets : List (CachedAmulet D))
    (snapshotStart now : Instant) : HoldingsCache D :=
  merging.refreshFromAcsSnapshot (amuletHoldings amulets now ++ collected.nonCc) snapshotStart

theorem mem_nonCc {c : HoldingsCache D} {cid : String} :
    cid ∈ c.nonCc.map CachedHolding.contractId ↔
      ∃ h, c.available.lookup cid = some h ∧ h.instrument ≠ ccInstrument := by
  simp only [nonCc, List.mem_map, List.mem_filter, Pool.mem_values, decide_eq_true_eq]
  constructor
  · rintro ⟨h, ⟨⟨key, hkey⟩, hother⟩, rfl⟩
    exact ⟨h, (c.keyed key h hkey).symm ▸ hkey, hother⟩
  · rintro ⟨h, hlookup, hother⟩
    exact ⟨h, ⟨⟨cid, hlookup⟩, hother⟩, c.keyed cid h hlookup⟩

end HoldingsCache

/-! ## What a window of events does -/

/-- The holdings an event adds. -/
def CacheEvent.added : CacheEvent D → List (CachedHolding D)
  | .addCreated holdings => holdings
  | _ => []

namespace HoldingsCache

/-- The cache after the events, one after the other. -/
def applyAll (c : HoldingsCache D) (events : List (CacheEvent D)) : HoldingsCache D :=
  events.foldl apply c

theorem applyAll_append (c : HoldingsCache D) (events later : List (CacheEvent D)) :
    c.applyAll (events ++ later) = (c.applyAll events).applyAll later :=
  List.foldl_append

/-- Only additions change the available pool while no snapshot is merged. -/
theorem available_applyAll {events : List (CacheEvent D)} (h : ∀ e ∈ events, e.started = none)
    (c : HoldingsCache D) : (c.applyAll events).available =
      c.available.insertAll (byContractId (events.flatMap CacheEvent.added)) := by
  induction events generalizing c with
  | nil => rfl
  | cons e events ih =>
    have step : (c.apply e).available = c.available.insertAll (byContractId e.added) := by
      cases e with
      | refresh => exact absurd (h _ List.mem_cons_self) (Option.some_ne_none _)
      | reserve cids kind now => exact (CacheRun.reserve_pools c cids kind now).1
      | addCreated | markConsumed | release | restore | cleanup => rfl
    have rest := ih (fun e he => h e (List.mem_cons_of_mem _ he)) (c.apply e)
    rw [step] at rest
    rw [List.flatMap_cons, byContractId, List.map_append, Pool.insertAll, List.foldl_append]
    exact rest

/-- Only marks change which ids are consumed while no snapshot is merged. -/
theorem mem_consumed_applyAll {events : List (CacheEvent D)} (h : ∀ e ∈ events, e.started = none)
    (c : HoldingsCache D) (cid : String) : cid ∈ (c.applyAll events).consumed ↔
      cid ∈ c.consumed ∨ cid ∈ events.flatMap CacheEvent.marks := by
  induction events generalizing c with
  | nil => exact (or_iff_left List.not_mem_nil).symm
  | cons e events ih =>
    have step : cid ∈ (c.apply e).consumed ↔ cid ∈ c.consumed ∨ cid ∈ e.marks := by
      cases e with
      | refresh => exact absurd (h _ List.mem_cons_self) (Option.some_ne_none _)
      | reserve cids kind now =>
        rw [apply, (CacheRun.reserve_pools c cids kind now).2]
        exact (or_iff_left List.not_mem_nil).symm
      | markConsumed cids reason now => exact mem_consumed_markConsumed.trans or_comm
      | addCreated | release | restore | cleanup => exact (or_iff_left List.not_mem_nil).symm
    have rest := ih (fun e he => h e (List.mem_cons_of_mem _ he)) (c.apply e)
    rw [step, or_assoc] at rest
    rw [List.flatMap_cons, List.mem_append]
    exact rest

end HoldingsCache

/-! ## A fallback refresh among other changes -/

/-- A fallback refresh: the cache when the amulets were read from the ledger, what was read, and
what happens to the cache until the merge. The apply takes its start, then reads the other
instruments, then merges; one task merges snapshots, so no event is a refresh. -/
structure FallbackRefresh (D : Type) where
  before : HoldingsCache D
  amulets : List (CachedAmulet D)
  untilStart : List (CacheEvent D)
  snapshotStart : Instant
  now : Instant
  untilCollected : List (CacheEvent D)
  untilMerge : List (CacheEvent D)
  unmerged : ∀ e ∈ untilStart ++ untilCollected ++ untilMerge, e.started = none
  /-- A contract id names one contract, so one instrument. -/
  instrumentOf : String → String
  cached : ∀ h ∈ before.available.values, h.instrument = instrumentOf h.contractId
  found : ∀ e ∈ untilStart ++ untilCollected ++ untilMerge, ∀ h ∈ e.added,
    h.instrument = instrumentOf h.contractId
  listed : ∀ a ∈ amulets, instrumentOf a.contractId = ccInstrument

namespace FallbackRefresh

variable (r : FallbackRefresh D)

def events : List (CacheEvent D) := r.untilStart ++ r.untilCollected ++ r.untilMerge

/-- The holdings added between the read and the merge. -/
def added : List (CachedHolding D) := r.events.flatMap CacheEvent.added

/-- The ids marked consumed between the read and the merge. -/
def marked : List String := r.events.flatMap CacheEvent.marks

/-- The cache when the other instruments are read from it. -/
def collected : HoldingsCache D := r.before.applyAll (r.untilStart ++ r.untilCollected)

/-- The cache at the merge. -/
def merging : HoldingsCache D := r.collected.applyAll r.untilMerge

/-- The cache after the merge. -/
def after : HoldingsCache D :=
  r.merging.ccRefreshFromAcs r.collected r.amulets r.snapshotStart r.now

/-- The snapshot lists the id: as an amulet that was read, or as a holding of another
instrument that was collected. -/
def Lists (cid : String) : Prop :=
  cid ∈ r.amulets.map CachedAmulet.contractId ∨ cid ∈ r.collected.nonCc.map CachedHolding.contractId

/-- The cache has the id from a discovery after the start. -/
def FoundLate (cid : String) : Prop :=
  ∃ h, r.merging.available.lookup cid = some h ∧ h.discoveredAt > r.snapshotStart

/-- A live reservation holds the id as long as its entry is fresh. -/
def HeldWhileFresh [Decimal D] (cid : String) : Prop :=
  ∀ h now, r.merging.available.lookup cid = some h → HoldingsCache.isFresh h now = true →
    r.merging.isReserved cid now = true

/-- The holding is available, under its instrument. -/
def StillAvailable (c : HoldingsCache D) (h : CachedHolding D) : Prop :=
  ∃ h', c.available.lookup h.contractId = some h' ∧ h'.instrument = h.instrument

/-- Some caller can be handed the id at some moment. -/
def Selectable [Decimal D] (c : HoldingsCache D) (cid : String) : Prop :=
  ∃ instrument excludeSplitterReserve now,
    ∃ h ∈ c.getSelectable instrument excludeSplitterReserve now, h.contractId = cid

/-- The refresh changes what it read only. -/
structure ChangesOnlyRead [Decimal D] : Prop where
  others : ∀ h, h ∈ r.before.available.values ∨ h ∈ r.added → h.instrument ≠ ccInstrument →
    StillAvailable r.after h
  coins : ∀ h ∈ r.added, h.instrument = ccInstrument → StillAvailable r.after h
  spent : ∀ cid, cid ∈ r.before.consumed ∨ cid ∈ r.marked → ¬ Selectable r.after cid

/-- Each change falls where the merge takes it into account. -/
structure Sheltered [Decimal D] : Prop where
  coins : ∀ h ∈ r.added, h.instrument = ccInstrument →
    h.contractId ∈ r.amulets.map CachedAmulet.contractId ∨ r.FoundLate h.contractId
  others : ∀ h ∈ r.untilMerge.flatMap CacheEvent.added, h.instrument ≠ ccInstrument →
    h.contractId ∈ r.collected.available ∨ r.FoundLate h.contractId
  spent : ∀ cid, cid ∈ r.before.consumed ∨ cid ∈ r.marked → r.FoundLate cid →
    r.Lists cid ∨ r.HeldWhileFresh cid

/-! ## What is left of the pools -/

variable {r}

theorem merging_eq : r.merging = r.before.applyAll r.events := by
  rw [merging, collected, ← HoldingsCache.applyAll_append, events]

theorem available_merging :
    r.merging.available = r.before.available.insertAll (byContractId r.added) := by
  rw [merging_eq]
  exact HoldingsCache.available_applyAll r.unmerged _

theorem available_collected : r.collected.available = r.before.available.insertAll
    (byContractId ((r.untilStart ++ r.untilCollected).flatMap CacheEvent.added)) :=
  HoldingsCache.available_applyAll (fun e he => r.unmerged e (List.mem_append_left _ he)) _

theorem mem_consumed_merging {cid : String} :
    cid ∈ r.merging.consumed ↔ cid ∈ r.before.consumed ∨ cid ∈ r.marked := by
  rw [merging_eq]
  exact HoldingsCache.mem_consumed_applyAll r.unmerged _ _

theorem mem_snapshot {cid : String} :
    cid ∈ (HoldingsCache.amuletHoldings r.amulets r.now ++ r.collected.nonCc).map
      CachedHolding.contractId ↔ r.Lists cid := by
  rw [List.map_append, List.mem_append, HoldingsCache.amuletHoldings, List.map_map]
  rfl

theorem mem_available_after {cid : String} :
    cid ∈ r.after.available ↔ r.Lists cid ∨ r.FoundLate cid := by
  rw [after, HoldingsCache.ccRefreshFromAcs, HoldingsCache.mem_available_refresh, mem_snapshot,
    FoundLate]

theorem mem_consumed_after {cid : String} :
    cid ∈ r.after.consumed ↔ (cid ∈ r.before.consumed ∨ cid ∈ r.marked) ∧ r.Lists cid := by
  rw [after, HoldingsCache.ccRefreshFromAcs, HoldingsCache.mem_consumed_refresh, mem_snapshot,
    mem_consumed_merging]

/-- What the refresh does not list it leaves as it was, if it was found late. -/
theorem lookup_after_of_unlisted {cid : String} {h : CachedHolding D} (hlist : ¬ r.Lists cid)
    (hlookup : r.merging.available.lookup cid = some h) (hlate : h.discoveredAt > r.snapshotStart) :
    r.after.available.lookup cid = some h := by
  unfold after HoldingsCache.ccRefreshFromAcs HoldingsCache.refreshFromAcsSnapshot
  dsimp only
  rw [Pool.lookup_insertAll_of_notMem]
  · exact Pool.lookup_retain_eq_some.mpr ⟨hlookup, decide_eq_true hlate⟩
  · rw [Pool.fst_toPairs, ← AList.mem_keys, HoldingsCache.mem_snapshotPool, mem_snapshot]
    exact hlist

/-! ## One instrument for each id -/

theorem instrument_added {h : CachedHolding D} (hadd : h ∈ r.added) :
    h.instrument = r.instrumentOf h.contractId := by
  obtain ⟨e, he, hmem⟩ := List.mem_flatMap.mp hadd
  exact r.found e he h hmem

theorem instrument_cached {h : CachedHolding D} {cid : String}
    (hlookup : r.before.available.lookup cid = some h) : h.instrument = r.instrumentOf cid := by
  have := r.cached h (Pool.mem_values.mpr ⟨cid, hlookup⟩)
  rwa [r.before.keyed cid h hlookup] at this

theorem instrument_insertAll {holdings : List (CachedHolding D)} (hadded : holdings ⊆ r.added)
    {h : CachedHolding D} {cid : String}
    (hlookup : (r.before.available.insertAll (byContractId holdings)).lookup cid = some h) :
    h.instrument = r.instrumentOf cid := by
  rcases Pool.lookup_insertAll hlookup with hmem | hold
  · obtain ⟨h', hmem', heq⟩ := List.mem_map.mp hmem
    obtain ⟨rfl, rfl⟩ := Prod.mk.inj heq
    exact instrument_added (hadded hmem')
  · exact instrument_cached hold

theorem instrument_merging {h : CachedHolding D} {cid : String}
    (hlookup : r.merging.available.lookup cid = some h) : h.instrument = r.instrumentOf cid := by
  rw [available_merging] at hlookup
  exact instrument_insertAll (List.Subset.refl _) hlookup

theorem added_eq : r.added = (r.untilStart ++ r.untilCollected).flatMap CacheEvent.added ++
    r.untilMerge.flatMap CacheEvent.added :=
  List.flatMap_append

theorem instrument_collected {h : CachedHolding D} {cid : String}
    (hlookup : r.collected.available.lookup cid = some h) : h.instrument = r.instrumentOf cid := by
  rw [available_collected] at hlookup
  refine instrument_insertAll ?_ hlookup
  rw [added_eq]
  exact List.subset_append_left _ _

/-- An id of another instrument is listed when the cache has it at the collection. -/
theorem mem_nonCc_collected {cid : String} :
    cid ∈ r.collected.nonCc.map CachedHolding.contractId ↔
      cid ∈ r.collected.available ∧ r.instrumentOf cid ≠ ccInstrument := by
  rw [HoldingsCache.mem_nonCc, Pool.mem_iff_lookup]
  constructor
  · rintro ⟨h, hlookup, hother⟩
    exact ⟨⟨h, hlookup⟩, instrument_collected hlookup ▸ hother⟩
  · rintro ⟨⟨h, hlookup⟩, hother⟩
    exact ⟨h, hlookup, (instrument_collected hlookup).symm ▸ hother⟩

theorem amulets_cc {cid : String} (h : cid ∈ r.amulets.map CachedAmulet.contractId) :
    r.instrumentOf cid = ccInstrument := by
  obtain ⟨a, ha, rfl⟩ := List.mem_map.mp h
  exact r.listed a ha

theorem instrument_after {h : CachedHolding D} {cid : String}
    (hlookup : r.after.available.lookup cid = some h) : h.instrument = r.instrumentOf cid := by
  rcases Pool.lookup_insertAll hlookup with hmem | hold
  · rcases Pool.lookup_insertAll (Pool.mem_toPairs.mp hmem) with hlisted | hempty
    · obtain ⟨h', hmem', heq⟩ := List.mem_map.mp hlisted
      obtain ⟨rfl, rfl⟩ := Prod.mk.inj heq
      rcases List.mem_append.mp hmem' with hamulet | hother
      · obtain ⟨a, ha, rfl⟩ := List.mem_map.mp hamulet
        exact (r.listed a ha).symm
      · obtain ⟨hvalue, -⟩ := List.mem_filter.mp hother
        obtain ⟨key, hkey⟩ := Pool.mem_values.mp hvalue
        rw [r.collected.keyed key h' hkey]
        exact instrument_collected hkey
    · rw [AList.lookup_empty] at hempty
      cases hempty
  · exact instrument_merging (Pool.lookup_retain_eq_some.mp hold).1

theorem stillAvailable_iff {h : CachedHolding D} (hone : h.instrument = r.instrumentOf h.contractId) :
    StillAvailable r.after h ↔ r.Lists h.contractId ∨ r.FoundLate h.contractId := by
  rw [← mem_available_after, Pool.mem_iff_lookup]
  constructor
  · rintro ⟨h', hlookup, -⟩
    exact ⟨h', hlookup⟩
  · rintro ⟨h', hlookup⟩
    exact ⟨h', hlookup, (instrument_after hlookup).trans hone.symm⟩

/-! ## What can be selected -/

section Selectable

variable [Decimal D]

theorem selectable_iff {c : HoldingsCache D} {cid : String} :
    Selectable c cid ↔ cid ∉ c.consumed ∧ ∃ h now, c.available.lookup cid = some h ∧
      HoldingsCache.isFresh h now = true ∧ c.isReserved cid now = false := by
  constructor
  · rintro ⟨instrument, exclude, now, h, hmem, rfl⟩
    obtain ⟨⟨key, hkey⟩, hspend⟩ := HoldingsCache.mem_getSelectable hmem
    simp only [HoldingsCache.isSpendable, Bool.and_eq_true, decide_eq_true_eq,
      Bool.not_eq_eq_eq_not, Bool.not_true] at hspend
    exact ⟨hspend.1.2, h, now, (c.keyed key h hkey).symm ▸ hkey, hspend.1.1, hspend.2⟩
  · rintro ⟨hfree, h, now, hlookup, hfresh, hunreserved⟩
    have hcid := c.keyed cid h hlookup
    refine ⟨h.instrument, false, now, h, ?_, hcid⟩
    unfold HoldingsCache.getSelectable HoldingsCache.sortByAmount
    simp [List.mem_insertionSort, Pool.mem_values, HoldingsCache.isSpendable, hcid, hfree, hfresh,
      hunreserved]
    exact ⟨cid, hlookup⟩

/-- **A spent id can be selected after the merge** if the merge forgets it, keeps its entry and no
reservation holds it. -/
theorem selectable_after_iff {cid : String} (hspent : cid ∈ r.before.consumed ∨ cid ∈ r.marked) :
    Selectable r.after cid ↔ r.FoundLate cid ∧ ¬ r.Lists cid ∧ ¬ r.HeldWhileFresh cid := by
  rw [selectable_iff, mem_consumed_after, not_and_or, or_iff_right (not_not_intro hspent)]
  constructor
  · rintro ⟨hlist, h, now, hlookup, hfresh, hunreserved⟩
    have hlate : r.FoundLate cid :=
      (mem_available_after.mp (Pool.mem_iff_lookup.mpr ⟨h, hlookup⟩)).resolve_left hlist
    obtain ⟨h', hlookup', hlate'⟩ := hlate
    rw [lookup_after_of_unlisted hlist hlookup' hlate', Option.some_inj] at hlookup
    subst hlookup
    refine ⟨⟨h', hlookup', hlate'⟩, hlist, ?_⟩
    intro hheld
    have hreserved := hheld h' now hlookup' hfresh
    exact Bool.false_ne_true (hunreserved.symm.trans hreserved)
  · rintro ⟨⟨h, hlookup, hlate⟩, hlist, hheld⟩
    refine ⟨hlist, h, ?_⟩
    by_contra hall
    apply hheld
    intro h' now hlookup' hfresh
    rw [hlookup, Option.some_inj] at hlookup'
    subst hlookup'
    by_contra hunreserved
    exact hall ⟨now, lookup_after_of_unlisted hlist hlookup hlate, hfresh,
      Bool.not_eq_true _ ▸ hunreserved⟩

/-- **The fallback changes what it read only** exactly if each change falls where the merge takes
it into account. -/
theorem changesOnlyRead_iff (r : FallbackRefresh D) : r.ChangesOnlyRead ↔ r.Sheltered := by
  constructor
  · intro h
    refine ⟨?_, ?_, ?_⟩
    · intro x hadd hcoin
      rcases (stillAvailable_iff (instrument_added hadd)).mp (h.coins x hadd hcoin) with hlist | hlate
      · refine .inl (hlist.resolve_right fun hother => ?_)
        exact (mem_nonCc_collected.mp hother).2 (instrument_added hadd ▸ hcoin)
      · exact .inr hlate
    · intro x hlast hother
      have hadd : x ∈ r.added := by
        rw [added_eq]
        exact List.mem_append_right _ hlast
      rcases (stillAvailable_iff (instrument_added hadd)).mp (h.others x (.inr hadd) hother) with
        hlist | hlate
      · rcases hlist with hamulet | hcollected
        · exact absurd ((instrument_added hadd).trans (amulets_cc hamulet)) hother
        · exact .inl (mem_nonCc_collected.mp hcollected).1
      · exact .inr hlate
    · intro cid hspent hlate
      by_contra hneither
      obtain ⟨hlist, hheld⟩ := not_or.mp hneither
      exact h.spent cid hspent ((selectable_after_iff hspent).mpr ⟨hlate, hlist, hheld⟩)
  · intro h
    refine ⟨?_, ?_, ?_⟩
    · intro x hx hother
      have hone : x.instrument = r.instrumentOf x.contractId := by
        rcases hx with hbefore | hadd
        · exact r.cached x hbefore
        · exact instrument_added hadd
      have collected_listed (hin : x.contractId ∈ r.collected.available) : StillAvailable r.after x :=
        (stillAvailable_iff hone).mpr (.inl (.inr (mem_nonCc_collected.mpr ⟨hin, hone ▸ hother⟩)))
      rcases hx with hbefore | hadd
      · apply collected_listed
        rw [available_collected, HoldingsCache.mem_insertAll_byContractId]
        obtain ⟨key, hkey⟩ := Pool.mem_values.mp hbefore
        refine .inr (Pool.mem_iff_lookup.mpr ⟨x, ?_⟩)
        rwa [r.before.keyed key x hkey]
      · rw [added_eq] at hadd
        rcases List.mem_append.mp hadd with hearly | hlast
        · apply collected_listed
          rw [available_collected, HoldingsCache.mem_insertAll_byContractId]
          exact .inl (List.mem_map_of_mem hearly)
        · rcases h.others x hlast hother with hin | hlate
          · exact collected_listed hin
          · exact (stillAvailable_iff hone).mpr (.inr hlate)
    · intro x hadd hcoin
      refine (stillAvailable_iff (instrument_added hadd)).mpr ?_
      exact (h.coins x hadd hcoin).imp_left .inl
    · intro cid hspent hselect
      obtain ⟨hlate, hlist, hheld⟩ := (selectable_after_iff hspent).mp hselect
      exact (h.spent cid hspent hlate).elim hlist hheld

end Selectable

/-! ## An amulet added after the read -/

/-- An amulet that the watcher adds one second after the read, in an empty cache. -/
def addedAmulet : CachedHolding ScaledInt :=
  ⟨"00aa", templateAmulet, ccInstrument, ⟨10, 0⟩, some "blob", "sync", seconds 1⟩

/-- No amulet was read; one is added before the apply starts. -/
def racedRefresh : FallbackRefresh ScaledInt where
  before := HoldingsCache.new false
  amulets := []
  untilStart := [.addCreated [addedAmulet]]
  snapshotStart := seconds 2
  now := seconds 2
  untilCollected := []
  untilMerge := []
  unmerged := by simp [CacheEvent.started]
  instrumentOf := fun _ => ccInstrument
  cached := by
    intro h hmem
    obtain ⟨key, hkey⟩ := Pool.mem_values.mp hmem
    rw [HoldingsCache.new, AList.lookup_empty] at hkey
    cases hkey
  found := by simp [CacheEvent.added, addedAmulet]
  listed := by simp

/-- The amulet is dropped. -/
theorem racedRefresh_drops : ¬ ∀ r : FallbackRefresh ScaledInt, r.ChangesOnlyRead := by
  intro claim
  obtain ⟨h, hlookup, -⟩ := (claim racedRefresh).coins addedAmulet (by decide) rfl
  have gone : racedRefresh.after.available.lookup "00aa" = none := by decide
  rw [addedAmulet, gone] at hlookup
  cases hlookup

end FallbackRefresh

end BookAgent.CloudAgent
