import BookAgent.Lib.Run
import BookAgent.Lib.ScaledInt
import BookAgent.CloudAgent.Selection

/-!
# Spent holdings stay spent

Runs of the cache against a ledger, and when a holding that was marked consumed
can be offered again. A refresh prunes the consumed pool by what the snapshot
lists but the available pool by when an entry was discovered, so an id can lose
its consumed mark and keep its available entry. Where no refresh does that, and
none lists an id pruned before, no marked id is ever offered.
-/

namespace BookAgent.CloudAgent

open BookAgent.Lib

/-! ## The ledger -/

/-- When a contract is active: from its creation until its archival, if any. -/
structure Lifetime where
  created : Instant
  archived : Option Instant

/-- The life of each contract the ledger ever creates. -/
abbrev Ledger := String → Option Lifetime

/-- The contract is in the active set at the moment. -/
def Ledger.Active (ledger : Ledger) (moment : Instant) (cid : String) : Prop :=
  ∃ life, ledger cid = some life ∧ life.created ≤ moment ∧ ∀ t ∈ life.archived, moment < t

/-! ## Runs of the cache -/

/-- One operation on the cache, with the instant it samples. -/
inductive CacheEvent (D : Type)
  | addCreated (holdings : List (CachedHolding D))
  | markConsumed (contractIds : List String) (reason : String) (now : Instant)
  | reserve (contractIds : List String) (kind : ReservationKind) (now : Instant)
  | release (contractIds : List String)
  | restore (contractIds : List String) (quoteId : String) (expiresAt now : Instant)
  | cleanup (now : Instant)
  | refresh (holdings : List (CachedHolding D)) (snapshotStart : Instant)

variable {D : Type}

def HoldingsCache.apply (c : HoldingsCache D) : CacheEvent D → HoldingsCache D
  | .addCreated holdings => c.addCreated holdings
  | .markConsumed cids reason now => c.markConsumed cids reason now
  | .reserve cids kind now => (c.reserveWithKind cids kind now).2
  | .release cids => c.releaseReservations cids
  | .restore cids quoteId expiresAt now => c.restoreV2Reservation cids quoteId expiresAt now
  | .cleanup now => c.cleanupExpiredReservations now
  | .refresh holdings snapshotStart => c.refreshFromAcsSnapshot holdings snapshotStart

/-- The ids an event marks consumed. -/
def CacheEvent.marks : CacheEvent D → List String
  | .markConsumed cids _ _ => cids
  | _ => []

/-- When the snapshot an event applies started. -/
def CacheEvent.started : CacheEvent D → Option Instant
  | .refresh _ snapshotStart => some snapshotStart
  | _ => none

/-- The cache with what the run has done to it: every id passed to
`mark_consumed`, and when the latest snapshot applied started. -/
structure CacheRun (D : Type) where
  cache : HoldingsCache D
  marked : List String
  lastStart : Instant

namespace CacheRun

/-- An empty cache, with the dust thresholds set at startup. -/
def fresh (splitterReserveEnabled : Bool) (thresholds : Pool String D) : CacheRun D :=
  ⟨(HoldingsCache.new splitterReserveEnabled).setDustThresholds thresholds, [], 0⟩

def apply (w : CacheRun D) (e : CacheEvent D) : CacheRun D where
  cache := w.cache.apply e
  marked := e.marks ++ w.marked
  lastStart := e.started.getD w.lastStart

@[simp] theorem apply_cache (w : CacheRun D) (e : CacheEvent D) :
    (w.apply e).cache = w.cache.apply e := rfl

/-- What the callers promise: a holding is not added once its id was marked, and
a snapshot is the active set at some moment from its start on; snapshots are
applied in the order they started. -/
def Allowed (ledger : Ledger) (w : CacheRun D) : CacheEvent D → Prop
  | .addCreated holdings => ∀ h ∈ holdings, h.contractId ∉ w.marked
  | .refresh holdings snapshotStart =>
    w.lastStart ≤ snapshotStart ∧ ∃ moment ≥ snapshotStart,
      ∀ cid, cid ∈ holdings.map CachedHolding.contractId ↔ ledger.Active moment cid
  | _ => True

/-- A refresh that prunes no consumed id whose available entry it keeps, and
lists no id an earlier refresh pruned. -/
structure PrunesSafely (w : CacheRun D) (holdings : List (CachedHolding D))
    (snapshotStart : Instant) : Prop where
  notRecent : ∀ cid ∈ w.cache.consumed, cid ∉ holdings.map CachedHolding.contractId →
    ∀ h, w.cache.available.lookup cid = some h → h.discoveredAt ≤ snapshotStart
  notRelisted : ∀ cid ∈ holdings.map CachedHolding.contractId, cid ∈ w.marked →
    cid ∈ w.cache.consumed

/-- Every refresh prunes safely. -/
def Careful (w : CacheRun D) : CacheEvent D → Prop
  | .refresh holdings snapshotStart => w.PrunesSafely holdings snapshotStart
  | _ => True

end CacheRun

/-! ## Offers -/

section Offers

variable [Decimal D]

/-- Some caller can be handed the holding: it is selectable, or a disclosure
selects it. -/
inductive Offered (c : HoldingsCache D) (cid : String) : Prop
  | selectable {instrument : String} {excludeSplitterReserve : Bool} {now : Instant}
      {h : CachedHolding D} : h ∈ c.getSelectable instrument excludeSplitterReserve now →
      h.contractId = cid → Offered c cid
  | disclosed {instrument : String} {amount : D} {maxInputs : Nat} {isCc includeReserve : Bool}
      {now : Instant} {picks : List (CachedHolding D)} {h : CachedHolding D} :
      c.selectForDisclosureWith instrument amount maxInputs isCc includeReserve now = some picks →
      h ∈ picks → h.contractId = cid → Offered c cid

/-- No id marked during the run is offered. -/
def NeverOffered (w : CacheRun D) : Prop := ∀ cid ∈ w.marked, ¬ Offered w.cache cid

/-- An offered holding is available and not consumed. -/
theorem Offered.available {c : HoldingsCache D} {cid : String} (h : Offered c cid) :
    cid ∈ c.available ∧ cid ∉ c.consumed := by
  have ofSelectable : ∀ {instrument exclude now} {x : CachedHolding D},
      x ∈ c.getSelectable instrument exclude now → x.contractId = cid →
        cid ∈ c.available ∧ cid ∉ c.consumed := by
    intro instrument exclude now x hx hcid
    obtain ⟨⟨key, hkey⟩, hspend⟩ := HoldingsCache.mem_getSelectable hx
    have key_eq : key = cid := (c.keyed key x hkey).symm.trans hcid
    unfold HoldingsCache.isSpendable at hspend
    simp only [Bool.and_eq_true, decide_eq_true_eq] at hspend
    exact ⟨key_eq ▸ Pool.mem_iff_lookup.mpr ⟨x, hkey⟩, hcid ▸ hspend.1.2⟩
  cases h with
  | selectable hx hcid => exact ofSelectable hx hcid
  | disclosed hpicks hx hcid =>
    exact ofSelectable (HoldingsCache.selectForDisclosureWith_subset hpicks hx) hcid

end Offers

/-! ## The invariant -/

namespace CacheRun

/-- An available id that was marked is still held consumed. -/
def Guarded (w : CacheRun D) : Prop :=
  ∀ cid ∈ w.marked, cid ∈ w.cache.available → cid ∈ w.cache.consumed

theorem guarded_fresh (splitterReserveEnabled : Bool) (thresholds : Pool String D) :
    Guarded (fresh splitterReserveEnabled thresholds) := by
  intro cid hmarked
  cases hmarked

/-- **A refresh keeps the invariant exactly when it prunes safely.** -/
theorem guarded_refresh_iff {w : CacheRun D} {holdings : List (CachedHolding D)}
    {snapshotStart : Instant} (hw : Guarded w) (consumed_marked : ∀ cid ∈ w.cache.consumed,
      cid ∈ w.marked) :
    Guarded (w.apply (.refresh holdings snapshotStart)) ↔
      w.PrunesSafely holdings snapshotStart := by
  constructor
  · intro hkeep
    constructor
    · intro cid hconsumed hunlisted h hlookup
      by_contra hrecent
      have available : cid ∈ (w.cache.refreshFromAcsSnapshot holdings snapshotStart).available :=
        HoldingsCache.mem_available_refresh.mpr (.inr ⟨h, hlookup, Nat.lt_of_not_le hrecent⟩)
      have consumed := hkeep cid (consumed_marked cid hconsumed) available
      exact hunlisted (HoldingsCache.mem_consumed_refresh.mp consumed).2
    · intro cid hlisted hmarked
      have available : cid ∈ (w.cache.refreshFromAcsSnapshot holdings snapshotStart).available :=
        HoldingsCache.mem_available_refresh.mpr (.inl hlisted)
      exact (HoldingsCache.mem_consumed_refresh.mp (hkeep cid hmarked available)).1
  · intro hsafe cid hmarked havailable
    apply HoldingsCache.mem_consumed_refresh.mpr
    by_cases hlisted : cid ∈ holdings.map CachedHolding.contractId
    · exact ⟨hsafe.notRelisted cid hlisted hmarked, hlisted⟩
    · -- an unlisted id stays available only when it was discovered late
      rcases HoldingsCache.mem_available_refresh.mp havailable with h | ⟨h, hlookup, hrecent⟩
      · exact absurd h hlisted
      · have consumed := hw cid hmarked (Pool.mem_iff_lookup.mpr ⟨h, hlookup⟩)
        exact absurd (hsafe.notRecent cid consumed hlisted h hlookup) (Nat.not_le_of_gt hrecent)

/-- Only marked ids are consumed. -/
def MarksConsumed (w : CacheRun D) : Prop := ∀ cid ∈ w.cache.consumed, cid ∈ w.marked

theorem reserve_pools (c : HoldingsCache D) (cids : List String) (kind : ReservationKind)
    (now : Instant) :
    (c.reserveWithKind cids kind now).2.available = c.available ∧
      (c.reserveWithKind cids kind now).2.consumed = c.consumed := by
  rcases c.reserveWithKind_eq cids kind now with h | h <;> rw [h] <;> exact ⟨rfl, rfl⟩

theorem marksConsumed_step {w : CacheRun D} (hw : MarksConsumed w) (e : CacheEvent D) :
    MarksConsumed (w.apply e) := by
  intro cid hconsumed
  cases e with
  | markConsumed cids reason now =>
    rcases HoldingsCache.mem_consumed_markConsumed.mp hconsumed with h | h
    · exact List.mem_append_left _ h
    · exact List.mem_append_right _ (hw cid h)
  | refresh holdings snapshotStart =>
    exact hw cid (HoldingsCache.mem_consumed_refresh.mp hconsumed).1
  | reserve cids kind now =>
    rw [apply_cache, HoldingsCache.apply, (reserve_pools _ _ _ _).2] at hconsumed
    exact hw cid hconsumed
  | addCreated | release | restore | cleanup => exact hw cid hconsumed

/-- **What one event preserves.** -/
theorem guarded_step {ledger : Ledger} {w : CacheRun D} {e : CacheEvent D} (hw : Guarded w)
    (hmarks : MarksConsumed w) (hallowed : w.Allowed ledger e) (hcareful : w.Careful e) :
    Guarded (w.apply e) := by
  cases e with
  | addCreated holdings =>
    intro cid hmarked havailable
    rcases HoldingsCache.mem_available_addCreated.mp havailable with hnew | hold
    · obtain ⟨h, hmem, rfl⟩ := List.mem_map.mp hnew
      exact absurd hmarked (hallowed h hmem)
    · exact hw cid hmarked hold
  | markConsumed cids reason now =>
    intro cid hmarked havailable
    apply HoldingsCache.mem_consumed_markConsumed.mpr
    rcases List.mem_append.mp hmarked with h | h
    · exact .inl h
    · exact .inr (hw cid h havailable)
  | refresh holdings snapshotStart => exact (guarded_refresh_iff hw hmarks).mpr hcareful
  | reserve cids kind now =>
    intro cid hmarked havailable
    rw [apply_cache, HoldingsCache.apply, (reserve_pools _ _ _ _).1] at havailable
    rw [apply_cache, HoldingsCache.apply, (reserve_pools _ _ _ _).2]
    exact hw cid hmarked havailable
  | release | restore | cleanup => exact hw

/-- **What a run preserves.** -/
theorem guarded_run {ledger : Ledger} {splitterReserveEnabled : Bool} {thresholds : Pool String D}
    {w : CacheRun D}
    (run : Reachable (fun w e => Allowed ledger w e ∧ Careful w e) apply
      (fresh splitterReserveEnabled thresholds) w) : Guarded w ∧ MarksConsumed w := by
  refine Reachable.invariant (fun w => Guarded w ∧ MarksConsumed w) ?_ ?_ run
  · refine ⟨guarded_fresh _ _, ?_⟩
    intro cid hconsumed
    exact absurd hconsumed (AList.notMem_empty cid)
  · rintro s e ⟨hguarded, hmarks⟩ ⟨hallowed, hcareful⟩
    exact ⟨guarded_step hguarded hmarks hallowed hcareful, marksConsumed_step hmarks e⟩

end CacheRun

section NeverOffered

variable [Decimal D]

/-- **A spent holding is never offered again** in a run whose refreshes prune
safely. -/
theorem neverOffered_of_careful (ledger : Ledger) {splitterReserveEnabled : Bool}
    {thresholds : Pool String D} {w : CacheRun D}
    (run : Reachable (fun w e => CacheRun.Allowed ledger w e ∧ CacheRun.Careful w e) CacheRun.apply
      (CacheRun.fresh splitterReserveEnabled thresholds) w) : NeverOffered w := by
  intro cid hmarked hoffered
  obtain ⟨havailable, hfree⟩ := hoffered.available
  exact hfree ((CacheRun.guarded_run run).1 cid hmarked havailable)

end NeverOffered

/-! ## A holding that is created, spent and offered again -/

section Sample

def spentHolding : CachedHolding ScaledInt :=
  ⟨"00aa", "#splice-amulet:Splice.Amulet:Amulet", "CC", ⟨10, 0⟩, some "blob", "sync", seconds 2⟩

/-- The holding is created after two seconds and archived after three. -/
def spentLedger : Ledger := fun cid =>
  if cid = "00aa" then some ⟨seconds 2, some (seconds 3)⟩ else none

/-- The holding is added and spent; then a snapshot without it is applied. -/
def spentRun (snapshotStart : Instant) : CacheRun ScaledInt :=
  (((CacheRun.fresh false ∅).apply (.addCreated [spentHolding])).apply
    (.markConsumed ["00aa"] "settled" (seconds 3))).apply (.refresh [] snapshotStart)

theorem spentLedger_empty (cid : String) : ¬ spentLedger.Active (seconds 3) cid := by
  rintro ⟨life, hlife, -, harchived⟩
  unfold spentLedger at hlife
  split at hlife
  · obtain rfl := Option.some.inj hlife
    exact absurd (harchived _ rfl) (Nat.lt_irrefl _)
  · cases hlife

/-- The snapshot read once the holding is archived is what the callers promise. -/
theorem spentRun_allowed {w : CacheRun ScaledInt} {snapshotStart : Instant}
    (horder : w.lastStart ≤ snapshotStart) (hstart : snapshotStart ≤ seconds 3) :
    CacheRun.Allowed spentLedger w (.refresh [] snapshotStart) := by
  refine ⟨horder, seconds 3, hstart, ?_⟩
  intro cid
  exact iff_of_false List.not_mem_nil (spentLedger_empty cid)

/-- Under rules that admit the refresh, the run is a run. -/
theorem spentRun_reachable {allowed : CacheRun ScaledInt → CacheEvent ScaledInt → Prop}
    {snapshotStart : Instant}
    (hadd : allowed (CacheRun.fresh false ∅) (.addCreated [spentHolding]))
    (hmark : ∀ w, allowed w (.markConsumed ["00aa"] "settled" (seconds 3)))
    (hrefresh : allowed (((CacheRun.fresh false ∅).apply (.addCreated [spentHolding])).apply
      (.markConsumed ["00aa"] "settled" (seconds 3))) (.refresh [] snapshotStart)) :
    Reachable allowed CacheRun.apply (CacheRun.fresh false ∅) (spentRun snapshotStart) :=
  .step (.step (.step .start hadd) (hmark _)) hrefresh

/-- A snapshot that started after the holding was discovered prunes it. -/
theorem spentRun_neverOffered : NeverOffered (spentRun (seconds 3)) := by
  refine neverOffered_of_careful spentLedger (spentRun_reachable ?_ ?_ ?_)
  · exact ⟨fun h _ => List.not_mem_nil, trivial⟩
  · exact fun w => ⟨trivial, trivial⟩
  · refine ⟨spentRun_allowed (Nat.zero_le _) le_rfl, ?_, ?_⟩
    · intro cid _ _ h hlookup
      rcases Pool.lookup_insertAll hlookup with hmem | hold
      · obtain ⟨-, rfl⟩ := Prod.mk.inj (List.mem_singleton.mp hmem)
        decide
      · have empty : AList.lookup cid (∅ : Pool String (CachedHolding ScaledInt)) = some h := hold
        rw [AList.lookup_empty] at empty
        cases empty
    · intro cid hlisted
      cases hlisted

/-- A snapshot that started before it leaves it available and forgets that it was
consumed. -/
theorem spent_offered_again :
    ¬ ∀ (ledger : Ledger) (splitterReserveEnabled : Bool) (thresholds : Pool String ScaledInt)
        (w : CacheRun ScaledInt),
      Reachable (CacheRun.Allowed ledger) CacheRun.apply
        (CacheRun.fresh splitterReserveEnabled thresholds) w → NeverOffered w := by
  intro claim
  have run : Reachable (CacheRun.Allowed spentLedger) CacheRun.apply (CacheRun.fresh false ∅)
      (spentRun (seconds 1)) :=
    spentRun_reachable (fun _ _ => List.not_mem_nil) (fun _ => trivial)
      (spentRun_allowed (Nat.zero_le _) (by decide))
  have never := claim spentLedger false ∅ _ run "00aa" List.mem_cons_self
  apply never
  have selectable : spentHolding ∈
      (spentRun (seconds 1)).cache.getSelectable "CC" false (seconds 4) := by decide +kernel
  exact .selectable selectable rfl

end Sample

end BookAgent.CloudAgent
