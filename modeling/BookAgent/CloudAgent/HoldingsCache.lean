import BookAgent.Lib.Pool
import BookAgent.Lib.Decimal

/-!
# The holdings cache

The shared pool of holdings (`holdings_cache.rs`): what is available, what was
consumed and what is reserved, each keyed by contract id, and the operations that
change them. An operation runs under the locks of the pools it changes, so it is
one step; the instant it samples is an argument.
-/

namespace BookAgent.CloudAgent

open BookAgent.Lib

/-! ## Instants -/

/-- `std::time::Instant`, in nanoseconds since some origin. -/
abbrev Instant := Nat

def seconds (n : Nat) : Instant := n * 1000000000

/-- The whole seconds from `earlier` to `now`, none when `earlier` is the later
(`saturating_duration_since(..).as_secs()`). -/
def secsSince (now earlier : Instant) : Nat := (now - earlier) / seconds 1

theorem secsSince_mono {now now' earlier : Instant} (h : now ≤ now') :
    secsSince now earlier ≤ secsSince now' earlier :=
  Nat.div_le_div_right (Nat.sub_le_sub_right h earlier)

/-- TTL for available holdings. -/
def availableTtlSecs : Nat := 180

/-- TTL for v1 payment reservations. -/
def v1ReservationTtlSecs : Nat := 60

/-- TTL for split-job reservations. -/
def splitReservationTtlSecs : Nat := 300

/-! ## Entries -/

/-- A cached holding (CC amulet or CIP-56 Holding). -/
structure CachedHolding (D : Type) where
  contractId : String
  templateId : String
  instrument : String
  amount : D
  /-- `none` while the blob is pending. -/
  createdEventBlob : Option String
  synchronizerId : String
  discoveredAt : Instant
  deriving DecidableEq

/-- Why a holding is reserved. -/
inductive ReservationKind
  | v1Payment (paymentId : String)
  | v2Quote (quoteId : String) (expiresAt : Instant)
  | split (jobId : String)
  deriving DecidableEq

structure ConsumedEntry where
  reason : String
  consumedAt : Instant

structure ReservedEntry where
  kind : ReservationKind
  reservedAt : Instant
  deriving DecidableEq

def ReservedEntry.isExpired (entry : ReservedEntry) (now : Instant) : Bool :=
  match entry.kind with
  | .v1Payment _ => secsSince now entry.reservedAt > v1ReservationTtlSecs
  | .v2Quote _ expiresAt => now ≥ expiresAt
  | .split _ => secsSince now entry.reservedAt > splitReservationTtlSecs

/-- An entry that has expired stays expired. -/
theorem ReservedEntry.isExpired_mono {entry : ReservedEntry} {now now' : Instant} (h : now ≤ now')
    (hexp : entry.isExpired now = true) : entry.isExpired now' = true := by
  unfold ReservedEntry.isExpired at *
  cases hkind : entry.kind with
  | v1Payment paymentId =>
    simp only [hkind, decide_eq_true_eq] at hexp ⊢
    exact Nat.lt_of_lt_of_le hexp (secsSince_mono h)
  | v2Quote quoteId expiresAt =>
    simp only [hkind, decide_eq_true_eq] at hexp ⊢
    exact Nat.le_trans hexp h
  | split jobId =>
    simp only [hkind, decide_eq_true_eq] at hexp ⊢
    exact Nat.lt_of_lt_of_le hexp (secsSince_mono h)

/-- Holdings under their contract ids. -/
def byContractId {D : Type} (holdings : List (CachedHolding D)) :
    List (String × CachedHolding D) :=
  holdings.map fun h => (h.contractId, h)

/-- Every holding is under its own contract id. -/
def KeyedById {D : Type} (p : Pool String (CachedHolding D)) : Prop :=
  ∀ cid h, p.lookup cid = some h → h.contractId = cid

/-- Three pools keyed by contract id; the instrument is on each holding. -/
structure HoldingsCache (D : Type) where
  available : Pool String (CachedHolding D)
  consumed : Pool String ConsumedEntry
  reserved : Pool String ReservedEntry
  splitterReserveEnabled : Bool
  /-- The dust threshold of each instrument. -/
  dustBelow : Pool String D
  keyed : KeyedById available

section Keyed

variable {D : Type} {p : Pool String (CachedHolding D)}

theorem keyedById_empty : KeyedById (∅ : Pool String (CachedHolding D)) := by
  intro cid h hlookup
  rw [AList.lookup_empty] at hlookup
  cases hlookup

theorem KeyedById.retain (hp : KeyedById p) (keep : String → CachedHolding D → Bool) :
    KeyedById (p.retain keep) := by
  intro cid h hlookup
  exact hp cid h (Pool.lookup_retain_eq_some.mp hlookup).1

theorem KeyedById.insertAll (hp : KeyedById p) {entries : List (String × CachedHolding D)}
    (hentries : ∀ e ∈ entries, e.2.contractId = e.1) : KeyedById (p.insertAll entries) := by
  intro cid h hlookup
  rcases Pool.lookup_insertAll hlookup with hmem | hold
  · exact hentries _ hmem
  · exact hp cid h hold

theorem byContractId_keyed (holdings : List (CachedHolding D)) :
    ∀ e ∈ byContractId holdings, e.2.contractId = e.1 := by
  intro e he
  obtain ⟨h, -, rfl⟩ := List.mem_map.mp he
  rfl

end Keyed

namespace HoldingsCache

variable {D : Type}

def new (splitterReserveEnabled : Bool) : HoldingsCache D :=
  ⟨∅, ∅, ∅, splitterReserveEnabled, ∅, keyedById_empty⟩

def setDustThresholds (c : HoldingsCache D) (thresholds : Pool String D) : HoldingsCache D :=
  { c with dustBelow := thresholds }

/-! ## Feeding the available pool -/

/-- The snapshot as a pool; of two holdings with one id the later is kept. -/
def snapshotPool (holdings : List (CachedHolding D)) : Pool String (CachedHolding D) :=
  Pool.insertAll ∅ (byContractId holdings)

theorem snapshotPool_keyed (holdings : List (CachedHolding D)) :
    ∀ e ∈ (snapshotPool holdings).toPairs, e.2.contractId = e.1 := by
  intro e he
  exact keyedById_empty.insertAll (byContractId_keyed holdings) _ _ (Pool.mem_toPairs.mp he)

/-- Merge a full snapshot. Consumed entries the snapshot no longer lists are
pruned; an entry it does not list stays available when it was discovered after
`snapshotStart`. -/
def refreshFromAcsSnapshot (c : HoldingsCache D) (holdings : List (CachedHolding D))
    (snapshotStart : Instant) : HoldingsCache D :=
  { c with
    consumed := c.consumed.retain fun cid _ => decide (cid ∈ snapshotPool holdings)
    available := (c.available.retain fun _ h => decide (h.discoveredAt > snapshotStart)).insertAll
      (snapshotPool holdings).toPairs
    keyed := (c.keyed.retain _).insertAll (snapshotPool_keyed holdings) }

/-- Add newly created holdings. -/
def addCreated (c : HoldingsCache D) (holdings : List (CachedHolding D)) : HoldingsCache D :=
  { c with
    available := c.available.insertAll (byContractId holdings)
    keyed := c.keyed.insertAll (byContractId_keyed holdings) }

/-! ## Reservations -/

/-- Whether a reservation that has not expired holds the id. -/
def isReserved (c : HoldingsCache D) (cid : String) (now : Instant) : Bool :=
  (c.reserved.lookup cid).any fun entry => !entry.isExpired now

/-- The id can be reserved: not consumed, and no live reservation holds it. -/
def canReserve (c : HoldingsCache D) (cid : String) (now : Instant) : Bool :=
  decide (cid ∉ c.consumed) && !c.isReserved cid now

/-- Put the ids under one entry. -/
def setReserved (c : HoldingsCache D) (contractIds : List String) (entry : ReservedEntry) :
    HoldingsCache D :=
  { c with reserved := c.reserved.insertAll (contractIds.map (·, entry)) }

/-- Reserve all the ids or none; the flag says which. -/
def reserveWithKind (c : HoldingsCache D) (contractIds : List String) (kind : ReservationKind)
    (now : Instant) : Bool × HoldingsCache D :=
  if contractIds.all (c.canReserve · now) then (true, c.setReserved contractIds ⟨kind, now⟩)
  else (false, c)

def reserveV2 (c : HoldingsCache D) (contractIds : List String) (quoteId : String)
    (expiresAt now : Instant) : Bool × HoldingsCache D :=
  c.reserveWithKind contractIds (.v2Quote quoteId expiresAt) now

def reserveSplit (c : HoldingsCache D) (contractIds : List String) (jobId : String)
    (now : Instant) : Bool × HoldingsCache D :=
  c.reserveWithKind contractIds (.split jobId) now

/-- `CcView::reserve`. -/
def ccReserve (c : HoldingsCache D) (contractIds : List String) (paymentId : String)
    (now : Instant) : Bool × HoldingsCache D :=
  c.reserveWithKind contractIds (.v1Payment paymentId) now

/-- Restore a V2 reservation from saved state, unconditionally. -/
def restoreV2Reservation (c : HoldingsCache D) (contractIds : List String) (quoteId : String)
    (expiresAt now : Instant) : HoldingsCache D :=
  c.setReserved contractIds ⟨.v2Quote quoteId expiresAt, now⟩

/-- Move holdings from reserved to consumed. -/
def markConsumed (c : HoldingsCache D) (contractIds : List String) (reason : String)
    (now : Instant) : HoldingsCache D :=
  { c with
    reserved := c.reserved.eraseAll contractIds
    consumed := c.consumed.insertAll (contractIds.map (·, ⟨reason, now⟩)) }

def releaseReservations (c : HoldingsCache D) (contractIds : List String) : HoldingsCache D :=
  { c with reserved := c.reserved.eraseAll contractIds }

/-- Drop expired reservations. -/
def cleanupExpiredReservations (c : HoldingsCache D) (now : Instant) : HoldingsCache D :=
  { c with reserved := c.reserved.retain fun _ entry => !entry.isExpired now }

/-! ## What an operation leaves in a pool -/

theorem fst_byContractId (holdings : List (CachedHolding D)) :
    (byContractId holdings).map Prod.fst = holdings.map CachedHolding.contractId := by
  rw [byContractId, List.map_map]
  rfl

theorem mem_insertAll_byContractId {p : Pool String (CachedHolding D)}
    {holdings : List (CachedHolding D)} {cid : String} :
    cid ∈ p.insertAll (byContractId holdings) ↔
      cid ∈ holdings.map CachedHolding.contractId ∨ cid ∈ p := by
  rw [Pool.mem_insertAll, fst_byContractId]

theorem mem_snapshotPool {holdings : List (CachedHolding D)} {cid : String} :
    cid ∈ snapshotPool holdings ↔ cid ∈ holdings.map CachedHolding.contractId := by
  rw [snapshotPool, mem_insertAll_byContractId, or_iff_left (AList.notMem_empty cid)]

/-- The ids consumed after a refresh: those the snapshot still lists. -/
theorem mem_consumed_refresh {c : HoldingsCache D} {holdings : List (CachedHolding D)}
    {snapshotStart : Instant} {cid : String} :
    cid ∈ (c.refreshFromAcsSnapshot holdings snapshotStart).consumed ↔
      cid ∈ c.consumed ∧ cid ∈ holdings.map CachedHolding.contractId := by
  unfold refreshFromAcsSnapshot
  rw [Pool.mem_retain_keys, decide_eq_true_eq, mem_snapshotPool]

/-- The ids available after a refresh: those the snapshot lists, and those it
does not but that were discovered after it started. -/
theorem mem_available_refresh {c : HoldingsCache D} {holdings : List (CachedHolding D)}
    {snapshotStart : Instant} {cid : String} :
    cid ∈ (c.refreshFromAcsSnapshot holdings snapshotStart).available ↔
      cid ∈ holdings.map CachedHolding.contractId ∨
        ∃ h, c.available.lookup cid = some h ∧ h.discoveredAt > snapshotStart := by
  unfold refreshFromAcsSnapshot
  rw [Pool.mem_insertAll, Pool.fst_toPairs, ← AList.mem_keys, mem_snapshotPool, Pool.mem_retain]
  simp only [decide_eq_true_eq]

theorem mem_available_addCreated {c : HoldingsCache D} {holdings : List (CachedHolding D)}
    {cid : String} :
    cid ∈ (c.addCreated holdings).available ↔
      cid ∈ holdings.map CachedHolding.contractId ∨ cid ∈ c.available :=
  mem_insertAll_byContractId

theorem mem_consumed_markConsumed {c : HoldingsCache D} {cids : List String} {reason : String}
    {now : Instant} {cid : String} :
    cid ∈ (c.markConsumed cids reason now).consumed ↔ cid ∈ cids ∨ cid ∈ c.consumed := by
  unfold markConsumed
  rw [Pool.mem_insertAll, List.map_map]
  simp only [Function.comp_def, List.map_id']

/-- Reserving touches the reserved pool only. -/
theorem reserveWithKind_eq (c : HoldingsCache D) (cids : List String) (kind : ReservationKind)
    (now : Instant) :
    c.reserveWithKind cids kind now = (false, c) ∨
      c.reserveWithKind cids kind now = (true, c.setReserved cids ⟨kind, now⟩) := by
  unfold reserveWithKind
  split
  · exact .inr rfl
  · exact .inl rfl

/-- A reservation succeeds when every id can be reserved. -/
theorem reserveWithKind_fst {c : HoldingsCache D} {cids : List String} {kind : ReservationKind}
    {now : Instant} :
    (c.reserveWithKind cids kind now).1 = true ↔ ∀ cid ∈ cids, c.canReserve cid now = true := by
  unfold reserveWithKind
  split
  · rename_i hall
    exact iff_of_true rfl (List.all_eq_true.mp hall)
  · rename_i hall
    exact iff_of_false Bool.false_ne_true fun h => hall (List.all_eq_true.mpr h)

end HoldingsCache

end BookAgent.CloudAgent
