import Mathlib.Algebra.GroupWithZero.Nat
import Mathlib.Order.Lattice.Nat
import BookAgent.CloudAgent.Selection

/-!
# The split worker

`ensure_denominations` (`split_worker.rs`) with what the cache keeps for it: it counts the
ladder's rungs, plans a refill, asks the gate over the recorded submissions, takes the
splitter reserve and submits a split of it. Calls run at the same time, each from one await
to the next; the cache is shared.
-/

namespace BookAgent.CloudAgent

open BookAgent.Lib

def u32Max : Nat := 2 ^ 32 - 1

/-- What the ladder does with amounts beyond `Decimal`. -/
class LadderDecimal (D : Type) extends Decimal D where
  saturatingMul : D → D → D
  checkedDiv : D → D → Option D
  /-- `trunc().to_u32()` -/
  truncToU32 : D → Option Nat

/-! ## The cache's records for splits -/

/-- TTL for the rungs of a committed split. -/
def pendingSplitTtlSecs : Nat := 300

/-- Window for the split-op budget of an instrument. -/
def splitOpWindowSecs : Nat := 3600

/-- Rungs that a committed split created but the ACS has not confirmed yet. -/
structure PendingSplit (D : Type) where
  instrument : String
  denom : D
  count : Nat
  recordedAt : Instant

def PendingSplit.isExpired {D : Type} (p : PendingSplit D) (now : Instant) : Bool :=
  decide (secsSince now p.recordedAt > pendingSplitTtlSecs)

/-- The holdings, the optimistic rungs and the submission times of each instrument. -/
structure SplitCache (D : Type) where
  holdings : HoldingsCache D
  pendingSplits : List (PendingSplit D)
  splitOpTimes : Pool String (List Instant)

namespace SplitCache

variable {D : Type}

def recordPendingSplit (c : SplitCache D) (instrument : String) (splits : List (D × Nat))
    (now : Instant) : SplitCache D :=
  { c with
    pendingSplits := (c.pendingSplits.filter fun p => !p.isExpired now) ++
      splits.map fun s => ⟨instrument, s.1, s.2, now⟩ }

/-- A complete snapshot replaces the optimistic rungs recorded before it. -/
def clearPendingSplitsBefore (c : SplitCache D) (snapshotStart : Instant) : SplitCache D :=
  { c with pendingSplits := c.pendingSplits.filter fun p => decide (p.recordedAt ≥ snapshotStart) }

/-- The recorded times of the instrument within the window. -/
def splitOps (c : SplitCache D) (instrument : String) (now : Instant) : List Instant :=
  ((c.splitOpTimes.lookup instrument).getD []).filter fun t =>
    decide (secsSince now t < splitOpWindowSecs)

def recordSplitOp (c : SplitCache D) (instrument : String) (now : Instant) : SplitCache D :=
  { c with
    splitOpTimes := c.splitOpTimes.insert instrument (c.splitOps instrument now ++ [now]) }

variable [Decimal D]

/-- The largest available holding, if the reserve is enabled. -/
def splitterReserve (c : SplitCache D) (instrument : String) (now : Instant) :
    Option (CachedHolding D) :=
  if c.holdings.splitterReserveEnabled then do
    let cid ← c.holdings.splitterReserveCid now instrument
    c.holdings.available.lookup cid
  else none

/-- How many holdings with `lo <= amount < hi` exist, usable or not, and how many are expected. -/
def countInBand (c : SplitCache D) (instrument : String) (lo hi : D) (now : Instant) : Nat :=
  let splitterCid :=
    if c.holdings.splitterReserveEnabled then c.holdings.splitterReserveCid now instrument else none
  let existing := (c.holdings.available.values.filter fun h =>
    decide (h.instrument = instrument) && decide (h.contractId ∉ c.holdings.consumed) &&
      decide (some h.contractId ≠ splitterCid) && Decimal.le lo h.amount &&
      Decimal.lt h.amount hi).length
  let pending := (c.pendingSplits.filter fun p =>
    decide (p.instrument = instrument) && !p.isExpired now && Decimal.le lo p.denom &&
      Decimal.lt p.denom hi).foldl (fun acc p => min (acc + p.count) u32Max) 0
  min (min existing u32Max + pending) u32Max

end SplitCache

/-! ## Planning -/

section Planning

variable {D : Type}

/-- Saturating sum of counts. -/
def countSum (counts : List Nat) : Nat := counts.foldl (fun acc c => min (acc + c) u32Max) 0

theorem foldl_saturating {α : Type} (count : α → Nat) (xs : List α) {acc : Nat}
    (hacc : acc ≤ u32Max) :
    xs.foldl (fun acc x => min (acc + count x) u32Max) acc
      = min (acc + (xs.map count).sum) u32Max := by
  induction xs generalizing acc with
  | nil => simpa using hacc
  | cons x xs ih =>
    rw [List.foldl_cons, ih (Nat.min_le_right _ _), List.map_cons, List.sum_cons]
    omega

theorem countSum_eq (counts : List Nat) : countSum counts = min counts.sum u32Max := by
  have hsum := foldl_saturating id counts (Nat.zero_le u32Max)
  rw [List.map_id, Nat.zero_add] at hsum
  exact hsum

/-- The whole ladder is refilled once a rung falls below its low-water mark. -/
def planLadderRefill (rungs : List (D × Nat)) (haves : List Nat) (lowWaterDivisor : Nat) :
    List (D × Nat) :=
  let divisor := max lowWaterDivisor 1
  let pairs := rungs.zip haves
  if pairs.any fun p => decide (p.2 < max (p.1.2 / divisor) 1) then
    (pairs.filter fun p => decide (p.2 < p.1.2)).map fun p => (p.1.1, p.1.2 - p.2)
  else []

/-- The ladder holds at least twice its target. -/
def ladderOverfull (rungs : List (D × Nat)) (haves : List Nat) : Bool :=
  let target := countSum (rungs.map Prod.snd)
  decide (0 < target) && decide (min (target * 2) u32Max ≤ countSum haves)

/-- Up to `max` outputs, rung after rung. -/
def capSplitOutputs (max : Nat) : List (D × Nat) → Nat → List (D × Nat)
  | [], _ => []
  | (denom, count) :: rest, used =>
    if used ≥ max then []
    else
      let take := min count (max - used)
      if take = 0 then capSplitOutputs max rest used
      else (denom, take) :: capSplitOutputs max rest (min (used + take) u32Max)

def maxSplitOutputsPerTx : Nat := 90

variable [LadderDecimal D]

/-- What the budget affords, rung after rung. -/
def fundFrom : D → List (D × Nat) → List (D × Nat)
  | _, [] => []
  | budget, (denom, deficit) :: rest =>
    if Decimal.le denom Decimal.zero || Decimal.lt budget denom then fundFrom budget rest
    else
      let affordable := ((LadderDecimal.checkedDiv budget denom).bind
        LadderDecimal.truncToU32).getD u32Max
      let count := min deficit affordable
      if count = 0 then fundFrom budget rest
      else
        match do
          let cost ← Decimal.checkedMul denom (Decimal.new (count : Int) 0)
          Decimal.checkedSub budget cost with
        | none => []
        | some left => (denom, count) :: fundFrom left rest

/-- The reserve keeps 5% as change. -/
def fundSplits (reserveAmount : D) (deficits : List (D × Nat)) : List (D × Nat) :=
  fundFrom ((Decimal.checkedMul reserveAmount (Decimal.new 95 2)).getD reserveAmount) deficits

/-- The funded rungs under the outputs limit of a transaction. -/
def planSplits (reserveAmount : D) (deficits : List (D × Nat)) : List (D × Nat) :=
  let splits := fundSplits reserveAmount deficits
  if countSum (splits.map Prod.snd) > maxSplitOutputsPerTx then
    capSplitOutputs maxSplitOutputsPerTx splits 0
  else splits

/-- Upper end of a rung's band. -/
def bandTop (denom : D) : D := LadderDecimal.saturatingMul denom (Decimal.new 2 0)

end Planning

/-! ## The gate -/

inductive SplitGate
  | allow
  | cooldown (secsSinceLast : Nat)
  | budgetExhausted (opsInWindow : Nat)
  deriving DecidableEq

def splitBudgetWindow : Instant := seconds 3600

/-- First the budget, then the minimum interval since the last submission. -/
def splitGate (opTimes : List Instant) (now minInterval : Instant) (maxOpsPerWindow : Nat) :
    SplitGate :=
  let opsInWindow := opTimes.countP fun t => decide (now - t < splitBudgetWindow)
  if opsInWindow ≥ maxOpsPerWindow then .budgetExhausted opsInWindow
  else
    match opTimes.max? with
    | some last =>
      if now - last < minInterval then .cooldown (secsSince now last) else .allow
    | none => .allow

/-! ## Calls -/

/-- One ladder and its limits. -/
structure SplitConfig (D : Type) where
  /-- The instrument's key. -/
  key : String
  rungs : List (D × Nat)
  splitLowWaterDivisor : Nat
  splitMinIntervalSecs : Nat
  splitMaxOpsPerHour : Nat

/-- Where a call of `ensure_denominations` is, between two awaits. -/
inductive SplitStage (D : Type)
  | counting (haves : List Nat)
  | gating (deficits : List (D × Nat))
  /-- The gate said allow; `seen` are the submissions there were. -/
  | passed (deficits : List (D × Nat)) (seen : List Instant)
  | funded (reserve : CachedHolding D) (splits : List (D × Nat)) (seen : List Instant)
  | reserved (inputCids : List String) (splits : List (D × Nat)) (seen : List Instant)
  | submitting (inputCids : List String) (splits : List (D × Nat))
  | committed (splits : List (D × Nat))
  | ended

/-- The cache, the calls and every submission so far, in order. -/
structure SplitWorld (D : Type) where
  cache : SplitCache D
  calls : List (SplitStage D)
  clock : Instant
  submissions : List Instant

inductive SplitEvent (D : Type)
  | call
  /-- A call goes on to its next await; it reads its records at `readAt`, the clock at `now`. -/
  | step (i : Nat) (readAt now : Instant) (jobId : String)
  | submitEnds (i : Nat) (result : Except String String) (now : Instant)
  /-- A call is dropped, or panics. -/
  | drop (i : Nat)
  /-- The watcher, a refresh, the cleanup or another submitter changes the holdings. -/
  | holdings (holdings : HoldingsCache D) (now : Instant)
  | snapshotEnds (snapshotStart now : Instant)

namespace SplitWorld

variable {D : Type} [LadderDecimal D] (cfg : SplitConfig D) (w : SplitWorld D)

def setCall (i : Nat) (stage : SplitStage D) : SplitWorld D := { w with calls := w.calls.set i stage }

/-- The plan once every band is counted. -/
def plan (haves : List Nat) : SplitStage D :=
  let deficits := planLadderRefill cfg.rungs haves cfg.splitLowWaterDivisor
  if deficits.isEmpty then .ended
  else if ladderOverfull cfg.rungs haves then .ended
  else .gating deficits

/-- One step of the call at `i`. -/
def stepCall (i : Nat) (readAt now : Instant) (jobId : String) : SplitWorld D :=
  match w.calls[i]? with
  | some (.counting haves) =>
    match cfg.rungs[haves.length]? with
    | some (denom, _) =>
      let haves := haves ++ [w.cache.countInBand cfg.key denom (bandTop denom) readAt]
      w.setCall i (if haves.length < cfg.rungs.length then .counting haves else plan cfg haves)
    | none => w.setCall i (plan cfg haves)
  | some (.gating deficits) =>
    match splitGate (w.cache.splitOps cfg.key readAt) now (seconds cfg.splitMinIntervalSecs)
      cfg.splitMaxOpsPerHour with
    | .allow => w.setCall i (.passed deficits w.submissions)
    | _ => w.setCall i .ended
  | some (.passed deficits seen) =>
    match w.cache.splitterReserve cfg.key readAt with
    | none => w.setCall i .ended
    | some reserve =>
      let splits := planSplits reserve.amount deficits
      w.setCall i (if splits.isEmpty then .ended else .funded reserve splits seen)
  | some (.funded reserve splits seen) =>
    let inputCids := [reserve.contractId]
    match w.cache.holdings.reserveSplit inputCids jobId readAt with
    | (true, holdings) =>
      { w.setCall i (.reserved inputCids splits seen) with cache := { w.cache with holdings } }
    | (false, _) => w.setCall i .ended
  | some (.reserved inputCids splits _) =>
    { w.setCall i (.submitting inputCids splits) with
      cache := w.cache.recordSplitOp cfg.key now
      submissions := w.submissions ++ [now] }
  | some (.committed splits) =>
    { w.setCall i .ended with cache := w.cache.recordPendingSplit cfg.key splits now }
  | _ => w

/-- A submit that commits consumes its inputs, any error releases them. -/
def submitEnds (i : Nat) (result : Except String String) (now : Instant) : SplitWorld D :=
  match w.calls[i]? with
  | some (.submitting inputCids splits) =>
    match result with
    | .ok updateId =>
      { w.setCall i (.committed splits) with
        cache := { w.cache with holdings := w.cache.holdings.markConsumed inputCids updateId now } }
    | .error _ =>
      { w.setCall i .ended with
        cache := { w.cache with holdings := w.cache.holdings.releaseReservations inputCids } }
  | _ => w

def apply : SplitEvent D → SplitWorld D
  | .call => { w with calls := w.calls ++ [.counting []] }
  | .step i readAt now jobId => { w.stepCall cfg i readAt now jobId with clock := now }
  | .submitEnds i result now => { w.submitEnds i result now with clock := now }
  | .drop i => w.setCall i .ended
  | .holdings holdings now => { w with cache := { w.cache with holdings }, clock := now }
  | .snapshotEnds snapshotStart now =>
    { w with cache := w.cache.clearPendingSplitsBefore snapshotStart, clock := now }

end SplitWorld

end BookAgent.CloudAgent
