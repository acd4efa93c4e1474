import BookAgent.Lib.Decay

/-!
# Net positions

The tracker of the signed net flow for each counterparty and token, and for each
token over all counterparties. A flow counts when its quote is confirmed and stands as
pending until the quote settles, is released or has gone stale. Amounts decay over a
window; an aggregate is rebased when it is written and dropped when it is small.
-/

namespace BookAgent.AgentLogic.NetPosition

open BookAgent.Lib

variable {K : Type} [Field K] [LinearOrder K]

/-- `EPSILON_BASE`. -/
def epsilonBase : K := 1 / 10 ^ 9

/-- `NET_STATE_VERSION`. -/
def netStateVersion : Nat := 1

structure PendingNet (K : Type) where
  party : Option String
  token : String
  /-- Positive when the user bought base from us. -/
  delta : K
  atMs : Int

structure Inner (K : Type) where
  nets : Aggregates (String × String) K
  desk : Aggregates String K
  pending : Pool String (PendingNet K)
  dirty : Bool

/-- What a tracker is constructed with. -/
structure Config (K : Type) [Field K] [LinearOrder K] where
  decay : Decay K
  windowMs : Int
  stalePendingAfterMs : Int

/-- Whether a reversal recreates an aggregate that is absent. -/
inductive ReverseMode
  | live
  | afterPrune
  deriving DecidableEq

namespace PendingNet

/-- The party aggregate a flow counts in. -/
def netKey (p : PendingNet K) : Option (String × String) := p.party.map (·, p.token)

/-- The desk aggregate a flow counts in. -/
def deskKey (p : PendingNet K) : Option String := some p.token

/-- The delta as it stands after decay. -/
def remaining (cfg : Config K) (p : PendingNet K) (now : Int) : K :=
  p.delta * cfg.decay.between p.atMs now

end PendingNet

section Aggregate

variable {κ : Type} [DecidableEq κ] (cfg : Config K)

/-- Rebase and add to the aggregate of a key, if there is one. -/
def rebase (aggregates : Aggregates κ K) (key : Option κ) (now : Int) (delta : K) :
    Aggregates κ K :=
  match key with
  | none => aggregates
  | some key => Aggregates.add cfg.decay epsilonBase aggregates key now delta

/-- Whether a reversal writes the aggregate of a key. -/
def reverses (mode : ReverseMode) (aggregates : Aggregates κ K) (key : Option κ) : Bool :=
  match key with
  | none => false
  | some key => decide (key ∈ aggregates) || decide (mode = .live)

/-- Take `remaining` out of the aggregate of a key. -/
def reverseIn (mode : ReverseMode) (aggregates : Aggregates κ K) (key : Option κ) (now : Int)
    (remaining : K) : Aggregates κ K :=
  if reverses mode aggregates key then rebase cfg aggregates key now (-remaining) else aggregates

end Aggregate

namespace Inner

variable (cfg : Config K)

def new : Inner K := ⟨∅, ∅, ∅, false⟩

/-- `NetPositionTracker::net` -/
def net (inner : Inner K) (party token : String) (now : Int) : K :=
  Aggregates.read cfg.decay inner.nets (party, token) now

/-- `NetPositionTracker::desk_net` -/
def deskNet (inner : Inner K) (token : String) (now : Int) : K :=
  Aggregates.read cfg.decay inner.desk token now

def applyDelta (inner : Inner K) (p : PendingNet K) (now : Int) : Inner K :=
  { inner with
    nets := rebase cfg inner.nets p.netKey now p.delta
    desk := rebase cfg inner.desk p.deskKey now p.delta
    dirty := true }

def reversePending (inner : Inner K) (p : PendingNet K) (mode : ReverseMode) (now : Int) :
    Inner K :=
  { inner with
    nets := reverseIn cfg mode inner.nets p.netKey now (p.remaining cfg now)
    desk := reverseIn cfg mode inner.desk p.deskKey now (p.remaining cfg now)
    dirty := inner.dirty || reverses mode inner.nets p.netKey ||
      reverses mode inner.desk p.deskKey }

/-- The number of aggregates dropped, and what is left. -/
def sweepDecayed (inner : Inner K) (now : Int) : Nat × Inner K :=
  let nets := Aggregates.sweep cfg.decay epsilonBase inner.nets now
  let desk := Aggregates.sweep cfg.decay epsilonBase inner.desk now
  let dropped := inner.nets.keys.length + inner.desk.keys.length
    - (nets.keys.length + desk.keys.length)
  (dropped, { inner with nets, desk, dirty := inner.dirty || decide (0 < dropped) })

/-- A flow is counted once for a quote that is pending, if `accept` passes the net.
The clock is read before the lock (`now`) and again when the delta is applied. -/
def checkAndRecord (inner : Inner K) (quoteId : String) (party : Option String) (token : String)
    (signedBaseDelta : K) (accept : K → Bool) (now applied : Int) : Bool × Inner K :=
  let net := match party with
    | some party => inner.net cfg party token now
    | none => 0
  if accept net = false then (false, inner)
  else if (signedBaseDelta ≠ 0 ∧ token ≠ "") ∧ quoteId ∉ inner.pending then
    let p : PendingNet K := ⟨party, token, signedBaseDelta, now⟩
    (true, applyDelta cfg { inner with pending := inner.pending.insert quoteId p } p applied)
  else (true, inner)

def recordConfirm (inner : Inner K) (quoteId : String) (party : Option String) (token : String)
    (signedBaseDelta : K) (now applied : Int) : Inner K :=
  (inner.checkAndRecord cfg quoteId party token signedBaseDelta (fun _ => true) now applied).2

omit [Field K] [LinearOrder K] in
def settle (inner : Inner K) (quoteId : String) : Inner K :=
  if quoteId ∈ inner.pending then
    { inner with pending := inner.pending.erase quoteId, dirty := true }
  else inner

def release (inner : Inner K) (quoteId : String) (now : Int) : Inner K :=
  match inner.pending.lookup quoteId with
  | none => inner
  | some p =>
    reversePending cfg { inner with pending := inner.pending.erase quoteId } p .live now

/-- Remove and reverse pendings one after another; each reversal reads the clock. -/
def releaseEach (inner : Inner K) (clock : Nat → Int) : List (String × PendingNet K) → Inner K
  | [] => inner
  | (quoteId, p) :: stale =>
    releaseEach
      (reversePending cfg { inner with pending := inner.pending.erase quoteId } p .live (clock 0))
      (fun i => clock (i + 1)) stale

/-- What has been pending too long, in the order `order` gives the map's entries. -/
def stalePendings (inner : Inner K) (cutoffNow : Int)
    (order : List (String × PendingNet K) → List (String × PendingNet K)) :
    List (String × PendingNet K) :=
  let cutoff := cutoffNow - cfg.stalePendingAfterMs
  (order inner.pending.toPairs).filter fun e => decide (e.2.atMs < cutoff)

/-- The clock is read before the lock (`cutoffNow`) and again at each reversal. -/
def expireStalePending (inner : Inner K) (cutoffNow : Int)
    (order : List (String × PendingNet K) → List (String × PendingNet K)) (clock : Nat → Int) :
    Inner K :=
  releaseEach cfg inner clock (inner.stalePendings cfg cutoffNow order)

end Inner

/-! ## Saved state -/

structure SavedNetEntry (K : Type) where
  party : String
  token : String
  net : K
  updatedAtMs : Int

structure SavedDeskEntry (K : Type) where
  token : String
  net : K
  updatedAtMs : Int

structure SavedPendingNet (K : Type) where
  quoteId : String
  party : Option String
  token : String
  delta : K
  atMs : Int

structure SavedNetPositions (K : Type) where
  version : Nat
  entries : List (SavedNetEntry K)
  desk : List (SavedDeskEntry K)
  pending : List (SavedPendingNet K)

namespace Inner

variable (cfg : Config K)

/-- The state as it is written, the pendings in the order `order` gives them. -/
def snapshot (inner : Inner K)
    (order : List (String × PendingNet K) → List (String × PendingNet K)) :
    SavedNetPositions K where
  version := netStateVersion
  entries := (inner.nets.toPairs.filter fun e => decide (epsilonBase < |e.2.value|)).map fun e =>
    ⟨e.1.1, e.1.2, e.2.value, e.2.time⟩
  desk := (inner.desk.toPairs.filter fun e => decide (epsilonBase < |e.2.value|)).map fun e =>
    ⟨e.1, e.2.value, e.2.time⟩
  pending := (order inner.pending.toPairs).map fun e =>
    ⟨e.1, e.2.party, e.2.token, e.2.delta, e.2.atMs⟩

end Inner

/-- How old an aggregate may be to be loaded. -/
def maxAgeMs (cfg : Config K) : Int := max cfg.windowMs cfg.stalePendingAfterMs

/-- Whether a saved aggregate is loaded. -/
def keeps (cfg : Config K) (now : Int) (net : K) (updatedAtMs : Int) : Bool :=
  decide (epsilonBase < |net|) && decide (now - updatedAtMs ≤ maxAgeMs cfg)

/-- Whether a saved flow is too old to carry over. -/
def isDead (cfg : Config K) (now : Int) (p : PendingNet K) : Bool :=
  decide (cfg.stalePendingAfterMs < now - p.atMs)

namespace SavedNetPositions

variable (cfg : Config K)

def loadNets (saved : SavedNetPositions K) (now : Int) : Aggregates (String × String) K :=
  Pool.insertAll ∅ ((saved.entries.filter fun e => keeps cfg now e.net e.updatedAtMs).map fun e =>
    ((e.party, e.token), ⟨e.net, e.updatedAtMs⟩))

def loadDesk (saved : SavedNetPositions K) (now : Int) : Aggregates String K :=
  Pool.insertAll ∅ ((saved.desk.filter fun e => keeps cfg now e.net e.updatedAtMs).map fun e =>
    (e.token, ⟨e.net, e.updatedAtMs⟩))

omit [Field K] [LinearOrder K] in
def pendings (saved : SavedNetPositions K) : List (String × PendingNet K) :=
  saved.pending.map fun p => (p.quoteId, ⟨p.party, p.token, p.delta, p.atMs⟩)

def live (saved : SavedNetPositions K) (now : Int) : Pool String (PendingNet K) :=
  Pool.insertAll ∅ (saved.pendings.filter fun e => !isDead cfg now e.2)

def dead (saved : SavedNetPositions K) (now : Int) : List (String × PendingNet K) :=
  saved.pendings.filter fun e => isDead cfg now e.2

end SavedNetPositions

namespace Inner

variable (cfg : Config K)

/-- Reverse dead pendings against the aggregates that were loaded. -/
def reverseEach (inner : Inner K) (clock : Nat → Int) : List (String × PendingNet K) → Inner K
  | [] => inner
  | (_, p) :: dead =>
    reverseEach (reversePending cfg inner p .afterPrune (clock 0)) (fun i => clock (i + 1)) dead

/-- `load_or_new`; a file that is missing, corrupt or of another version starts empty. -/
def loadOrNew (file : Option (SavedNetPositions K)) (now : Int) (clock : Nat → Int) : Inner K :=
  match file with
  | none => new
  | some saved =>
    if saved.version ≠ netStateVersion then new
    else
      reverseEach cfg ⟨saved.loadNets cfg now, saved.loadDesk cfg now, saved.live cfg now, false⟩
        clock (saved.dead cfg now)

end Inner

/-! ## What the operations do to the pending flows -/

namespace Inner

variable {cfg : Config K} {inner : Inner K} {q other : String}

/-- A call changes nothing, or records a flow for a quote that was not pending. -/
theorem checkAndRecord_cases (cfg : Config K) (inner : Inner K) (quoteId : String)
    (party : Option String) (token : String) (delta : K) (accept : K → Bool) (now applied : Int) :
    (inner.checkAndRecord cfg quoteId party token delta accept now applied).2 = inner ∨
      inner.pending.lookup quoteId = none ∧
        (inner.checkAndRecord cfg quoteId party token delta accept now applied).2
          = applyDelta cfg
              { inner with pending := inner.pending.insert quoteId ⟨party, token, delta, now⟩ }
              ⟨party, token, delta, now⟩ applied := by
  unfold checkAndRecord
  dsimp only
  split_ifs with haccept hcount
  · exact .inl rfl
  · exact .inr ⟨AList.lookup_eq_none.mpr hcount.2, rfl⟩
  · exact .inl rfl

theorem pending_of_checkAndRecord {party : Option String} {token : String} {delta : K}
    {accept : K → Bool} {now applied : Int} (h : other ≠ q)
    (hmem : other ∈ (inner.checkAndRecord cfg q party token delta accept now applied).2.pending) :
    other ∈ inner.pending := by
  rcases checkAndRecord_cases cfg inner q party token delta accept now applied with
    hsame | ⟨-, hrecorded⟩
  · rwa [hsame] at hmem
  · rw [hrecorded] at hmem
    exact ((AList.mem_insert _).mp hmem).resolve_left h

theorem pending_release (now : Int) :
    (inner.release cfg q now).pending = inner.pending.erase q := by
  unfold release
  cases hq : inner.pending.lookup q with
  | none => exact (Pool.erase_of_lookup hq).symm
  | some p => rfl

omit [Field K] [LinearOrder K] in
theorem pending_settle : (inner.settle q).pending = inner.pending.erase q := by
  unfold settle
  split
  · rfl
  · rename_i hq
    exact (Pool.erase_of_lookup (AList.lookup_eq_none.mpr hq)).symm

theorem pending_of_releaseEach {clock : Nat → Int} {stale : List (String × PendingNet K)}
    (hmem : q ∈ (releaseEach cfg inner clock stale).pending) : q ∈ inner.pending := by
  induction stale generalizing inner clock with
  | nil => exact hmem
  | cons e stale ih => exact (AList.mem_erase.mp (ih hmem)).2

end Inner

end BookAgent.AgentLogic.NetPosition
