import BookAgent.CloudAgent.ResourcesFollowQuotes

/-!
# Restarts and binding quotes

A restart restores the confirmed quotes and the tickets into fresh components. A quote
whose envelope may still settle is confirmed again with its holdings and its ticket. Its
commitment is not saved and not made again.
-/

namespace BookAgent.CloudAgent

open BookAgent.Lib BookAgent.AgentLogic

variable {D K E : Type}

/-- The clocks around a restart: where the tickets were saved and restored, and where the
quotes are restored. -/
structure RestartClock where
  savedAt : Instant
  savedMs : Nat
  ticketsAt : Instant
  ticketsMs : Nat
  nowMicros : Int
  clock : Nat → Instant

namespace TicketPool

/-- Every ticket is under its own id. -/
def KeyedTickets (pool : TicketPool) : Prop := ∀ tid e, pool.lookup tid = some e → e.ticketId = tid

/-- A ticket after a restart. -/
def restoredEntry (r : RestartClock) (maxTtl : Nat) (e : TicketEntry) : TicketEntry :=
  ⟨e.ticketId, e.contractId, none, none, none,
    restoredStatus maxTtl r.ticketsAt r.ticketsMs (save r.savedAt r.savedMs e)⟩

/-- Saving and restoring the pool keeps every ticket. -/
theorem lookup_restore_snapshot {pool : TicketPool} (hkeyed : pool.KeyedTickets) (r : RestartClock)
    {maxTtl : Nat} {tid : String} :
    (restore ∅ (pool.snapshot r.savedAt r.savedMs) maxTtl r.ticketsAt r.ticketsMs).lookup tid
      = (pool.lookup tid).map (restoredEntry r maxTtl) := by
  have ticketId_save : ∀ e : TicketEntry, (save r.savedAt r.savedMs e).ticketId = e.ticketId := by
    intro e
    unfold save
    split <;> rfl
  have contractId_save : ∀ e : TicketEntry,
      (save r.savedAt r.savedMs e).contractId = e.contractId := by
    intro e
    unfold save
    split <;> rfl
  have entries : (pool.snapshot r.savedAt r.savedMs).map (fun t => (t.ticketId,
      (⟨t.ticketId, t.contractId, none, none, none,
        restoredStatus maxTtl r.ticketsAt r.ticketsMs t⟩ : TicketEntry)))
      = pool.toPairs.map fun e => (e.1, restoredEntry r maxTtl e.2) := by
    unfold snapshot Pool.values Pool.toPairs
    rw [List.map_map, List.map_map, List.map_map]
    refine List.map_congr_left ?_
    rintro ⟨tid, e⟩ hmem
    have hid : e.ticketId = tid := hkeyed tid e (AList.mem_lookup_iff.mpr hmem)
    simp only [Function.comp_apply, ticketId_save, contractId_save, restoredEntry, hid]
  unfold restore
  rw [entries]
  exact Pool.lookup_insertAll_toPairs (p := pool) (f := fun _ e => restoredEntry r maxTtl e)

end TicketPool

namespace RfqV2State

section Restart

variable [Field K] [LinearOrder K] {cfg : RfqV2Config K} {s : RfqV2State D K E}

/-- Fresh components with what was saved restored into them. -/
def restart (cfg : RfqV2Config K) (r : RestartClock) (splitterReserve : Bool) (feeReserveCc : ℚ)
    (netPositions : Option (NetPosition.Inner K)) (s : RfqV2State D K E) : RfqV2State D K E :=
  let fresh : RfqV2State D K E :=
    { pending := ∅
      correlation := ∅
      cache := .new splitterReserve
      ticketPool := s.ticketPool.map fun pool =>
        TicketPool.restore ∅ (pool.snapshot r.savedAt r.savedMs) restoreTtlCap r.ticketsAt r.ticketsMs
      liquidityManager := .new feeReserveCc
      netPositions }
  fresh.restorePending cfg r.nowMicros r.clock s.snapshotPending

/-- The quote's validity and the grace after it have not passed. -/
def Live (cfg : RfqV2Config K) (nowMicros : Int) (c : ConfirmedQuote E) : Prop :=
  nowMicros < c.validUntilMicros + cfg.settleGraceSecs * 1000000

/-- Whether the quote is confirmed and live. -/
def isLive (cfg : RfqV2Config K) (s : RfqV2State D K E) (q : String) (nowMicros : Int) : Bool :=
  match s.pending.lookup q with
  | some (.confirmed c) => decide (nowMicros < c.validUntilMicros + cfg.settleGraceSecs * 1000000)
  | _ => false

theorem exists_live (cfg : RfqV2Config K) (s : RfqV2State D K E) (q : String) (nowMicros : Int)
    (h : isLive cfg s q nowMicros = true) :
    ∃ c, s.pending.lookup q = some (.confirmed c) ∧ Live cfg nowMicros c := by
  unfold isLive at h
  split at h
  · rename_i c hc
    have hlive := of_decide_eq_true h
    exact ⟨c, hc, hlive⟩
  · cases h

/-- When the signed validity ends, by the monotonic clock that reads `now` at `nowMicros`. -/
def validUntil (now : Instant) (nowMicros : Int) (c : ConfirmedQuote E) : Instant :=
  now + micros (c.validUntilMicros - nowMicros).toNat

/-- The protections of a confirmed quote until `t`. -/
structure Backing (s : RfqV2State D K E) (q : String) (c : ConfirmedQuote E) (t : Instant) :
    Prop where
  confirmed : ∃ c', s.pending.lookup q = some (.confirmed c') ∧ c'.holdingCids = c.holdingCids
  holdings : ∀ cid ∈ c.holdingCids, ∃ entry expiresAt, s.cache.reserved.lookup cid = some entry ∧
    entry.kind = .v2Quote q expiresAt ∧ t ≤ expiresAt
  ticket : c.ticketId ≠ "" → ∃ pool e expiresAt, s.ticketPool = some pool ∧
    pool.lookup c.ticketId = some e ∧ e.status = .assigned q expiresAt ∧ t ≤ expiresAt
  /-- Under its token, with what the LP pays. -/
  committed : ∃ t, s.liquidityManager.state.tokens.lookup
      (s.liquidityManager.state.resolveAlias c.lpPaysToken) = some t ∧
    t.allocationCommitments.lookup (lmKey q) = some c.lpPaysAmount

/-! ## What is restored -/

theorem liquidityManager_restorePending {nowMicros : Int} {clock : Nat → Instant}
    {saved : List SavedPendingV2} :
    (s.restorePending cfg nowMicros clock saved).liquidityManager = s.liquidityManager := by
  induction saved generalizing s clock with
  | nil => rfl
  | cons p saved ih =>
    refine ih.trans ?_
    unfold restoreOne
    dsimp only
    split_ifs <;> rfl

theorem lookup_restorePending_of_notMem {nowMicros : Int} {clock : Nat → Instant}
    {saved : List SavedPendingV2} {q : String} (h : q ∉ saved.map SavedPendingV2.quoteId) :
    (s.restorePending cfg nowMicros clock saved).pending.lookup q = s.pending.lookup q := by
  induction saved generalizing s clock with
  | nil => rfl
  | cons p saved ih =>
    rw [List.map_cons, List.mem_cons, not_or] at h
    refine (ih h.2).trans ?_
    unfold restoreOne
    dsimp only
    split_ifs
    · rfl
    · rfl
    · exact AList.lookup_insert_ne h.1

theorem reserved_restorePending_of_notMem {nowMicros : Int} {clock : Nat → Instant}
    {saved : List SavedPendingV2} {cid : String} (h : ∀ p ∈ saved, cid ∉ p.holdingCids) :
    (s.restorePending cfg nowMicros clock saved).cache.reserved.lookup cid
      = s.cache.reserved.lookup cid := by
  induction saved generalizing s clock with
  | nil => rfl
  | cons p saved ih =>
    refine (ih fun p' hp' => h p' (List.mem_cons_of_mem _ hp')).trans ?_
    unfold restoreOne
    dsimp only
    split_ifs
    · rfl
    · rfl
    · refine Pool.lookup_insertAll_of_notMem ?_
      rw [List.map_map]
      simpa only [Function.comp_def, List.map_id'] using h p List.mem_cons_self

/-- The microseconds a saved quote has left. -/
def remainingMicros (cfg : RfqV2Config K) (nowMicros : Int) (p : SavedPendingV2) : Int :=
  min (p.validUntilMicros + min (min (cfg.settleGraceSecs : Int) i64Max * 1000000) i64Max) i64Max
    - nowMicros

/-- How long a saved quote is restored for. -/
def restoredFor (cfg : RfqV2Config K) (nowMicros : Int) (p : SavedPendingV2) : Nat :=
  min (micros (remainingMicros cfg nowMicros p).toNat) restoreTtlCap

omit [Field K] [LinearOrder K] in
/-- The entry of a restored quote. -/
def restoredQuote (p : SavedPendingV2) (expiresAt : Instant) : ConfirmedQuote E where
  holdingCids := p.holdingCids
  ticketId := p.ticketId
  ticketCid := none
  envelope := none
  validUntilMicros := p.validUntilMicros
  lpPaysToken := ""
  lpPaysAmount := 0
  expiresAt := expiresAt
  marketId := p.marketId

/-- A saved quote that has time left is confirmed again, and its holdings are reserved for it. -/
theorem restored_of_mem (s : RfqV2State D K E) {nowMicros : Int} (clock : Nat → Instant)
    {saved : List SavedPendingV2} {p : SavedPendingV2} (hp : p ∈ saved) (hids : (saved.map SavedPendingV2.quoteId).Nodup)
    (hcids : ∀ p' ∈ saved, p'.quoteId ≠ p.quoteId → ∀ cid ∈ p.holdingCids, cid ∉ p'.holdingCids)
    (hleft : 0 < remainingMicros cfg nowMicros p)
    (hrange : ∀ i, clock i + restoredFor cfg nowMicros p ≤ cfg.lastInstant) :
    ∃ i c, (s.restorePending cfg nowMicros clock saved).pending.lookup p.quoteId
        = some (.confirmed c) ∧
      c.holdingCids = p.holdingCids ∧ c.ticketId = p.ticketId ∧
      ∀ cid ∈ p.holdingCids,
        (s.restorePending cfg nowMicros clock saved).cache.reserved.lookup cid
          = some ⟨.v2Quote p.quoteId (clock i + restoredFor cfg nowMicros p), clock i⟩ := by
  induction saved generalizing s clock with
  | nil => exact absurd hp List.not_mem_nil
  | cons p' saved ih =>
    rw [List.map_cons, List.nodup_cons] at hids
    rcases List.mem_cons.mp hp with rfl | hrest
    · have hone : s.restoreOne cfg nowMicros (clock 0) p =
          { s with
            cache := s.cache.restoreV2Reservation p.holdingCids p.quoteId
              (clock 0 + restoredFor cfg nowMicros p) (clock 0)
            correlation := s.correlation.insertAll (p.holdingCids.map (·, p.quoteId))
            pending := s.pending.insert p.quoteId
              (.confirmed (restoredQuote p (clock 0 + restoredFor cfg nowMicros p))) } := by
        unfold restoreOne
        exact (if_neg (not_le.mpr hleft)).trans (if_neg (not_lt.mpr (hrange 0)))
      refine ⟨0, restoredQuote p (clock 0 + restoredFor cfg nowMicros p), ?_, rfl, rfl, ?_⟩
      · rw [restorePending, lookup_restorePending_of_notMem hids.1, hone]
        exact AList.lookup_insert _
      · intro cid hcid
        have rest : ∀ p' ∈ saved, cid ∉ p'.holdingCids := by
          intro p' hp'
          refine hcids p' (List.mem_cons_of_mem _ hp') ?_ cid hcid
          exact fun hquote => hids.1 (List.mem_map.mpr ⟨p', hp', hquote⟩)
        rw [restorePending, reserved_restorePending_of_notMem rest, hone]
        exact Pool.lookup_insertAll_const hcid
    · obtain ⟨i, c, hconfirmed, hholdings, hticket, hreserved⟩ :=
        ih (s.restoreOne cfg nowMicros (clock 0) p') (fun i => clock (i + 1)) hrest hids.2
          (fun q hq => hcids q (List.mem_cons_of_mem _ hq)) fun i => hrange (i + 1)
      exact ⟨i + 1, c, hconfirmed, hholdings, hticket, hreserved⟩

/-- A quote restored for its whole signed validity is protected until its end. -/
theorem validUntil_le_restored {nowMicros : Int} {p : SavedPendingV2} {c : ConfirmedQuote E}
    {now : Instant} (hvalid : p.validUntilMicros = c.validUntilMicros)
    (hfits : c.validUntilMicros ≤ i64Max)
    (hcap : micros (c.validUntilMicros - nowMicros).toNat ≤ restoreTtlCap) :
    validUntil now nowMicros c ≤ now + restoredFor cfg nowMicros p := by
  refine Nat.add_le_add_left (le_min ?_ hcap) now
  unfold micros remainingMicros
  have hgrace : (0 : Int) ≤ min (min (cfg.settleGraceSecs : Int) i64Max * 1000000) i64Max := by
    unfold i64Max
    omega
  refine Nat.mul_le_mul_right _ (Int.toNat_le_toNat ?_)
  rw [hvalid]
  omega

omit [Field K] [LinearOrder K] in
/-- What is saved of a confirmed quote. -/
theorem mem_snapshotPending {q : String} {c : ConfirmedQuote E}
    (h : s.pending.lookup q = some (.confirmed c)) :
    ⟨q, c.marketId, c.holdingCids, c.ticketId, c.validUntilMicros⟩ ∈ s.snapshotPending :=
  List.mem_filterMap.mpr ⟨(q, .confirmed c), Pool.mem_toPairs.mpr h, rfl⟩

omit [Field K] [LinearOrder K] in
theorem of_mem_snapshotPending {p : SavedPendingV2} (h : p ∈ s.snapshotPending) :
    ∃ c, s.pending.lookup p.quoteId = some (.confirmed c) ∧ c.holdingCids = p.holdingCids := by
  obtain ⟨⟨q, e⟩, hmem, hsave⟩ := List.mem_filterMap.mp h
  cases e with
  | confirmed c =>
    obtain rfl := Option.some.inj hsave
    exact ⟨c, Pool.mem_toPairs.mp hmem, rfl⟩
  | indicative quote validUntil => cases hsave
  | confirming since => cases hsave
  | settled since => cases hsave
  | expired since => cases hsave

omit [Field K] [LinearOrder K] in
theorem nodup_snapshotPending : (s.snapshotPending.map SavedPendingV2.quoteId).Nodup := by
  have saved : ∀ l : List (String × PendingV2 E),
      ((l.filterMap fun e => saveQuote e.1 e.2).map SavedPendingV2.quoteId).Sublist
        (l.map Prod.fst) := by
    intro l
    induction l with
    | nil => exact .slnil
    | cons e l ih =>
      obtain ⟨q, e⟩ := e
      cases e with
      | confirmed c => exact ih.cons_cons q
      | indicative quote validUntil => exact ih.cons q
      | confirming since => exact ih.cons q
      | settled since => exact ih.cons q
      | expired since => exact ih.cons q
  refine (saved s.pending.toPairs).nodup ?_
  rw [Pool.fst_toPairs]
  exact s.pending.nodupKeys

/-- A live quote whose holdings no other confirmed quote has is confirmed again, and its holdings
are reserved for it until its signed validity ends. -/
theorem restart_restores {r : RestartClock} {splitterReserve : Bool} {feeReserveCc : ℚ}
    {netPositions : Option (NetPosition.Inner K)} {q : String} {c : ConfirmedQuote E}
    (hc : s.pending.lookup q = some (.confirmed c))
    (hexclusive : ∀ q' c', s.pending.lookup q' = some (.confirmed c') → q' ≠ q →
      ∀ cid ∈ c.holdingCids, cid ∉ c'.holdingCids)
    (hlive : r.nowMicros < c.validUntilMicros) (hfits : c.validUntilMicros ≤ i64Max)
    (hcap : micros (c.validUntilMicros - r.nowMicros).toNat ≤ restoreTtlCap)
    (hrange : ∀ i, r.clock i + restoreTtlCap ≤ cfg.lastInstant) :
    ∃ i c', (s.restart cfg r splitterReserve feeReserveCc netPositions).pending.lookup q
        = some (.confirmed c') ∧
      c'.holdingCids = c.holdingCids ∧ c'.ticketId = c.ticketId ∧
      ∀ cid ∈ c.holdingCids, ∃ entry expiresAt,
        (s.restart cfg r splitterReserve feeReserveCc netPositions).cache.reserved.lookup cid
          = some entry ∧ entry.kind = .v2Quote q expiresAt ∧
        validUntil (r.clock i) r.nowMicros c ≤ expiresAt := by
  let p : SavedPendingV2 := ⟨q, c.marketId, c.holdingCids, c.ticketId, c.validUntilMicros⟩
  have hgrace : (0 : Int) ≤ min (min (cfg.settleGraceSecs : Int) i64Max * 1000000) i64Max := by
    unfold i64Max
    omega
  have hleft : 0 < remainingMicros cfg r.nowMicros p := by
    unfold remainingMicros
    dsimp only [p]
    omega
  have hcids : ∀ p' ∈ s.snapshotPending, p'.quoteId ≠ p.quoteId →
      ∀ cid ∈ p.holdingCids, cid ∉ p'.holdingCids := by
    intro p' hp' hquote
    obtain ⟨c', hc', hheld⟩ := of_mem_snapshotPending hp'
    rw [← hheld]
    exact hexclusive _ c' hc' hquote
  have hrange' : ∀ i, r.clock i + restoredFor cfg r.nowMicros p ≤ cfg.lastInstant :=
    fun i => (Nat.add_le_add_left (min_le_right _ _) _).trans (hrange i)
  obtain ⟨i, c', hconfirmed, hholdings, hticket, hreserved⟩ :=
    restored_of_mem _ r.clock (mem_snapshotPending hc) nodup_snapshotPending hcids hleft hrange'
  exact ⟨i, c', hconfirmed, hholdings, hticket, fun cid hcid =>
    ⟨_, _, hreserved cid hcid, rfl, validUntil_le_restored rfl hfits hcap⟩⟩

theorem ticketPool_restorePending {nowMicros : Int} {clock : Nat → Instant}
    {saved : List SavedPendingV2} :
    (s.restorePending cfg nowMicros clock saved).ticketPool = s.ticketPool := by
  induction saved generalizing s clock with
  | nil => rfl
  | cons p saved ih =>
    refine ih.trans ?_
    unfold restoreOne
    dsimp only
    split_ifs <;> rfl

/-- A ticket assigned past the restart is assigned to the same quote again, until the
millisecond its assignment was saved with. -/
theorem restart_ticket {r : RestartClock} {splitterReserve : Bool} {feeReserveCc : ℚ}
    {netPositions : Option (NetPosition.Inner K)} {q tid : String} {pool : TicketPool}
    {e : TicketEntry} {expiresAt : Instant} (hpool : s.ticketPool = some pool)
    (hkeyed : pool.KeyedTickets) (he : pool.lookup tid = some e)
    (hassigned : e.status = .assigned q expiresAt)
    (hleft : r.ticketsMs < min (r.savedMs + min (asMillis (expiresAt - r.savedAt)) u64Max) u64Max) :
    ∃ pool' e', (s.restart cfg r splitterReserve feeReserveCc netPositions).ticketPool = some pool' ∧
      pool'.lookup tid = some e' ∧
      e'.status = .assigned q (r.ticketsAt + min (millis
        (min (r.savedMs + min (asMillis (expiresAt - r.savedAt)) u64Max) u64Max - r.ticketsMs))
          restoreTtlCap) := by
  refine ⟨TicketPool.restore ∅ (pool.snapshot r.savedAt r.savedMs) restoreTtlCap r.ticketsAt
    r.ticketsMs, TicketPool.restoredEntry r restoreTtlCap e, ?_, ?_, ?_⟩
  · unfold restart
    dsimp only
    rw [ticketPool_restorePending, hpool]
    rfl
  · rw [TicketPool.lookup_restore_snapshot hkeyed, he]
    rfl
  · unfold TicketPool.restoredEntry TicketPool.restoredStatus TicketPool.save
    rw [hassigned]
    dsimp only
    rw [if_pos rfl, if_pos hleft]

/-! ## What is not restored -/

/-- After a restart nothing is committed. -/
theorem not_backing_restart {r : RestartClock} {splitterReserve : Bool} {feeReserveCc : ℚ}
    {netPositions : Option (NetPosition.Inner K)} {q : String} {c : ConfirmedQuote E} {t : Instant} :
    ¬ (s.restart cfg r splitterReserve feeReserveCc netPositions).Backing q c t := by
  rintro ⟨-, -, -, ⟨ts, hlookup, -⟩⟩
  unfold restart at hlookup
  dsimp only at hlookup
  rw [liquidityManager_restorePending] at hlookup
  cases hlookup

end Restart

end RfqV2State

open RfqV2State in
/-- A restart keeps every binding quote backed exactly when there is none: the commitment of a
quote that is live is lost. -/
theorem restart_backs_iff [Field K] [LinearOrder K] (cfg : RfqV2Config K) (r : RestartClock)
    (splitterReserve : Bool) (feeReserveCc : ℚ) (netPositions : Option (NetPosition.Inner K))
    (s : RfqV2State D K E) :
    (∀ q c, s.pending.lookup q = some (.confirmed c) → Live cfg r.nowMicros c →
      (s.restart cfg r splitterReserve feeReserveCc netPositions).Backing q c
        (validUntil (r.clock 0) r.nowMicros c)) ↔
      ∀ q c, s.pending.lookup q = some (.confirmed c) → ¬ Live cfg r.nowMicros c := by
  constructor
  · exact fun h q c hc hlive => not_backing_restart (h q c hc hlive)
  · exact fun h q c hc hlive => absurd hlive (h q c hc)

/-! ### A restart a second after an envelope was issued -/

namespace Quotes

def secondLater : RestartClock := ⟨0, 0, seconds 1, 1000, 1000000, fun _ => seconds 1⟩

def restarted : RfqV2State Nat ℚ String :=
  issued.state.restart oneMarket secondLater false 0 none

end Quotes

open Quotes RfqV2State in
/-- The quote is live for 29 seconds and was promised 5 EUR of 100: a quote for all 100 is refused
before the restart and accepted after it. -/
theorem restart_loses_commitment :
    Reachable Allowed (apply oneMarket) opening issued ∧
      (∃ c, issued.state.pending.lookup "q1" = some (.confirmed c) ∧
        Live oneMarket secondLater.nowMicros c ∧
        ¬ restarted.Backing "q1" c (validUntil (secondLater.clock 0) secondLater.nowMicros c)) ∧
      (issued.state.liquidityManager.tryCommit (lmKey "q2") "EUR" 100 0).toBool = false ∧
      ((restarted.liquidityManager.updateTokenBalances [("EUR", 100)]).tryCommit (lmKey "q2") "EUR" 100
        0).toBool = true := by
  obtain ⟨c, hc, hlive⟩ := exists_live oneMarket issued.state "q1" secondLater.nowMicros
    (by decide +kernel)
  exact ⟨issued_reached, ⟨c, hc, hlive, not_backing_restart⟩, by decide +kernel, by decide +kernel⟩

end BookAgent.CloudAgent
