import BookAgent.AgentLogic.NetPositionSum
import BookAgent.CloudAgent.QuoteRuns

/-!
# The pending flow of a quote

What each event does to the flow that the tracker has pending for a quote: it leaves the flow,
ends it, or counts the quote's own flow where there was none.
-/

namespace BookAgent.AgentLogic.NetPosition

open BookAgent.Lib

variable {K : Type} [Field K] [LinearOrder K]

namespace Inner

variable {cfg : Config K} {inner : Inner K}

theorem pending_releaseEach {clock : Nat → Int} {stale : List (String × PendingNet K)} :
    (releaseEach cfg inner clock stale).pending = inner.pending.eraseAll (stale.map Prod.fst) := by
  induction stale generalizing inner clock with
  | nil => rfl
  | cons e stale ih =>
    obtain ⟨quoteId, p⟩ := e
    rw [releaseEach, ih]
    rfl

/-- A counted flow: the call's own, unless the quote had one. -/
theorem lookup_checkAndRecord {quoteId : String} {party : Option String} {token : String} {delta : K}
    {accept : K → Bool} {now applied : Int}
    (haccept : (inner.checkAndRecord cfg quoteId party token delta accept now applied).1 = true)
    (hdelta : delta ≠ 0) (htoken : token ≠ "") :
    (inner.checkAndRecord cfg quoteId party token delta accept now applied).2.pending.lookup quoteId
      = (inner.pending.lookup quoteId).or (some ⟨party, token, delta, now⟩) := by
  unfold checkAndRecord at haccept ⊢
  dsimp only at haccept ⊢
  split_ifs at haccept ⊢ with hrefused hcount
  · rw [AList.lookup_eq_none.mpr hcount.2]
    exact AList.lookup_insert _
  · have hmem : quoteId ∈ inner.pending := by
      by_contra hnot
      exact hcount ⟨⟨hdelta, htoken⟩, hnot⟩
    obtain ⟨p, hp⟩ := Pool.mem_iff_lookup.mp hmem
    rw [hp]
    rfl

end Inner

end BookAgent.AgentLogic.NetPosition

namespace BookAgent.CloudAgent

open BookAgent.Lib BookAgent.AgentLogic

variable {D K E : Type}

/-- The task has returned. -/
def Step.isDone {T R : Type} : Step T R → Bool
  | .await _ => false
  | .done _ => true

namespace RfqV2State

variable {s s' s'' : RfqV2State D K E} {q : String}

/-- The flow that is pending for a quote. -/
def flow (s : RfqV2State D K E) (quoteId : String) : Option (NetPosition.PendingNet K) :=
  s.netPositions.bind fun t => t.pending.lookup quoteId

/-- From `s` to `s'` the flow of a quote stays, or ends where `ends` says so, or is counted where
there was none, as `counts` says. -/
structure Flows (s s' : RfqV2State D K E) (ends : String → Prop)
    (counts : String → NetPosition.PendingNet K → Prop) : Prop where
  tracked : s'.netPositions.isSome = s.netPositions.isSome
  flow : ∀ q, s'.flow q = s.flow q ∨ (ends q ∧ s'.flow q = none) ∨
    (s.flow q = none ∧ ∃ p, counts q p ∧ s'.flow q = some p)

namespace Flows

variable {ends ends' : String → Prop} {counts counts' : String → NetPosition.PendingNet K → Prop}

/-- Nothing happens to the tracker. -/
theorem of_eq (h : s'.netPositions = s.netPositions) : Flows s s' ends counts where
  tracked := by rw [h]
  flow q := .inl (by unfold RfqV2State.flow; rw [h])

theorem before (hrest : Flows s' s'' ends counts) (h : s'.netPositions = s.netPositions) :
    Flows s s'' ends counts where
  tracked := by rw [hrest.tracked, h]
  flow q := by
    have hflow : s'.flow q = s.flow q := by unfold RfqV2State.flow; rw [h]
    rw [← hflow]
    exact hrest.flow q

theorem after (hfirst : Flows s s' ends counts) (h : s''.netPositions = s'.netPositions) :
    Flows s s'' ends counts where
  tracked := by rw [h, hfirst.tracked]
  flow q := by
    have hflow : s''.flow q = s'.flow q := by unfold RfqV2State.flow; rw [h]
    rw [hflow]
    exact hfirst.flow q

theorem mono (h : Flows s s' ends counts) (hends : ∀ q, ends q → ends' q)
    (hcounts : ∀ q p, counts q p → counts' q p) : Flows s s' ends' counts' where
  tracked := h.tracked
  flow q := by
    rcases h.flow q with hsame | ⟨hended, hnone⟩ | ⟨hnone, p, hp, hflow⟩
    · exact .inl hsame
    · exact .inr (.inl ⟨hends q hended, hnone⟩)
    · exact .inr (.inr ⟨hnone, p, hcounts q p hp, hflow⟩)

/-- Two steps that can only end flows. -/
theorem trans_ends (h : Flows s s' ends fun _ _ => False) (hrest : Flows s' s'' ends' fun _ _ => False) :
    Flows s s'' (fun q => ends q ∨ (s'.flow q = s.flow q ∧ ends' q)) counts where
  tracked := hrest.tracked.trans h.tracked
  flow q := by
    rcases h.flow q with hsame | ⟨hended, hnone⟩ | ⟨-, p, hp, -⟩
    · rcases hrest.flow q with hsame' | ⟨hended', hnone'⟩ | ⟨-, p, hp, -⟩
      · exact .inl (hsame'.trans hsame)
      · exact .inr (.inl ⟨.inr ⟨hsame, hended'⟩, hnone'⟩)
      · exact hp.elim
    · rcases hrest.flow q with hsame' | ⟨-, hnone'⟩ | ⟨-, p, hp, -⟩
      · exact .inr (.inl ⟨.inl hended, hsame'.trans hnone⟩)
      · exact .inr (.inl ⟨.inl hended, hnone'⟩)
      · exact hp.elim
    · exact hp.elim

end Flows

section Net

variable [Field K] [LinearOrder K] {cfg : RfqV2Config K} {c : Claim} {a : ConfirmAnswers D K E}

/-! ## The tracker's operations -/

/-- The flow that a claimed quote counts. -/
structure Owns (cfg : RfqV2Config K) (c : Claim) (p : NetPosition.PendingNet K) : Prop where
  party : p.party = c.quote.userParty
  token : p.token = baseToken c.quote.marketId
  delta : p.delta = signedDelta cfg c.quote

/-- The claim's own flow, for its quote. -/
def OwnFlow (cfg : RfqV2Config K) (c : Claim) (q : String) (p : NetPosition.PendingNet K) : Prop :=
  q = c.req.quoteId ∧ Owns cfg c p

theorem flows_count {accept : K → Bool} {ends : String → Prop} :
    Flows s (s.count cfg c a accept).2 ends (OwnFlow cfg c) := by
  unfold count countConfirm
  cases ht : s.netPositions with
  | none => exact .of_eq rfl
  | some t =>
    refine ⟨by dsimp only; rw [ht]; rfl, fun q => ?_⟩
    unfold flow
    dsimp only
    rw [ht, Option.bind_some, Option.bind_some]
    rcases NetPosition.Inner.checkAndRecord_cases cfg.net t c.req.quoteId c.quote.userParty
      (baseToken c.quote.marketId) (signedDelta cfg c.quote) accept a.nowMs a.appliedMs with
      hsame | ⟨hnone, hrecorded⟩
    · exact .inl (by rw [hsame])
    · rw [hrecorded]
      by_cases hq : q = c.req.quoteId
      · subst hq
        exact .inr (.inr ⟨hnone, _, ⟨rfl, rfl, rfl, rfl⟩, AList.lookup_insert _⟩)
      · exact .inl (AList.lookup_insert_ne hq)

/-- A count reads and writes the tracker only. -/
theorem net_count_congr {accept : K → Bool} (h : s'.netPositions = s.netPositions) :
    (s'.count cfg c a accept).2.netPositions = (s.count cfg c a accept).2.netPositions := by
  unfold count countConfirm
  rw [h]
  cases s.netPositions with
  | none => exact h
  | some t => rfl

/-- Once a claim is counted its quote has a flow: the one it had, or its own. -/
theorem flow_count {accept : K → Bool} (haccept : (s.count cfg c a accept).1 = true)
    (htracked : s.netPositions.isSome = true) (hdelta : signedDelta cfg c.quote ≠ 0)
    (htoken : baseToken c.quote.marketId ≠ "") :
    ∃ p, (s.count cfg c a accept).2.flow c.req.quoteId = some p ∧
      (s.flow c.req.quoteId = some p ∨ Owns cfg c p) := by
  obtain ⟨t, ht⟩ := Option.isSome_iff_exists.mp htracked
  unfold count countConfirm at haccept ⊢
  unfold flow
  rw [ht] at haccept ⊢
  dsimp only at haccept ⊢
  rw [Option.bind_some, Option.bind_some,
    NetPosition.Inner.lookup_checkAndRecord haccept hdelta htoken]
  cases hold : t.pending.lookup c.req.quoteId with
  | none => exact ⟨_, rfl, .inr ⟨rfl, rfl, rfl⟩⟩
  | some p => exact ⟨p, rfl, .inl rfl⟩

theorem flows_releaseNet {now : Int} {counts : String → NetPosition.PendingNet K → Prop} :
    Flows s (s.releaseNet cfg q now) (· = q) counts := by
  unfold releaseNet
  refine ⟨Option.isSome_map, fun other => ?_⟩
  unfold flow
  dsimp only
  cases s.netPositions with
  | none => exact .inl rfl
  | some t =>
    rw [Option.map_some, Option.bind_some, Option.bind_some, NetPosition.Inner.pending_release]
    by_cases hq : other = q
    · subst hq
      exact .inr (.inl ⟨rfl, AList.lookup_erase _ _⟩)
    · exact .inl (AList.lookup_erase_ne hq)

omit [Field K] [LinearOrder K] in
theorem flows_settleNet {counts : String → NetPosition.PendingNet K → Prop} :
    Flows s { s with netPositions := s.netPositions.map fun t => t.settle q } (· = q) counts := by
  refine ⟨Option.isSome_map, fun other => ?_⟩
  unfold flow
  dsimp only
  cases s.netPositions with
  | none => exact .inl rfl
  | some t =>
    rw [Option.map_some, Option.bind_some, Option.bind_some, NetPosition.Inner.pending_settle]
    by_cases hq : other = q
    · subst hq
      exact .inr (.inl ⟨rfl, AList.lookup_erase _ _⟩)
    · exact .inl (AList.lookup_erase_ne hq)

/-- The flow of a quote has been pending too long at `cutoffMs`. -/
def isStale (cfg : RfqV2Config K) (s : RfqV2State D K E) (cutoffMs : Int) (q : String) : Bool :=
  (s.flow q).any fun p => decide (p.atMs < cutoffMs - cfg.net.stalePendingAfterMs)

theorem flows_endSweep {now : Instant} {order : NetOrder K} {b : SweepAnswers}
    {counts : String → NetPosition.PendingNet K → Prop} (horder : ∀ l, (order l).Perm l) :
    Flows s (s.endSweep cfg now order b) (fun q => isStale cfg s b.cutoffMs q = true) counts := by
  unfold endSweep
  refine ⟨Option.isSome_map, fun other => ?_⟩
  unfold isStale flow
  dsimp only
  cases s.netPositions with
  | none => exact .inl rfl
  | some t =>
    rw [Option.map_some, Option.bind_some, Option.bind_some]
    have hpending : ((t.expireStalePending cfg.net b.cutoffMs order b.reversalMs).sweepDecayed cfg.net
        b.decayMs).2.pending
        = t.pending.eraseAll ((t.stalePendings cfg.net b.cutoffMs order).map Prod.fst) :=
      NetPosition.Inner.pending_releaseEach
    rw [hpending]
    by_cases hmem : other ∈ (t.stalePendings cfg.net b.cutoffMs order).map Prod.fst
    · obtain ⟨⟨q, p⟩, hp, rfl⟩ := List.mem_map.mp hmem
      have hlookup := NetPosition.NetRun.Invariant.mem_stalePendings horder hp
      refine .inr (.inl ⟨?_, Pool.lookup_eraseAll_of_mem hmem⟩)
      rw [hlookup]
      exact (List.mem_filter.mp hp).2
    · exact .inl (Pool.lookup_eraseAll_of_notMem hmem)

/-! ## The stretches of a confirm -/

/-- What a stretch of a confirm does to the tracker: nothing, one count of its claim, or one
release. -/
inductive NetEffect (cfg : RfqV2Config K) (a : ConfirmAnswers D K E) (claim : Option Claim)
    (released : Option String) (s s' : RfqV2State D K E) : Prop
  | same (h : s'.netPositions = s.netPositions)
  | counts (c : Claim) (accept : K → Bool) (hclaim : claim = some c)
      (h : s'.netPositions = (s.count cfg c a accept).2.netPositions)
  | releases (q : String) (hreleased : released = some q)
      (h : s'.netPositions = (s.releaseNet cfg q a.nowMs).netPositions)

namespace NetEffect

variable {claim : Option Claim} {released : Option String}

theorem before (h : NetEffect cfg a claim released s' s'')
    (hnet : s'.netPositions = s.netPositions) : NetEffect cfg a claim released s s'' := by
  cases h with
  | same h => exact .same (h.trans hnet)
  | counts c accept hclaim h => exact .counts c accept hclaim (h.trans (net_count_congr hnet))
  | releases q hreleased h =>
    refine .releases q hreleased (h.trans ?_)
    unfold releaseNet
    dsimp only
    rw [hnet]

theorem flows (h : NetEffect cfg a claim released s s') :
    Flows s s' (fun q => released = some q) (fun q p => ∃ c, claim = some c ∧ OwnFlow cfg c q p) := by
  cases h with
  | same h => exact .of_eq h
  | counts c accept hclaim h =>
    exact (flows_count.after h).mono (fun _ h => h) fun _ _ h => ⟨c, hclaim, h⟩
  | releases q hreleased h =>
    exact (flows_releaseNet.after h).mono (fun _ h => hreleased.trans (congrArg some h.symm))
      fun _ _ h => h

end NetEffect

theorem net_checkWindow : (s.checkWindow cfg c).1.netPositions = s.netPositions := by
  unfold checkWindow
  split <;> rfl

variable {claim : Option Claim} {released : Option String}

theorem netEffect_mids : NetEffect cfg a (some c) released s (s.resumeMids cfg c a).1 := by
  unfold resumeMids
  split
  · exact .same rfl
  · split
    · split
      · split
        · exact .same rfl
        · dsimp only
          split
          · exact .counts c _ rfl net_checkWindow
          · exact .counts c _ rfl rfl
      · exact .counts c _ rfl net_checkWindow
    · exact .same net_checkWindow

theorem netEffect_issue {window : QuoteWindow} {cids : List String}
    {ticket : Option (String × TicketEntry)} {envelope : E} :
    NetEffect cfg a (some c) released s (s.issue cfg c window cids ticket envelope a).1 := by
  unfold issue
  dsimp only
  split
  · exact .counts c _ rfl (net_count_congr rfl)
  · exact .same rfl

theorem netEffect_finishConfirm {window : QuoteWindow} {cids : List String}
    {ticket : Option (String × TicketEntry)} :
    NetEffect cfg a (some c) released s (s.finishConfirm cfg c window cids ticket a).1 := by
  unfold finishConfirm
  split
  · exact .same rfl
  · split
    · exact .same rfl
    · exact netEffect_issue

theorem netEffect_reserve {window : QuoteWindow} {found : List (CachedHolding D)} {lostRaces : Nat} :
    NetEffect cfg a (some c) released s (s.resumeReserve cfg c window found lostRaces a).1 := by
  unfold resumeReserve
  dsimp only
  split
  · unfold reserved
    split
    · split
      · exact .same rfl
      · exact netEffect_finishConfirm.before rfl
    · exact netEffect_finishConfirm.before rfl
  · split <;> exact .same rfl

theorem net_commit {window : QuoteWindow} :
    (s.resumeCommit cfg c window a).1.netPositions = s.netPositions := by
  unfold resumeCommit
  split
  · rfl
  · dsimp only
    split
    · rfl
    · split <;> rfl

omit [Field K] [LinearOrder K] in
theorem net_unassignTicket {assigned : Bool} :
    (s.unassignTicket q assigned).netPositions = s.netPositions := by
  unfold unassignTicket
  split <;> rfl

/-- The quote whose flow a stretch of a confirm releases. -/
def releasedBy : ConfirmTask D → Option String
  | .reject r => some r.quoteId
  | .withhold r => some r.quoteId
  | _ => none

theorem netEffect_resumeConfirm {t : ConfirmTask D} :
    NetEffect cfg a t.claim (releasedBy t) s (s.resumeConfirm cfg a t).1 := by
  cases t with
  | mids c => exact netEffect_mids
  | staleness c window =>
    refine .same ?_
    unfold resumeConfirm resumeStaleness
    dsimp only
    split <;> rfl
  | commit c window => exact .same net_commit
  | select c window =>
    refine .same ?_
    unfold resumeConfirm resumeSelect noHoldings
    dsimp only
    split
    · rfl
    · split <;> rfl
  | sleep c window deadline => exact .same rfl
  | poll c window deadline =>
    refine .same ?_
    unfold resumeConfirm resumePoll noHoldings
    dsimp only
    split
    · rfl
    · split <;> rfl
  | reserve c window found lostRaces => exact netEffect_reserve
  | reselect c window lostRaces =>
    refine .same ?_
    unfold resumeConfirm resumeReselect noHoldings
    dsimp only
    split <;> rfl
  | reject r =>
    refine .releases r.quoteId rfl ?_
    unfold resumeConfirm
    dsimp only
    split
    · exact net_unassignTicket
    · rfl
  | rejectHoldings r => exact .same net_unassignTicket
  | withhold r => exact .releases r.quoteId rfl rfl
  | withholdHoldings r => exact .same net_unassignTicket

/-! ## The first stretch of a confirm -/

/-- The claim that a confirm's first stretch makes. -/
def claims (s : RfqV2State D K E) (req : RfqConfirmRequest) (startMicros : Int) (now : Instant) :
    Option Claim :=
  match s.pending.lookup req.quoteId with
  | some (.indicative quote validUntil) =>
    if now < validUntil ∧ req.settlementFee = quote.settlementFee then
      some ⟨req, quote, now, startMicros⟩
    else none
  | _ => none

theorem netEffect_handleConfirm {req : RfqConfirmRequest} {startMicros : Int} :
    NetEffect cfg a (s.claims req startMicros a.now) none s (s.handleConfirm cfg req startMicros a).1 := by
  unfold handleConfirm
  split
  · exact .same rfl
  · split <;> exact .same rfl
  · exact .same rfl
  · exact .same rfl
  · exact .same rfl
  · rename_i quote validUntil hentry
    split
    · exact .same rfl
    · rename_i hlive
      split
      · exact .same rfl
      · rename_i hfee
        have hclaims : s.claims req startMicros a.now = some ⟨req, quote, a.now, startMicros⟩ := by
          unfold claims
          rw [hentry]
          exact if_pos ⟨not_le.mp hlive, not_not.mp hfee⟩
        dsimp only
        by_cases hrecheck : (cfg.midPrices && cfg.rechecks quote) = true
        · rw [if_pos hrecheck]
          split
          · exact .same rfl
          · exact .same net_checkWindow
        · rw [if_neg hrecheck]
          refine .counts _ (fun _ => true) hclaims ?_
          split
          · exact net_count_congr rfl
          · exact net_checkWindow.trans (net_count_congr rfl)

/-! ## Settles and the sweep -/

/-- The quote whose flow a stretch of a settle keeps for good. -/
def settledBy : SettleTask → Option String
  | .outflow _ _ => none
  | .release quoteId => some quoteId

omit [Field K] [LinearOrder K] in
theorem net_spendTicket {ticketed : Bool} : (s.spendTicket q ticketed).1.netPositions = s.netPositions := by
  unfold spendTicket
  dsimp only
  split <;> rfl

omit [Field K] [LinearOrder K] in
theorem net_handleSettleObserved {now : Instant} :
    (s.handleSettleObserved q now).1.netPositions = s.netPositions := by
  unfold handleSettleObserved
  split
  · dsimp only
    split
    · rfl
    · exact net_spendTicket
  · rfl

omit [Field K] [LinearOrder K] in
theorem flows_resumeSettle {t : SettleTask} {counts : String → NetPosition.PendingNet K → Prop} :
    Flows s (s.resumeSettle t).1 (fun q => settledBy t = some q) counts := by
  cases t with
  | outflow quoteId ticketed => exact .of_eq net_spendTicket
  | release quoteId =>
    have hsettled : Flows s (s.resumeSettle (.release quoteId)).1 (· = quoteId) counts :=
      (flows_settleNet : Flows (s.releaseCommitment quoteId) _ _ _).before rfl
    exact hsettled.mono (fun _ h => congrArg some h.symm) fun _ _ h => h

omit [Field K] [LinearOrder K] in
theorem flow_congr (h : s'.netPositions = s.netPositions) (q : String) : s'.flow q = s.flow q := by
  unfold flow
  rw [h]

theorem isStale_congr {cutoffMs : Int} (h : s'.flow q = s.flow q) :
    isStale cfg s' cutoffMs q = isStale cfg s cutoffMs q := by
  unfold isStale
  rw [h]

theorem net_endSweep_congr {now : Instant} {order : NetOrder K} {b : SweepAnswers}
    (h : s'.netPositions = s.netPositions) :
    (s'.endSweep cfg now order b).netPositions = (s.endSweep cfg now order b).netPositions := by
  unfold endSweep
  dsimp only
  rw [h]

/-- The tracker is touched once all releases are made. -/
theorem net_releaseAll {now : Instant} {order : NetOrder K} {b : SweepAnswers} {l : List Release} :
    (s.releaseAll cfg now order b l).1.netPositions =
      if (s.releaseAll cfg now order b l).2.isDone then (s.endSweep cfg now order b).netPositions
      else s.netPositions := by
  induction l generalizing s with
  | nil => rfl
  | cons x rest ih =>
    unfold releaseAll
    split
    · rfl
    · split
      · rfl
      · rw [ih, net_endSweep_congr net_unassignTicket, net_unassignTicket]

theorem net_sweep {now : Instant} {visit : List Release → List Release} {order : NetOrder K}
    {b : SweepAnswers} :
    (s.sweep cfg now visit order b).1.netPositions =
      if (s.sweep cfg now visit order b).2.isDone then (s.endSweep cfg now order b).netPositions
      else s.netPositions := by
  unfold sweep
  dsimp only
  rw [net_releaseAll]
  rfl

theorem flows_sweep {now : Instant} {visit : List Release → List Release} {order : NetOrder K}
    {b : SweepAnswers} {counts : String → NetPosition.PendingNet K → Prop}
    (horder : ∀ l, (order l).Perm l) :
    Flows s (s.sweep cfg now visit order b).1
      (fun q => (s.sweep cfg now visit order b).2.isDone = true ∧ isStale cfg s b.cutoffMs q = true)
      counts := by
  cases hdone : (s.sweep cfg now visit order b).2.isDone with
  | false => exact .of_eq (net_sweep.trans (by rw [hdone]; rfl))
  | true =>
    have hended : Flows s (s.sweep cfg now visit order b).1
        (fun q => isStale cfg s b.cutoffMs q = true) counts :=
      (flows_endSweep horder).after (net_sweep.trans (by rw [hdone]; rfl))
    exact hended.mono (fun _ h => ⟨rfl, h⟩) fun _ _ h => h

/-- The quote whose flow a stretch of the sweep releases. -/
def sweptBy : SweepTask → Option String
  | .funds _ r _ => some r.quoteId
  | .holdings _ _ _ => none

/-- What a stretch of the sweep has released before it goes on to the rest. -/
def swept (cfg : RfqV2Config K) (b : SweepAnswers) (s : RfqV2State D K E) :
    SweepTask → RfqV2State D K E
  | .funds _ r _ => s.releaseFunds cfg r.quoteId b.nowMs
  | .holdings _ _ _ => s

theorem net_resumeSweep {t : SweepTask} {order : NetOrder K} {b : SweepAnswers} :
    (s.resumeSweep cfg order b t).1.netPositions =
      if (s.resumeSweep cfg order b t).2.isDone then
        ((s.swept cfg b t).endSweep cfg t.now order b).netPositions
      else (s.swept cfg b t).netPositions := by
  cases t with
  | funds now r rest =>
    unfold resumeSweep
    dsimp only
    split
    · rfl
    · rw [net_releaseAll, net_endSweep_congr net_unassignTicket, net_unassignTicket]
      rfl
  | holdings now r rest =>
    have hnet : ((s.releaseReservations r.holdingCids).unassignTicket r.quoteId r.ticket).netPositions
        = s.netPositions := net_unassignTicket
    unfold resumeSweep
    dsimp only
    rw [net_releaseAll, net_endSweep_congr hnet, hnet]
    rfl

theorem flows_swept {t : SweepTask} {b : SweepAnswers}
    {counts : String → NetPosition.PendingNet K → Prop} :
    Flows s (s.swept cfg b t) (fun q => sweptBy t = some q) counts := by
  cases t with
  | funds now r rest =>
    have hreleased : Flows s (s.swept cfg b (.funds now r rest)) (· = r.quoteId) counts :=
      (flows_releaseNet : Flows (s.releaseCommitment r.quoteId) _ _ _).before rfl
    exact hreleased.mono (fun _ h => congrArg some h.symm) fun _ _ h => h
  | holdings now r rest => exact .of_eq rfl

theorem flows_resumeSweep {t : SweepTask} {order : NetOrder K} {b : SweepAnswers}
    {counts : String → NetPosition.PendingNet K → Prop} (horder : ∀ l, (order l).Perm l) :
    Flows s (s.resumeSweep cfg order b t).1
      (fun q => sweptBy t = some q ∨
        ((s.resumeSweep cfg order b t).2.isDone = true ∧ isStale cfg s b.cutoffMs q = true))
      counts := by
  cases hdone : (s.resumeSweep cfg order b t).2.isDone with
  | false =>
    have hswept : Flows s (s.resumeSweep cfg order b t).1 (fun q => sweptBy t = some q) counts :=
      flows_swept.after (net_resumeSweep.trans (by rw [hdone]; rfl))
    exact hswept.mono (fun _ h => .inl h) fun _ _ h => h
  | true =>
    have hended : Flows s (s.resumeSweep cfg order b t).1 _ counts :=
      (flows_swept.trans_ends (flows_endSweep horder)).after
        (net_resumeSweep.trans (by rw [hdone]; rfl))
    refine hended.mono (fun q h => h.imp_right fun h => ⟨rfl, ?_⟩) fun _ _ h => h
    rw [← isStale_congr h.1]
    exact h.2

end Net

end RfqV2State

namespace Quotes

open RfqV2State

variable [Field K] [LinearOrder K] (cfg : RfqV2Config K) (w : Quotes D K E)

/-- Whether an event releases, settles or expires the flow of a quote. -/
def endsFlow (q : String) : QuoteEvent D K E → Bool
  | .sweep _ now visit order b =>
    (w.state.sweep cfg now visit order b).2.isDone && isStale cfg w.state b.cutoffMs q
  | .resume id _ order b =>
    match w.tasks.lookup id with
    | some (.confirm t) => decide (releasedBy t = some q)
    | some (.settle t) => decide (settledBy t = some q)
    | some (.sweep t) =>
      decide (sweptBy t = some q) ||
        ((w.state.resumeSweep cfg order b t).2.isDone && isStale cfg w.state b.cutoffMs q)
    | _ => false
  | _ => false

omit [Field K] [LinearOrder K] in
/-- The claim that an event works for. -/
def claimOf : QuoteEvent D K E → Option Claim
  | .confirm _ req startMicros a => w.state.claims req startMicros a.now
  | .resume id _ _ _ =>
    match w.tasks.lookup id with
    | some (.confirm t) => t.claim
    | _ => none
  | _ => none

variable {cfg} {w}

/-- What an event does to the flows. -/
theorem flows_apply {e : QuoteEvent D K E} (hallowed : w.Allowed e) :
    Flows w.state (w.apply cfg e).state (fun q => w.endsFlow cfg q e = true)
      (fun q p => ∃ c, w.claimOf e = some c ∧ OwnFlow cfg c q p) := by
  cases e with
  | register id call =>
    refine .of_eq ?_
    unfold apply after registerIndicative
    dsimp only
    split <;> rfl
  | confirm id req startMicros a =>
    exact netEffect_handleConfirm.flows.mono (fun _ h => nomatch h) fun _ _ h => h
  | settle id quoteId now => exact .of_eq net_handleSettleObserved
  | sweep id now visit order b =>
    exact (flows_sweep hallowed.2.2).mono (fun _ h => Bool.and_eq_true_iff.mpr h) fun _ _ h => h
  | resume id a order b =>
    unfold apply endsFlow claimOf
    dsimp only
    cases ht : w.tasks.lookup id with
    | none => exact .of_eq rfl
    | some t =>
      cases t with
      | register t =>
        refine .of_eq ?_
        unfold after resumeRegister
        cases t with
        | available call lpPaysKey =>
          dsimp only
          split_ifs <;> rfl
        | select call lpPaysKey validUntil => rfl
      | confirm t =>
        exact netEffect_resumeConfirm.flows.mono (fun q h => decide_eq_true h) fun _ _ h => h
      | settle t => exact flows_resumeSettle.mono (fun q h => decide_eq_true h) fun _ _ h => h
      | sweep t =>
        refine (flows_resumeSweep hallowed.2).mono (fun q h => ?_) fun _ _ h => h
        exact Bool.or_eq_true_iff.mpr (h.imp (fun h => decide_eq_true h) Bool.and_eq_true_iff.mpr)
  | consumed cid reason now => exact .of_eq rfl
  | balances updates => exact .of_eq rfl
  | holdings created => exact .of_eq rfl
  | refresh holdings snapshotStart => exact .of_eq rfl
  | cleanup now => exact .of_eq rfl
  | reconcile onLedger => exact .of_eq rfl
  | reserve cids kind now => exact .of_eq rfl
  | release cids => exact .of_eq rfl

end Quotes

end BookAgent.CloudAgent
