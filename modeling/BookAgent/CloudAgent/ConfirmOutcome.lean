import BookAgent.CloudAgent.QuoteResources

/-!
# What a confirm comes to

Each stretch of a confirm that holds its quote ends in one of four ways: it waits on, it
rejects, it withholds an envelope whose quote it lost, or it issues the envelope. A reject
and a withholding carry everything the stretch acquired.
-/

namespace BookAgent.CloudAgent

open BookAgent.Lib BookAgent.AgentLogic

variable {D K E : Type}

namespace ConfirmTask

/-- The claim of a confirm that is still working towards its envelope. -/
def claim : ConfirmTask D → Option Claim
  | .mids c => some c
  | .staleness c _ => some c
  | .commit c _ => some c
  | .select c _ => some c
  | .sleep c _ _ => some c
  | .poll c _ _ => some c
  | .reserve c _ _ _ => some c
  | .reselect c _ _ => some c
  | _ => none

/-- The confirm has committed its funds. -/
def committed : ConfirmTask D → Bool
  | .select _ _ => true
  | .sleep _ _ _ => true
  | .poll _ _ _ => true
  | .reserve _ _ _ _ => true
  | .reselect _ _ _ => true
  | _ => false

end ConfirmTask

namespace RfqV2State

/-- How a stretch of a confirm ends that started in `s` with the claim `c`. -/
inductive Outcome (s : RfqV2State D K E) (c : Claim) (committed : Bool) :
    ConfirmStretch D K E → Prop
  | waits {s' : RfqV2State D K E} {t : ConfirmTask D} (hclaim : t.claim = some c)
      (hacquires : Acquires s s' c.req.quoteId [] none)
      (hfunds : t.committed = true → committed = true ∨ s'.Has c.req.quoteId .funds) :
      Outcome s c committed (s', .await t)
  | rejects {s' : RfqV2State D K E} {r : Rejecting} {ticketUntil : Option Instant}
      (hquote : r.quoteId = c.req.quoteId) (hclaimed : r.claimed = true)
      (hacquires : Acquires s s' c.req.quoteId r.holdingCids ticketUntil)
      (hticket : r.ticketAssigned = ticketUntil.isSome) :
      Outcome s c committed (s', .await (.reject r))
  | withholds {s' : RfqV2State D K E} {r : Rejecting} {ticketUntil : Option Instant}
      (hquote : r.quoteId = c.req.quoteId) (hclaimed : r.claimed = true)
      (hacquires : Acquires s s' c.req.quoteId r.holdingCids ticketUntil)
      (hticket : r.ticketAssigned = ticketUntil.isSome) :
      Outcome s c committed (s', .await (.withhold r))
  | issues {s' : RfqV2State D K E} {q : ConfirmedQuote E} {result : Except RfqConfirmReject E}
      (hcommitted : committed = true) (hprogress : InProgress (s.pending.lookup c.req.quoteId))
      (hconfirmed : s'.pending.lookup c.req.quoteId = some (.confirmed q))
      (hothers : ∀ other, other ≠ c.req.quoteId → Keeps s s' other)
      (hfunds : s.Has c.req.quoteId .funds → s'.Has c.req.quoteId .funds)
      (hholding : ∀ cid, s'.Has c.req.quoteId (.holding cid) →
        s.Has c.req.quoteId (.holding cid) ∨ cid ∈ q.holdingCids)
      (hticket : ∀ t, s'.Has c.req.quoteId (.ticket t) →
        s.Has c.req.quoteId (.ticket t) ∨ q.expiresAt = t) :
      Outcome s c committed (s', .done result)

namespace Outcome

variable {s s' : RfqV2State D K E} {c : Claim} {committed : Bool} {r : ConfirmStretch D K E}

/-- Steps that acquire nothing may come first. -/
theorem after (hacquires : Acquires s s' c.req.quoteId [] none) (h : Outcome s' c committed r) :
    Outcome s c committed r := by
  cases h with
  | waits hclaim hrest hfunds => exact .waits hclaim (hacquires.trans_none hrest) hfunds
  | rejects hquote hclaimed hrest hticket =>
    exact .rejects hquote hclaimed (hacquires.trans_none hrest) hticket
  | withholds hquote hclaimed hrest hticket =>
    exact .withholds hquote hclaimed (hacquires.trans_none hrest) hticket
  | issues hcommitted hprogress hconfirmed hothers hfunds hholding hticket =>
    rw [hacquires.pending] at hprogress
    refine .issues hcommitted hprogress hconfirmed ?_ (fun h => hfunds (hacquires.funds h)) ?_ ?_
    · exact fun other hother => (hacquires.others other hother).trans (hothers other hother)
    · intro cid hcid
      refine (hholding cid hcid).imp_left fun hold => ?_
      exact (hacquires.holding cid hold).resolve_right List.not_mem_nil
    · intro t ht
      refine (hticket t ht).imp_left fun hold => ?_
      exact (hacquires.ticket t hold).resolve_right (by rintro ⟨⟩)

/-- A reject that holds what was acquired. -/
theorem reject {cids : List String} {ticketUntil : Option Instant} {ticketAssigned : Bool}
    {reason : RfqConfirmRejectReason} {detail : String}
    (h : Acquires s s' c.req.quoteId cids ticketUntil)
    (hticket : ticketAssigned = ticketUntil.isSome) :
    Outcome s c committed (s'.rejectWith c cids ticketAssigned reason detail) :=
  .rejects rfl rfl h hticket

/-- A reject before anything was acquired. -/
theorem reject_now {reason : RfqConfirmRejectReason} {detail : String} :
    Outcome s c committed (s.rejectWith c [] false reason detail) :=
  .reject (.refl s _) rfl

end Outcome

section Confirm

variable [Field K] [LinearOrder K] {cfg : RfqV2Config K} {s s' : RfqV2State D K E} {c : Claim}
  {window : QuoteWindow} {committed : Bool} {a : ConfirmAnswers D K E}

theorem outcome_checkWindow : Outcome s c committed (s.checkWindow cfg c) := by
  unfold checkWindow
  split
  · exact .reject_now
  · exact .waits rfl (.refl s _) (by rintro ⟨⟩)

theorem outcome_mids : Outcome s c committed (s.resumeMids cfg c a) := by
  unfold resumeMids
  split
  · exact .reject_now
  · split
    · split
      · split
        · exact .reject_now
        · dsimp only
          split
          · exact .after acquires_countConfirm outcome_checkWindow
          · exact .reject acquires_countConfirm rfl
      · exact .after acquires_countConfirm outcome_checkWindow
    · exact outcome_checkWindow

omit [Field K] [LinearOrder K] in
theorem outcome_staleness : Outcome s c committed (s.resumeStaleness c window a) := by
  unfold resumeStaleness
  split
  · exact .reject_now
  · exact .waits rfl (.refl s _) (by rintro ⟨⟩)

/-- The commitment is made, or the confirm rejects. -/
theorem outcome_commit : Outcome s c committed (s.resumeCommit cfg c window a) := by
  unfold resumeCommit
  cases hcommit : s.liquidityManager.tryCommit (lmKey c.req.quoteId) c.quote.lpPaysToken
      c.quote.lpPays.2 0 with
  | error e => exact .reject_now
  | ok liquidityManager =>
    obtain ⟨-, hmanager⟩ := LiquidityManager.tryCommit_ok hcommit
    have hfunds : liquidityManager.hasCommitment (lmKey c.req.quoteId) = true := by
      rw [hmanager]
      exact LiquidityManager.hasCommitment_commit
    have hacquires : Acquires s { s with liquidityManager } c.req.quoteId [] none := by
      refine acquires_liquidity (fun pid hpid => ?_) hfunds
      rw [hmanager]
      exact LiquidityManager.hasCommitment_commit_ne hpid
    dsimp only
    split
    · exact .reject hacquires rfl
    · split
      · exact .reject hacquires rfl
      · exact .waits rfl hacquires fun _ => .inr hfunds

omit [Field K] [LinearOrder K] in
theorem outcome_select : Outcome s c true (s.resumeSelect c window a) := by
  unfold resumeSelect noHoldings
  split
  · exact .waits rfl (.refl s _) fun _ => .inl rfl
  · split
    · exact .waits rfl (.refl s _) fun _ => .inl rfl
    · exact .reject_now

omit [Field K] [LinearOrder K] in
theorem outcome_poll {deadline : Instant} : Outcome s c true (s.resumePoll c window deadline a) := by
  unfold resumePoll noHoldings
  split
  · exact .waits rfl (.refl s _) fun _ => .inl rfl
  · split
    · exact .waits rfl (.refl s _) fun _ => .inl rfl
    · exact .reject_now

omit [Field K] [LinearOrder K] in
theorem outcome_reselect {lostRaces : Nat} :
    Outcome s c true (s.resumeReselect c window lostRaces a) := by
  unfold resumeReselect noHoldings
  split
  · exact .waits rfl (.refl s _) fun _ => .inl rfl
  · exact .reject_now

/-- The entry an issued envelope leaves. -/
def issuedQuote (c : Claim) (window : QuoteWindow) (cids : List String)
    (ticket : Option (String × TicketEntry)) (envelope : E) : ConfirmedQuote E where
  holdingCids := cids
  ticketId := (ticket.map Prod.fst).getD ""
  ticketCid := ticket.map fun t => t.2.contractId
  envelope := some envelope
  validUntilMicros := window.validUntilMicros
  lpPaysToken := c.quote.lpPaysToken
  lpPaysAmount := c.quote.lpPays.2
  expiresAt := window.expiresAt
  marketId := c.quote.marketId

/-- The envelope is issued if the quote is still in progress, and withheld otherwise. -/
theorem outcome_issue {cids : List String} {ticket : Option (String × TicketEntry)}
    {ticketUntil : Option Instant} {envelope : E} (h : Acquires s s' c.req.quoteId cids ticketUntil)
    (hticket : ticket.isSome = ticketUntil.isSome)
    (huntil : ∀ t, ticketUntil = some t → t = window.expiresAt) :
    Outcome s c true (s'.issue cfg c window cids ticket envelope a) := by
  unfold issue
  dsimp only
  split
  · rename_i since hlookup
    obtain ⟨hpending, hown⟩ := countConfirm_own cfg
      { s'.setPending c.req.quoteId (.confirmed (issuedQuote c window cids ticket envelope)) with
        correlation := s'.correlation.insertAll
          ((cids ++ (ticket.map fun t => t.2.contractId).toList).map (·, c.req.quoteId)) }
      c.req.quoteId c.quote.userParty (baseToken c.quote.marketId) (signedDelta cfg c.quote)
      (fun _ => true) a.nowMs a.appliedMs
    refine .issues (q := issuedQuote c window cids ticket envelope) rfl
      ⟨since, h.pending ▸ hlookup⟩ ?_ ?_ ?_ ?_ ?_
    · exact (congrArg (AList.lookup c.req.quoteId) hpending).trans (AList.lookup_insert _)
    · intro other hother
      have hkeeps : Keeps s'
          { s'.setPending c.req.quoteId (.confirmed (issuedQuote c window cids ticket envelope)) with
            correlation := s'.correlation.insertAll
              ((cids ++ (ticket.map fun t => t.2.contractId).toList).map (·, c.req.quoteId)) }
          other :=
        (keeps_setPending hother).trans ⟨rfl, Iff.rfl, fun _ hr => hr⟩
      exact (h.others other hother).trans (hkeeps.trans (keeps_countConfirm hother))
    · exact fun hfunds => (hown .funds (by rintro ⟨⟩)).mpr (h.funds hfunds)
    · exact fun cid hcid => h.holding cid ((hown (.holding cid) (by rintro ⟨⟩)).mp hcid)
    · intro t ht
      refine (h.ticket t ((hown (.ticket t) (by rintro ⟨⟩)).mp ht)).imp_right fun hnew => ?_
      exact (huntil t hnew).symm
  · exact .withholds rfl rfl h hticket

theorem outcome_finishConfirm {cids : List String} {ticket : Option (String × TicketEntry)}
    {ticketUntil : Option Instant} (h : Acquires s s' c.req.quoteId cids ticketUntil)
    (hticket : ticket.isSome = ticketUntil.isSome)
    (huntil : ∀ t, ticketUntil = some t → t = window.expiresAt) :
    Outcome s c true (s'.finishConfirm cfg c window cids ticket a) := by
  unfold finishConfirm
  split
  · exact .reject h hticket
  · split
    · exact .reject h hticket
    · exact outcome_issue h hticket huntil

theorem outcome_reserved {cids : List String} (h : Acquires s s' c.req.quoteId cids none) :
    Outcome s c true (s'.reserved cfg c window cids a) := by
  unfold reserved
  split
  · split
    · exact .reject h rfl
    · rename_i ticket pool hassign
      refine outcome_finishConfirm (h.trans_ticket (acquires_assign hassign)) rfl ?_
      exact fun t ht => (Option.some.inj ht).symm
  · exact outcome_finishConfirm h rfl (by rintro t ⟨⟩)

/-- A lost race is tried again, or the confirm rejects. -/
theorem outcome_reserve {found : List (CachedHolding D)} {lostRaces : Nat} :
    Outcome s c true (s.resumeReserve cfg c window found lostRaces a) := by
  unfold resumeReserve
  dsimp only
  split
  · rename_i hgranted
    exact outcome_reserved (acquires_reserveV2 (Prod.ext hgranted rfl))
  · split
    · exact .reject_now
    · exact .waits rfl (.refl s _) fun _ => .inl rfl

/-- Every stretch of a confirm that is still working. -/
theorem outcome_resume {t : ConfirmTask D} (h : t.claim = some c) :
    Outcome s c t.committed (s.resumeConfirm cfg a t) := by
  cases t with
  | mids c' => cases h; exact outcome_mids
  | staleness c' window => cases h; exact outcome_staleness
  | commit c' window => cases h; exact outcome_commit
  | select c' window => cases h; exact outcome_select
  | sleep c' window deadline => cases h; exact .waits rfl (.refl s _) fun _ => .inl rfl
  | poll c' window deadline => cases h; exact outcome_poll
  | reserve c' window found lostRaces => cases h; exact outcome_reserve
  | reselect c' window lostRaces => cases h; exact outcome_reselect
  | reject r => cases h
  | rejectHoldings r => cases h
  | withhold r => cases h
  | withholdHoldings r => cases h

/-- What a confirm does up to its first await. -/
inductive Confirms (s : RfqV2State D K E) (quoteId : String) (now : Instant) :
    ConfirmStretch D K E → Prop
  | answers {result : Except RfqConfirmReject E} : Confirms s quoteId now (s, .done result)
  | stale {quote : LiveQuote} {validUntil : Instant} {reject : RfqConfirmReject}
      (hentry : s.pending.lookup quoteId = some (.indicative quote validUntil))
      (hpast : validUntil ≤ now) :
      Confirms s quoteId now (s, .await (.reject ⟨quoteId, false, [], false, reject⟩))
  | claims {quote : LiveQuote} {validUntil : Instant} {c : Claim} {r : ConfirmStretch D K E}
      (hentry : s.pending.lookup quoteId = some (.indicative quote validUntil))
      (hlive : now < validUntil) (hquote : c.req.quoteId = quoteId)
      (houtcome : Outcome (s.setPending quoteId (.confirming now)) c false r) :
      Confirms s quoteId now r

theorem confirms_handleConfirm {req : RfqConfirmRequest} {startMicros : Int} :
    Confirms s req.quoteId a.now (s.handleConfirm cfg req startMicros a) := by
  unfold handleConfirm
  cases hentry : s.pending.lookup req.quoteId with
  | none => exact .answers
  | some entry =>
    cases entry with
    | confirmed q =>
      dsimp only
      cases q.envelope with
      | none => exact .answers
      | some envelope => exact .answers
    | confirming since => exact .answers
    | settled since => exact .answers
    | expired since => exact .answers
    | indicative quote validUntil =>
      dsimp only
      split
      · rename_i hpast
        exact .stale hentry hpast
      · rename_i hlive
        split
        · exact .answers
        · refine .claims (c := ⟨req, quote, a.now, startMicros⟩) hentry (not_le.mp hlive) rfl ?_
          have started : ∀ {s' : RfqV2State D K E},
              Acquires (s.setPending req.quoteId (.confirming a.now)) s' req.quoteId [] none →
              Outcome (s.setPending req.quoteId (.confirming a.now)) ⟨req, quote, a.now, startMicros⟩
                false (if cfg.midPrices = true then
                    (s', .await (.mids ⟨req, quote, a.now, startMicros⟩))
                  else s'.checkWindow cfg ⟨req, quote, a.now, startMicros⟩) := by
            intro s' hacquires
            split
            · exact .waits rfl hacquires (by rintro ⟨⟩)
            · exact .after hacquires outcome_checkWindow
          by_cases hrecheck : (cfg.midPrices && cfg.rechecks quote) = true
          · rw [if_pos hrecheck]
            exact started (.refl _ _)
          · rw [if_neg hrecheck]
            exact started acquires_countConfirm

end Confirm

/-- A confirm leaves other quotes alone. -/
theorem Outcome.keeps {s : RfqV2State D K E} {c : Claim} {committed : Bool}
    {r : ConfirmStretch D K E} (h : Outcome s c committed r) {other : String}
    (hother : other ≠ c.req.quoteId) : Keeps s r.1 other := by
  cases h with
  | waits hclaim hacquires hfunds => exact hacquires.others other hother
  | rejects hquote hclaimed hacquires hticket => exact hacquires.others other hother
  | withholds hquote hclaimed hacquires hticket => exact hacquires.others other hother
  | issues hcommitted hprogress hconfirmed hothers hfunds hholding hticket =>
    exact hothers other hother

end RfqV2State

end BookAgent.CloudAgent
