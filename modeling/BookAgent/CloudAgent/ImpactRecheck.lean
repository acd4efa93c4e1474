import BookAgent.CloudAgent.QuoteNets
import BookAgent.CloudAgent.QuotedSpread
import BookAgent.CloudAgent.ResourcesFollowQuotes

/-!
# The check of the impact price

`handle_confirm` prices a quote again before it signs: the held price against the mid price, the depth
and the party's net at that moment, and the quote's flow is counted in the same step. Confirms of any
parties interleave with quoting, settles and sweeps, and the feed gives each check what it has then.
-/

namespace BookAgent.CloudAgent

open BookAgent.Lib BookAgent.AgentLogic RfqV2State Quotes

/-! ## The check -/

/-- The section `[markets.rfq.pool_impact]` as a confirm reads it. -/
structure ImpactSection where
  knobs : PoolImpactConfig ℚ
  confirmTolerancePercent : ℚ

def QuoteSide.impactSide : QuoteSide → ImpactSide
  | .buy => .userBuys
  | .sell => .userSells

/-- What the held price is checked with, but for the net. -/
structure PriceRecheck where
  side : QuoteSide
  baseAmount : ℚ
  quoteAmount : ℚ
  effSpreadBase : ℚ
  midNow : ℚ
  depth : PoolDepth ℚ
  cfg : ImpactSection

namespace PriceRecheck

variable (r : PriceRecheck)

def held : ℚ := if 0 < r.baseAmount then r.quoteAmount / r.baseAmount else 0

def tol : ℚ := max r.cfg.confirmTolerancePercent 0 / 100

def sign : ℚ :=
  match r.side with
  | .buy => 1
  | .sell => -1

def impactNow (netNow : ℚ) : ℚ :=
  poolImpactPercent r.side.impactSide (some r.baseAmount) (some netNow) r.depth r.cfg.knobs

def fairNow (netNow : ℚ) : ℚ :=
  r.midNow * (1 + r.sign * (r.effSpreadBase + r.impactNow netNow) / 100)

def saturated (netNow : ℚ) : Bool := !decide (0 < r.fairNow netNow)

def takerFavourable (netNow : ℚ) : Bool :=
  decide (0 < r.held) && (r.saturated netNow ||
    match r.side with
    | .buy => decide (r.held < r.fairNow netNow * (1 - r.tol))
    | .sell => decide (r.fairNow netNow * (1 + r.tol) < r.held))

def accepts (netNow : ℚ) : Bool := !r.takerFavourable netNow

/-- The held price is no better for the taker, by more than the tolerance, than the mid price with the
quoted spread and the adjustment at a net. -/
def NotBetter (netNow : ℚ) : Prop :=
  match r.side with
  | .buy =>
    r.midNow * (1 + (r.effSpreadBase + r.impactNow netNow) / 100) * (1 - r.tol)
      ≤ r.quoteAmount / r.baseAmount
  | .sell =>
    r.quoteAmount / r.baseAmount
      ≤ r.midNow * (1 - (r.effSpreadBase + r.impactNow netNow) / 100) * (1 + r.tol)

variable {r}

theorem held_eq (h : 0 < r.held) : r.held = r.quoteAmount / r.baseAmount := by
  unfold held at h ⊢
  split at h
  · rename_i hbase
    exact if_pos hbase
  · exact absurd h (lt_irrefl 0)

/-- With a price to check, what is accepted is a fair price and not better than it. -/
theorem accepts_iff {netNow : ℚ} (hheld : 0 < r.held) :
    r.accepts netNow = true ↔ 0 < r.fairNow netNow ∧ r.NotBetter netNow := by
  unfold accepts takerFavourable saturated NotBetter
  rw [decide_eq_true hheld, Bool.true_and, Bool.not_or, Bool.not_not, Bool.and_eq_true,
    decide_eq_true_eq]
  refine and_congr_right fun _ => ?_
  have hprice := held_eq hheld
  unfold fairNow sign
  cases r.side with
  | buy =>
    dsimp only
    rw [Bool.not_eq_true', decide_eq_false_iff_not, not_lt, hprice, one_mul]
  | sell =>
    dsimp only
    rw [Bool.not_eq_true', decide_eq_false_iff_not, not_lt, hprice, neg_one_mul, neg_div,
      ← sub_eq_add_neg]

end PriceRecheck

/-! ## What a confirm reads -/

/-- The markets' sections; the feed is attached and arithmetic is exact. -/
structure ImpactRules where
  config : RfqV2Config ℚ
  impact : String → Option ImpactSection
  poolImpact_eq : ∀ marketId, config.poolImpact marketId = (impact marketId).isSome
  feed : config.midPrices = true
  toF64_eq : ∀ x, config.toF64 x = x

namespace ImpactRules

variable (rules : ImpactRules)

/-- The check of a quote whose market has this entry; none without a depth. -/
def recheck (quote : LiveQuote) (entry : Option MarketMid) : Option PriceRecheck :=
  match rules.impact quote.marketId, quote.poolInputs, entry with
  | some cfg, some inputs, some ⟨.finite midNow, some depth⟩ =>
    some ⟨quote.side, quote.baseAmount, quote.quoteAmount, inputs.effSpreadBase, midNow, depth, cfg⟩
  | _, _, _ => none

end ImpactRules

/-- The entry has a finite positive mid. -/
def midOk (entry : Option MarketMid) : Bool :=
  match entry with
  | some ⟨.finite mid, _⟩ => decide (0 < mid)
  | _ => false

def hasDepth (entry : Option MarketMid) : Bool := entry.any fun m => m.poolDepth.isSome

theorem hasDepth_of_recheck {rules : ImpactRules} {quote : LiveQuote} {entry : Option MarketMid}
    {terms : PriceRecheck} (h : rules.recheck quote entry = some terms) : hasDepth entry = true := by
  unfold ImpactRules.recheck at h
  split at h
  · rfl
  · cases h

/-- The net that a claim is counted on. -/
def netNow {D E : Type} (cfg : RfqV2Config ℚ) (s : RfqV2State D ℚ E) (c : Claim) (nowMs : Int) : ℚ :=
  match s.netPositions, c.quote.userParty with
  | some t, some party => t.net cfg.net party (baseToken c.quote.marketId) nowMs
  | _, _ => 0

section Stretch

variable {D E : Type} {cfg : RfqV2Config ℚ} {s : RfqV2State D ℚ E} {c : Claim}
  {a : ConfirmAnswers D ℚ E}

theorem count_fst (accept : ℚ → Bool) :
    (s.count cfg c a accept).1 = accept (netNow cfg s c a.nowMs) := by
  unfold count countConfirm netNow
  cases s.netPositions with
  | none => rfl
  | some t =>
    unfold NetPosition.Inner.checkAndRecord
    cases c.quote.userParty with
    | none =>
      dsimp only
      split_ifs with hrefused hcount
      · exact hrefused.symm
      · exact (eq_true_of_ne_false hrefused).symm
      · exact (eq_true_of_ne_false hrefused).symm
    | some party =>
      dsimp only
      split_ifs with hrefused hcount
      · exact hrefused.symm
      · exact (eq_true_of_ne_false hrefused).symm
      · exact (eq_true_of_ne_false hrefused).symm

/-- The confirm goes on from its check. -/
def goesOn (r : ConfirmStretch D ℚ E) : Bool := (r.2.task.bind ConfirmTask.claim).isSome

/-- A check that is passed counts the claim, with the answer to the net where there is a depth. -/
theorem of_goesOn (hrechecks : cfg.rechecks c.quote = true)
    (hgoes : goesOn (s.resumeMids cfg c a) = true) :
    ∃ accept, (s.count cfg c a accept).1 = true ∧
      (s.resumeMids cfg c a).1.netPositions = (s.count cfg c a accept).2.netPositions ∧
      (a.depth = true → accept = a.accept) := by
  unfold resumeMids at hgoes ⊢
  split at hgoes
  · cases hgoes
  · rename_i hmid
    rw [if_neg hmid, if_pos hrechecks]
    split at hgoes
    · rename_i hdepth
      rw [if_pos hdepth]
      split at hgoes
      · cases hgoes
      · rename_i hrange
        rw [if_neg hrange]
        dsimp only at hgoes ⊢
        split at hgoes
        · rename_i haccepted
          rw [if_pos haccepted]
          exact ⟨a.accept, haccepted, net_checkWindow, fun _ => rfl⟩
        · cases hgoes
    · rename_i hdepth
      rw [if_neg hdepth]
      refine ⟨fun _ => true, count_fst _, net_checkWindow, fun h => absurd h hdepth⟩

/-- A check against a depth that the net passes. -/
theorem resumeMids_accepted (hmid : a.midOk = true) (hrechecks : cfg.rechecks c.quote = true)
    (hdepth : a.depth = true) (hrange : a.heldInRange = true)
    (haccept : a.accept (netNow cfg s c a.nowMs) = true) :
    s.resumeMids cfg c a = (s.count cfg c a a.accept).2.checkWindow cfg c := by
  have hcount : (s.count cfg c a a.accept).1 = true := (count_fst a.accept).trans haccept
  unfold resumeMids
  rw [hmid, hrechecks, hdepth, hrange]
  dsimp only
  rw [if_neg Bool.noConfusion, if_pos rfl, if_pos rfl, if_neg (fun h => Bool.noConfusion h.2),
    if_pos hcount]

/-- With the feed attached, a claimed quote waits for the mids first. -/
theorem mids_of_handleConfirm {req : RfqConfirmRequest} {startMicros : Int} {t : ConfirmTask D}
    (hfeed : cfg.midPrices = true)
    (ht : (s.handleConfirm cfg req startMicros a).2.task = some t) (hclaim : t.claim = some c) :
    t = .mids c ∧ s.claims req startMicros a.now = some c := by
  unfold handleConfirm at ht
  split at ht
  · cases ht
  · split at ht <;> cases ht
  · cases ht
  · cases ht
  · cases ht
  · rename_i quote validUntil hentry
    split at ht
    · obtain rfl := Option.some.inj ht
      cases hclaim
    · rename_i hlive
      split at ht
      · cases ht
      · rename_i hfee
        dsimp only at ht
        obtain rfl := Option.some.inj ht
        obtain rfl := Option.some.inj hclaim
        refine ⟨rfl, ?_⟩
        unfold claims
        rw [hentry]
        exact if_pos ⟨not_le.mp hlive, not_not.mp hfee⟩

/-- A stretch keeps its claim. -/
theorem claim_of_resumeConfirm {t t' : ConfirmTask D}
    (ht : (s.resumeConfirm cfg a t).2.task = some t') (hclaim : t'.claim = some c) :
    t.claim = some c := by
  cases hold : t.claim with
  | some c₀ =>
    have houtcome : Outcome s c₀ t.committed (s.resumeConfirm cfg a t) := outcome_resume hold
    generalize s.resumeConfirm cfg a t = r at ht houtcome
    cases houtcome with
    | waits hwaits _ _ =>
      obtain rfl := Option.some.inj ht
      exact hwaits.symm.trans hclaim
    | rejects _ _ _ _ =>
      obtain rfl := Option.some.inj ht
      cases hclaim
    | withholds _ _ _ _ =>
      obtain rfl := Option.some.inj ht
      cases hclaim
    | issues _ _ _ _ _ _ _ => cases ht
  | none =>
    obtain ⟨x, hx⟩ : ∃ x, t.rejecting = some x := by
      cases t <;> first | exact ⟨_, rfl⟩ | cases hold
    have hrole : t.role = .working t'.committed :=
      ((givesBack_resume hx).task t' ht).2.symm.trans (plays_of_claim hclaim).2.symm
    unfold ConfirmTask.role at hrole
    rw [hx] at hrole
    dsimp only at hrole
    split at hrole <;> cases hrole

end Stretch

/-! ## Runs of the handlers with the feed -/

/-- A check that let its confirm go on. -/
structure PassedCheck where
  claim : Claim
  /-- The market's entry at the check. -/
  entry : Option MarketMid
  /-- The net it was made at. -/
  net : ℚ

/-- An event with what the mid prices are when it comes. -/
structure FeedEvent (D E : Type) where
  event : QuoteEvent D ℚ E
  mids : String → Option MarketMid

/-- The handlers, with the checks that passed and the quotes among them whose flow was released,
settled or expired since. -/
structure CheckedQuotes (D E : Type) where
  quotes : Quotes D ℚ E
  passed : List PassedCheck
  ended : List String

namespace CheckedQuotes

variable {D E : Type} (rules : ImpactRules)

/-- The check that passes in an event. -/
def passes (w : Quotes D ℚ E) (e : FeedEvent D E) : Option PassedCheck :=
  match e.event with
  | .resume id a _ _ =>
    match w.tasks.lookup id with
    | some (.confirm (.mids c)) =>
      if rules.config.rechecks c.quote && goesOn (w.state.resumeMids rules.config c a) then
        some ⟨c, e.mids c.quote.marketId, netNow rules.config w.state c a.nowMs⟩
      else none
    | _ => none
  | _ => none

def apply (w : CheckedQuotes D E) (e : FeedEvent D E) : CheckedQuotes D E where
  quotes := w.quotes.apply rules.config e.event
  passed := (passes rules w.quotes e).toList ++ w.passed
  ended := (w.passed.map (·.claim.req.quoteId)).filter
    (fun q => w.quotes.endsFlow rules.config q e.event) ++ w.ended

/-- What a confirm reads at its check is what the feed has then. -/
def Reads (w : Quotes D ℚ E) (e : FeedEvent D E) : Prop :=
  match e.event with
  | .resume id a _ _ =>
    match w.tasks.lookup id with
    | some (.confirm (.mids c)) =>
      a.midOk = midOk (e.mids c.quote.marketId) ∧ a.depth = hasDepth (e.mids c.quote.marketId) ∧
        ∀ terms, rules.recheck c.quote (e.mids c.quote.marketId) = some terms →
          a.accept = terms.accepts
    | _ => True
  | _ => True

def Allowed (w : CheckedQuotes D E) (e : FeedEvent D E) : Prop :=
  w.quotes.Allowed e.event ∧ Reads rules w.quotes e

/-- A check whose quote counts a flow. -/
def Countable (check : PassedCheck) : Prop :=
  check.claim.quote.baseAmount ≠ 0 ∧ baseToken check.claim.quote.marketId ≠ ""

/-- Every confirm past its check passed it, the checks were fair, and their flows stand. -/
structure Sound (w : CheckedQuotes D E) : Prop where
  sound : ∀ q, w.quotes.Sound q
  tracked : w.quotes.state.netPositions.isSome = true
  /-- A flow of a claimed quote is the claim's own. -/
  owned : ∀ i t c p, w.quotes.tasks.lookup i = some (.confirm t) → t.claim = some c →
    w.quotes.state.flow c.req.quoteId = some p → Owns rules.config c p
  checked : ∀ i t c, w.quotes.tasks.lookup i = some (.confirm t) → t.claim = some c →
    t ≠ .mids c → rules.config.rechecks c.quote = true → ∃ check ∈ w.passed, check.claim = c
  fair : ∀ check ∈ w.passed, ∀ terms,
    rules.recheck check.claim.quote check.entry = some terms → terms.accepts check.net = true
  counted : ∀ check ∈ w.passed, Countable check → check.claim.req.quoteId ∈ w.ended ∨
    ∃ p, w.quotes.state.flow check.claim.req.quoteId = some p ∧ Owns rules.config check.claim p

section Steps

variable {rules} {w : CheckedQuotes D E} {e : FeedEvent D E}

/-! ### Claims -/

theorem entry_of_claims {s : RfqV2State D ℚ E} {req : RfqConfirmRequest} {startMicros : Int}
    {now : Instant} {c : Claim} (h : s.claims req startMicros now = some c) :
    c.req = req ∧ ∃ validUntil, now < validUntil ∧
      s.pending.lookup req.quoteId = some (.indicative c.quote validUntil) := by
  unfold claims at h
  split at h
  · rename_i quote validUntil hentry
    split at h
    · rename_i hlive
      obtain rfl := Option.some.inj h
      exact ⟨rfl, validUntil, hlive.1, hentry⟩
    · cases h
  · cases h

/-- A confirm at work is one that was at work on the same claim, or has just made it. -/
theorem claim_origin {v : Quotes D ℚ E} {event : QuoteEvent D ℚ E} {i : Nat} {t : ConfirmTask D}
    {c : Claim} (ht : (v.apply rules.config event).tasks.lookup i = some (.confirm t))
    (hclaim : t.claim = some c) :
    (∃ t₀, v.tasks.lookup i = some (.confirm t₀) ∧ t₀.claim = some c ∧
        (t₀ = t ∨ ∃ a order b, event = .resume i a order b ∧
          (v.state.resumeConfirm rules.config a t₀).2.task = some t)) ∨
      (∃ req startMicros a, event = .confirm i req startMicros a ∧
        v.state.claims req startMicros a.now = some c ∧ t = .mids c) := by
  -- a step of another task, or one that waits in no confirm
  have other : ∀ {T R : Type} {kind : T → Task D} {r : Stretch D ℚ E T R} {u : Quotes D ℚ E} {j : Nat},
      u.tasks = v.tasks → (u.after j kind r).tasks.lookup i = some (.confirm t) →
      (∀ task, kind task ≠ .confirm t) → v.tasks.lookup i = some (.confirm t) := by
    intro T R kind r u j hu hafter hkind
    by_cases hj : i = j
    · subst hj
      rw [lookup_after, Option.map_eq_some_iff] at hafter
      obtain ⟨task, -, htask⟩ := hafter
      exact absurd htask (hkind task)
    · rwa [lookup_after_ne hj, hu] at hafter
  have same : v.tasks.lookup i = some (.confirm t) →
      ∃ t₀, v.tasks.lookup i = some (.confirm t₀) ∧ t₀.claim = some c ∧
        (t₀ = t ∨ ∃ a order b, event = .resume i a order b ∧
          (v.state.resumeConfirm rules.config a t₀).2.task = some t) :=
    fun h => ⟨t, h, hclaim, .inl rfl⟩
  cases event with
  | register id call => exact .inl (same (other rfl ht (by rintro task ⟨⟩)))
  | settle id quoteId now => exact .inl (same (other rfl ht (by rintro task ⟨⟩)))
  | sweep id now visit order b => exact .inl (same (other rfl ht (by rintro task ⟨⟩)))
  | confirm id req startMicros a =>
    by_cases hid : i = id
    · subst hid
      unfold Quotes.apply at ht
      rw [lookup_after, Option.map_eq_some_iff] at ht
      obtain ⟨t', ht', htask⟩ := ht
      cases htask
      obtain ⟨rfl, hclaims⟩ := mids_of_handleConfirm rules.feed ht' hclaim
      exact .inr ⟨req, startMicros, a, rfl, hclaims, rfl⟩
    · unfold Quotes.apply at ht
      rw [lookup_after_ne hid] at ht
      exact .inl (same ht)
  | resume id a order b =>
    unfold Quotes.apply at ht
    dsimp only at ht
    cases hold : v.tasks.lookup id with
    | none =>
      rw [hold] at ht
      exact .inl (same ht)
    | some task =>
      rw [hold] at ht
      cases task with
      | register task => exact .inl (same (other rfl ht (by rintro task ⟨⟩)))
      | settle task => exact .inl (same (other rfl ht (by rintro task ⟨⟩)))
      | sweep task => exact .inl (same (other rfl ht (by rintro task ⟨⟩)))
      | confirm task =>
        by_cases hid : i = id
        · subst hid
          dsimp only at ht
          rw [lookup_after, Option.map_eq_some_iff] at ht
          obtain ⟨t', ht', htask⟩ := ht
          cases htask
          exact .inl ⟨task, hold, claim_of_resumeConfirm ht' hclaim,
            .inr ⟨a, order, b, rfl, ht'⟩⟩
        · dsimp only at ht
          rw [lookup_after_ne hid] at ht
          exact .inl (same ht)
  | consumed cid reason now => exact .inl (same ht)
  | balances updates => exact .inl (same ht)
  | holdings created => exact .inl (same ht)
  | refresh holdings snapshotStart => exact .inl (same ht)
  | cleanup now => exact .inl (same ht)
  | reconcile onLedger => exact .inl (same ht)
  | reserve cids kind now => exact .inl (same ht)
  | release cids => exact .inl (same ht)

/-- A live indicative quote has no flow. -/
theorem no_flow_of_indicative {v : Quotes D ℚ E} {q : String} {quote : LiveQuote}
    {validUntil : Instant} (h : v.Sound q) (hentry : v.entry q = some (.indicative quote validUntil))
    (hlive : v.clock < validUntil) : v.state.flow q = none := by
  by_contra hflow
  obtain ⟨p, hp⟩ := Option.ne_none_iff_exists'.mp hflow
  obtain ⟨t, ht, hlookup⟩ := Option.bind_eq_some_iff.mp hp
  have hnet : v.state.Has q .net := ⟨t, ht, Pool.mem_iff_lookup.mpr ⟨p, hlookup⟩⟩
  rcases h.answered .net hnet with (⟨c, hc, -⟩ | ⟨-, hlasting⟩) | ⟨j, u, hu, hanswers⟩
  · rw [show v.state.pending.lookup q = v.entry q from rfl, hentry] at hc
    cases hc
  · exact hlasting
  · have hidle := h.no_task_of_indicative hentry hlive j u
    cases u with
    | register task => exact hanswers
    | confirm task => exact hidle _ hu ⟨hanswers.1, rfl⟩
    | settle task => exact hidle _ hu ⟨hanswers.1, rfl⟩
    | sweep task =>
      rcases hanswers with ⟨x, hx, hquote, -⟩ | hpast
      · exact hidle .ending hu ⟨⟨x, hx, hquote⟩, rfl⟩
      · exact hpast

/-- Two confirms do not work on one quote. -/
theorem claim_unique {v : Quotes D ℚ E} {i j : Nat} {t u : ConfirmTask D} {c c' : Claim}
    (h : v.Sound c.req.quoteId) (ht : v.tasks.lookup i = some (.confirm t))
    (hu : v.tasks.lookup j = some (.confirm u)) (hclaim : t.claim = some c)
    (hclaim' : u.claim = some c') (hquote : c'.req.quoteId = c.req.quoteId) : c' = c := by
  by_cases hij : i = j
  · subst hij
    cases Option.some.inj (ht.symm.trans hu)
    exact Option.some.inj (hclaim'.symm.trans hclaim)
  · have hplays := hquote ▸ plays_of_claim hclaim'
    exact absurd ⟨rfl, rfl⟩ (h.unique i j _ _ _ _ hij ht hu (plays_of_claim hclaim) hplays).2

/-- The claim that an event works for is the one of the task that is at work on the quote. -/
theorem claimOf_unique {v : Quotes D ℚ E} {event : QuoteEvent D ℚ E} {i : Nat} {t : ConfirmTask D}
    {c c' : Claim} (h : v.Sound c.req.quoteId) (hallowed : v.Allowed event)
    (ht : (v.apply rules.config event).tasks.lookup i = some (.confirm t)) (hclaim : t.claim = some c)
    (hworks : v.claimOf event = some c') (hquote : c'.req.quoteId = c.req.quoteId) : c' = c := by
  cases event with
  | confirm id req startMicros a =>
    have hclaims : v.state.claims req startMicros a.now = some c' := hworks
    rcases claim_origin ht hclaim with ⟨t₀, ht₀, hclaim₀, -⟩ | ⟨req', start', a', heq, hclaims', -⟩
    · obtain ⟨hreq, validUntil, hlive, hentry⟩ := entry_of_claims hclaims
      rw [← hreq, hquote] at hentry
      have hidle := h.no_task_of_indicative hentry (lt_of_le_of_lt hallowed.2 hlive)
      exact absurd (plays_of_claim hclaim₀) (hidle i _ _ ht₀)
    · cases heq
      exact Option.some.inj (hclaims.symm.trans hclaims')
  | resume id a order b =>
    have hold : ∃ u, v.tasks.lookup id = some (.confirm u) ∧ u.claim = some c' := by
      unfold claimOf at hworks
      dsimp only at hworks
      split at hworks
      · rename_i u hu
        exact ⟨u, hu, hworks⟩
      · cases hworks
    obtain ⟨u, hu, hclaim'⟩ := hold
    rcases claim_origin ht hclaim with ⟨t₀, ht₀, hclaim₀, -⟩ | ⟨req', start', a', heq, -⟩
    · exact claim_unique h ht₀ hu hclaim₀ hclaim' hquote
    · cases heq
  | register id call => cases hworks
  | settle id quoteId now => cases hworks
  | sweep id now visit order b => cases hworks
  | consumed cid reason now => cases hworks
  | balances updates => cases hworks
  | holdings created => cases hworks
  | refresh holdings snapshotStart => cases hworks
  | cleanup now => cases hworks
  | reconcile onLedger => cases hworks
  | reserve cids kind now => cases hworks
  | release cids => cases hworks

/-! ### Steps -/

/-- What a check that passes says. -/
theorem of_passes {v : Quotes D ℚ E} {check : PassedCheck} (h : passes rules v e = some check) :
    ∃ id a order b, e.event = .resume id a order b ∧
      v.tasks.lookup id = some (.confirm (.mids check.claim)) ∧
      rules.config.rechecks check.claim.quote = true ∧
      goesOn (v.state.resumeMids rules.config check.claim a) = true ∧
      check.entry = e.mids check.claim.quote.marketId ∧
      check.net = netNow rules.config v.state check.claim a.nowMs := by
  unfold passes at h
  split at h
  · rename_i id a order b hevent
    split at h
    · rename_i c htask
      split at h
      · rename_i hpassed
        obtain ⟨hrechecks, hgoes⟩ := Bool.and_eq_true_iff.mp hpassed
        obtain rfl := Option.some.inj h
        exact ⟨id, a, order, b, hevent, htask, hrechecks, hgoes, rfl, rfl⟩
      · cases h
    · cases h
  · cases h

/-- A check that passes found the held price fair. -/
theorem fair_of_passes {check : PassedCheck} (hallowed : w.Allowed rules e)
    (hpasses : passes rules w.quotes e = some check) {terms : PriceRecheck}
    (hterms : rules.recheck check.claim.quote check.entry = some terms) :
    terms.accepts check.net = true := by
  obtain ⟨event, mids⟩ := e
  obtain ⟨id, a, order, b, hevent, htask, hrechecks, hgoes, hentry, hnet⟩ := of_passes hpasses
  dsimp only at hevent hentry
  subst hevent
  obtain ⟨accept, haccepted, -, hdepth⟩ := of_goesOn hrechecks hgoes
  have hreads := hallowed.2
  unfold Reads at hreads
  dsimp only at hreads
  rw [htask] at hreads
  obtain ⟨-, hreadsDepth, hreadsAccept⟩ := hreads
  rw [hentry] at hterms
  have haccept : accept = terms.accepts :=
    (hdepth (hreadsDepth.trans (hasDepth_of_recheck hterms))).trans (hreadsAccept terms hterms)
  rw [haccept, count_fst, ← hnet] at haccepted
  exact haccepted

theorem signedDelta_ne_zero {quote : LiveQuote} (hbase : quote.baseAmount ≠ 0) :
    signedDelta rules.config quote ≠ 0 := by
  unfold signedDelta
  rw [rules.toF64_eq]
  refine mul_ne_zero hbase ?_
  cases quote.side <;> decide

/-- The check counts its claim's flow. -/
theorem counts_of_passes {check : PassedCheck} (h : w.Sound rules)
    (hpasses : passes rules w.quotes e = some check) (hcountable : Countable check) :
    ∃ p, (w.quotes.apply rules.config e.event).state.flow check.claim.req.quoteId = some p ∧
      Owns rules.config check.claim p := by
  obtain ⟨event, mids⟩ := e
  obtain ⟨id, a, order, b, hevent, htask, hrechecks, hgoes, -, -⟩ := of_passes hpasses
  dsimp only at hevent
  subst hevent
  obtain ⟨accept, haccepted, hstate, -⟩ := of_goesOn hrechecks hgoes
  obtain ⟨p, hflow, hown⟩ :=
    flow_count haccepted h.tracked (signedDelta_ne_zero hcountable.1) hcountable.2
  refine ⟨p, ?_, hown.elim (h.owned id _ _ p htask rfl) fun hown => hown⟩
  have happly : (w.quotes.apply rules.config (.resume id a order b)).state
      = (w.quotes.state.resumeMids rules.config check.claim a).1 := by
    unfold Quotes.apply
    dsimp only
    rw [htask]
    rfl
  rw [happly, flow_congr hstate]
  exact hflow

theorem owned_apply (h : w.Sound rules) (hallowed : w.Allowed rules e) {i : Nat} {t : ConfirmTask D}
    {c : Claim} {p : NetPosition.PendingNet ℚ}
    (ht : (w.quotes.apply rules.config e.event).tasks.lookup i = some (.confirm t))
    (hclaim : t.claim = some c)
    (hp : (w.quotes.apply rules.config e.event).state.flow c.req.quoteId = some p) :
    Owns rules.config c p := by
  rcases (flows_apply hallowed.1).flow c.req.quoteId with
    hsame | ⟨-, hnone⟩ | ⟨-, p', ⟨c', hworks, hquote, hown⟩, hcounted⟩
  · rw [hsame] at hp
    rcases claim_origin ht hclaim with ⟨t₀, ht₀, hclaim₀, -⟩ | ⟨req, startMicros, a, heq, hclaims, -⟩
    · exact h.owned i t₀ c p ht₀ hclaim₀ hp
    · obtain ⟨rfl, validUntil, hlive, hentry⟩ := entry_of_claims hclaims
      have hclock := hallowed.1
      rw [heq] at hclock
      rw [no_flow_of_indicative (h.sound _) hentry (lt_of_le_of_lt hclock.2 hlive)] at hp
      cases hp
  · rw [hnone] at hp
    cases hp
  · obtain rfl := claimOf_unique (h.sound _) hallowed.1 ht hclaim hworks hquote.symm
    obtain rfl := Option.some.inj (hcounted.symm.trans hp)
    exact hown

theorem checked_apply (h : w.Sound rules) {i : Nat} {t : ConfirmTask D} {c : Claim}
    (ht : (w.quotes.apply rules.config e.event).tasks.lookup i = some (.confirm t))
    (hclaim : t.claim = some c) (hpast : t ≠ .mids c) (hrechecks : rules.config.rechecks c.quote = true) :
    ∃ check ∈ (w.apply rules e).passed, check.claim = c := by
  rcases claim_origin ht hclaim with ⟨t₀, ht₀, hclaim₀, hstep⟩ | ⟨-, -, -, -, -, hmids⟩
  · by_cases hmids : t₀ = .mids c
    · subst hmids
      rcases hstep with rfl | ⟨a, order, b, hevent, htask⟩
      · exact absurd rfl hpast
      · have hgoes : goesOn (w.quotes.state.resumeMids rules.config c a) = true := by
          unfold goesOn
          change ((w.quotes.state.resumeConfirm rules.config a (.mids c)).2.task.bind
            ConfirmTask.claim).isSome = true
          rw [htask, Option.bind_some, hclaim]
          rfl
        refine ⟨⟨c, e.mids c.quote.marketId, netNow rules.config w.quotes.state c a.nowMs⟩, ?_, rfl⟩
        refine List.mem_append_left _ (Option.mem_toList.mpr ?_)
        unfold passes
        rw [hevent]
        dsimp only
        rw [ht₀]
        dsimp only
        rw [hrechecks, hgoes]
        rfl
    · obtain ⟨check, hmem, heq⟩ := h.checked i t₀ c ht₀ hclaim₀ hmids hrechecks
      exact ⟨check, List.mem_append_right _ hmem, heq⟩
  · exact absurd hmids hpast

/-- A flow that was counted stands, unless the event ends it. -/
theorem counted_apply (h : w.Sound rules) (hallowed : w.Allowed rules e) {check : PassedCheck}
    (hmem : check ∈ w.passed) (hcountable : Countable check) :
    check.claim.req.quoteId ∈ (w.apply rules e).ended ∨
      ∃ p, (w.apply rules e).quotes.state.flow check.claim.req.quoteId = some p ∧
        Owns rules.config check.claim p := by
  rcases h.counted check hmem hcountable with hended | ⟨p, hp, hown⟩
  · exact .inl (List.mem_append_right _ hended)
  · rcases (flows_apply hallowed.1).flow check.claim.req.quoteId with
      hsame | ⟨hends, -⟩ | ⟨hnone, -⟩
    · exact .inr ⟨p, hsame.trans hp, hown⟩
    · refine .inl (List.mem_append_left _ (List.mem_filter.mpr ⟨?_, hends⟩))
      exact List.mem_map.mpr ⟨check, hmem, rfl⟩
    · rw [hnone] at hp
      cases hp

theorem sound_apply (h : w.Sound rules) (hallowed : w.Allowed rules e) :
    (w.apply rules e).Sound rules where
  sound q := Quotes.sound_apply (h.sound q) hallowed.1
  tracked := (flows_apply hallowed.1).tracked.trans h.tracked
  owned _ _ _ _ ht hclaim hp := owned_apply h hallowed ht hclaim hp
  checked _ _ _ ht hclaim hpast hrechecks := checked_apply h ht hclaim hpast hrechecks
  fair check hmem := by
    rcases List.mem_append.mp hmem with hnew | hold
    · exact fun _ hterms => fair_of_passes hallowed (Option.mem_toList.mp hnew) hterms
    · exact h.fair check hold
  counted check hmem hcountable := by
    rcases List.mem_append.mp hmem with hnew | hold
    · exact .inr (counts_of_passes h (Option.mem_toList.mp hnew) hcountable)
    · exact counted_apply h hallowed hold hcountable

end Steps

/-- Before the first quote, with the tracker attached. -/
structure Starts (w : CheckedQuotes D E) : Prop where
  quotes : w.quotes.Starts
  tracked : w.quotes.state.netPositions.isSome = true
  passed : w.passed = []

variable {rules} {w start : CheckedQuotes D E}

theorem Starts.sound (h : w.Starts) : w.Sound rules where
  sound _ := h.quotes.sound
  tracked := h.tracked
  owned i t c p ht := by
    rw [h.quotes.tasks] at ht
    cases ht
  checked i t c ht := by
    rw [h.quotes.tasks] at ht
    cases ht
  fair check hmem := by
    rw [h.passed] at hmem
    cases hmem
  counted check hmem := by
    rw [h.passed] at hmem
    cases hmem

theorem sound_of_run (hstart : start.Starts)
    (run : Reachable (Allowed rules) (apply rules) start w) : w.Sound rules :=
  run.invariant (fun w => w.Sound rules) hstart.sound fun _ _ h hallowed => sound_apply h hallowed

/-- An envelope comes from a confirm past its check. -/
theorem past_of_issued {s : RfqV2State D ℚ E} {t : ConfirmTask D} {c : Claim}
    {a : ConfirmAnswers D ℚ E} {envelope : E} (hclaim : t.claim = some c)
    (hissued : (s.resumeConfirm rules.config a t).2 = .done (.ok envelope)) : t ≠ .mids c := by
  rintro rfl
  have houtcome : Outcome s c false (s.resumeConfirm rules.config a (.mids c)) :=
    outcome_resume hclaim
  generalize s.resumeConfirm rules.config a (.mids c) = r at hissued houtcome
  cases houtcome with
  | waits _ _ _ => cases hissued
  | rejects _ _ _ _ => cases hissued
  | withholds _ _ _ _ => cases hissued
  | issues hcommitted _ _ _ _ _ _ => cases hcommitted

/-- **Concurrent confirms cannot beat the impact price.** -/
theorem confirms_keep_impact_price (hstart : start.Starts)
    (run : Reachable (Allowed rules) (apply rules) start w) :
    (∀ i t c a envelope, w.quotes.tasks.lookup i = some (.confirm t) → t.claim = some c →
      (w.quotes.state.resumeConfirm rules.config a t).2 = .done (.ok envelope) →
      rules.config.rechecks c.quote = true → ∃ check ∈ w.passed, check.claim = c) ∧
    (∀ check ∈ w.passed, ∀ terms, rules.recheck check.claim.quote check.entry = some terms →
      0 < terms.held → 0 < terms.fairNow check.net ∧ terms.NotBetter check.net) ∧
    (∀ check ∈ w.passed, Countable check → check.claim.req.quoteId ∈ w.ended ∨
      ∃ p, w.quotes.state.flow check.claim.req.quoteId = some p ∧
        Owns rules.config check.claim p) := by
  have h : w.Sound rules := sound_of_run hstart run
  refine ⟨?_, ?_, h.counted⟩
  · intro i t c a envelope ht hclaim hissued hrechecks
    exact h.checked i t c ht hclaim (past_of_issued hclaim hissued) hrechecks
  · intro check hmem terms hterms hheld
    exact (PriceRecheck.accepts_iff hheld).mp (h.fair check hmem terms hterms)

/-- The net at which a check passes is the sum of the party's flows at that reading, decayed: the
confirms that were counted before it are in it as long as their flows are pending. -/
theorem check_net_is_flows {start w : TimedQuotes D ℚ E} {r₀ : NetPosition.NetRun ℚ} {t₀ u : Int}
    (hr₀ : NetPosition.NetRun.Reached rules.config.net t₀ r₀)
    (hstart : start.quotes.state.netPositions = some r₀.inner) (hclock : r₀.clock ≤ start.readMs)
    (run : Reachable TimedQuotes.Allowed (TimedQuotes.apply rules.config) start w)
    {e : FeedEvent D E} (he : e.event.InTime w.readMs u) {check : PassedCheck}
    (hpasses : passes rules w.quotes e = some check) {party : String}
    (hparty : check.claim.quote.userParty = some party)
    (hlost : (party, baseToken check.claim.quote.marketId) ∉ r₀.lostNets) :
    ∃ now ≥ w.readMs, ∃ r : NetPosition.NetRun ℚ,
      (∀ q, r.nets.pending.lookup q = w.quotes.state.flow q) ∧
      |check.net - r.nets.flow rules.config.net NetPosition.PendingNet.netKey
          (party, baseToken check.claim.quote.marketId) now|
        ≤ NetPosition.epsilonBase * r.operations + r.nets.drift rules.config.net
          NetPosition.PendingNet.netKey (party, baseToken check.claim.quote.marketId) := by
  unfold passes at hpasses
  split at hpasses
  · rename_i id a order b hevent
    split at hpasses
    · rename_i c htask
      split at hpasses
      · obtain rfl := Option.some.inj hpasses
        rw [hevent] at he
        obtain ⟨r, hr, hpending, hflows⟩ :=
          TimedQuotes.net_is_flows hr₀ hstart hclock run he.1.now
        refine ⟨a.nowMs, he.1.now, r, hpending, ?_⟩
        unfold netNow
        rw [hr, hparty]
        exact hflows party _ hlost
      · cases hpasses
    · cases hpasses
  · cases hpasses

/-! ### A purchase with a price, and one without -/

deriving instance DecidableEq for QuoteWindow, PoolPricingSnapshot, LiveQuote, RfqConfirmRequest, Claim

def poolKnobs : PoolImpactConfig ℚ := ⟨some 50, some (9 / 10), some 1, some 0⟩

def poolEntry : MarketMid := ⟨.finite (1 / 10), some ⟨some 100⟩⟩

def poolRules : ImpactRules where
  config := { oneMarket with midPrices := true, poolImpact := fun _ => true }
  impact _ := some ⟨poolKnobs, 1 / 4⟩
  poolImpact_eq _ := rfl
  feed := rfl
  toF64_eq _ := rfl

/-- The inputs of a purchase that was priced at a net of ten. -/
def poolInputs (base : ℚ) : PoolPricingSnapshot :=
  ⟨100, 10, poolImpactPercent .userBuys (some base) (some 10) ⟨some 100⟩ poolKnobs, 0⟩

def poolRecheck (base quote : ℚ) : PriceRecheck :=
  ⟨.buy, base, quote, 0, 1 / 10, ⟨some 100⟩, ⟨poolKnobs, 1 / 4⟩⟩

def poolAnswers (base quote : ℚ) : ConfirmAnswers Nat ℚ String :=
  { answers with accept := (poolRecheck base quote).accepts }

/-- An event while the feed has the pool's entry. -/
def fed (w : CheckedQuotes Nat String) (event : QuoteEvent Nat ℚ String) : CheckedQuotes Nat String :=
  w.apply poolRules ⟨event, fun _ => some poolEntry⟩

/-- The task goes on. -/
def goOn (base quote : ℚ) (w : CheckedQuotes Nat String) (id : Nat) : CheckedQuotes Nat String :=
  w.fed (.resume id (poolAnswers base quote) (fun l => l) ⟨0, 0, fun _ => 0, 0⟩)

def poolOpening : CheckedQuotes Nat String := ⟨opening, [], []⟩

/-- The purchase is registered against 100 EUR, with one free ticket in the pool. -/
def poolRegistering (base quote : ℚ) : CheckedQuotes Nat String :=
  ((poolOpening.fed (.balances [("EUR", 100)])).fed
    (.reconcile [⟨"t1", "t1cid", some "tpl", some "blob", some "payload"⟩])).fed
      (.register 0 ⟨"q1", "EUR-USDC", .buy, ⟨base, quote, ("EUR", base), none, 60,
        some (poolInputs base)⟩, none, some "alice"⟩)

def poolQuoted (base quote : ℚ) : CheckedQuotes Nat String :=
  ((poolRegistering base quote).goOn base quote 0).goOn base quote 0

/-- Its confirm waits for the mids. -/
def poolConfirming (base quote : ℚ) : CheckedQuotes Nat String :=
  (poolQuoted base quote).fed (.confirm 1 ⟨"r1", "q1", "alice", none⟩ 0 (poolAnswers base quote))

def poolClaim (base quote : ℚ) : Claim :=
  ⟨⟨"r1", "q1", "alice", none⟩, ⟨"EUR-USDC", .buy, base, quote, ("EUR", base), "EUR", none, none,
    some "alice", some (poolInputs base)⟩, 0, 0⟩

def poolWindow : QuoteWindow := ⟨seconds 60, 30000000⟩

/-- It is past its check. -/
def poolChecked (base quote : ℚ) : CheckedQuotes Nat String where
  quotes := { (poolConfirming base quote).quotes with
    state := ((poolConfirming base quote).quotes.state.count poolRules.config (poolClaim base quote)
      (poolAnswers base quote) (poolRecheck base quote).accepts).2
    tasks := (poolConfirming base quote).quotes.tasks.insert 1
      (.confirm (.staleness (poolClaim base quote) poolWindow)) }
  passed := [⟨poolClaim base quote, some poolEntry, 0⟩]
  ended := []

/-- It has found its holdings. -/
def poolReserving (base quote : ℚ) : CheckedQuotes Nat String :=
  (((poolChecked base quote).goOn base quote 1).goOn base quote 1).goOn base quote 1

/-- A waiting check is one of the purchase. -/
def checksPurchase (base quote : ℚ) (w : Quotes Nat ℚ String) (id : Nat) : Bool :=
  match w.tasks.lookup id with
  | some (.confirm (.mids c)) =>
    decide (c.quote.side = .buy ∧ c.quote.baseAmount = base ∧ c.quote.quoteAmount = quote ∧
      c.quote.poolInputs.map PoolPricingSnapshot.effSpreadBase = some 0)
  | _ => true

theorem reads_goOn {base quote : ℚ} {w : Quotes Nat ℚ String} {id : Nat}
    (h : checksPurchase base quote w id = true) :
    Reads poolRules w ⟨.resume id (poolAnswers base quote) (fun l => l) ⟨0, 0, fun _ => 0, 0⟩,
      fun _ => some poolEntry⟩ := by
  unfold Reads
  unfold checksPurchase at h
  dsimp only
  split
  · rename_i c htask
    rw [htask] at h
    obtain ⟨hside, hbase, hquote, hspread⟩ := of_decide_eq_true h
    obtain ⟨inputs, hinputs, heff⟩ := Option.map_eq_some_iff.mp hspread
    refine ⟨(by decide +kernel : true = midOk (some poolEntry)), rfl, ?_⟩
    intro terms hterms
    unfold ImpactRules.recheck at hterms
    rw [hinputs] at hterms
    obtain rfl := Option.some.inj hterms
    rw [hside, hbase, hquote, heff]
    rfl
  · trivial

theorem reached_goOn {base quote : ℚ} {w : CheckedQuotes Nat String} {id : Nat}
    (hclock : w.quotes.clock = 0) (hchecks : checksPurchase base quote w.quotes id = true)
    (h : Reachable (Allowed poolRules) (apply poolRules) poolOpening w) :
    Reachable (Allowed poolRules) (apply poolRules) poolOpening (w.goOn base quote id) :=
  .step h ⟨⟨hclock.le, fun _ => .refl _⟩, reads_goOn hchecks⟩

theorem poolOpening_starts : poolOpening.Starts := ⟨opening_starts, rfl, rfl⟩

/-- The waiting check, where a run got to it. -/
def waitsWith (w : Quotes Nat ℚ String) (c : Claim) : Bool :=
  match w.tasks.lookup 1 with
  | some (.confirm (.mids c')) => decide (c' = c)
  | _ => false

theorem task_of_waitsWith {w : Quotes Nat ℚ String} {c : Claim} (h : waitsWith w c = true) :
    w.tasks.lookup 1 = some (.confirm (.mids c)) := by
  unfold waitsWith at h
  split at h
  · rename_i c' htask
    rw [htask, of_decide_eq_true h]
  · cases h

theorem poolWindow_eq : poolRules.config.quoteWindow 0 0 = some poolWindow := by
  unfold RfqV2Config.quoteWindow
  dsimp only
  rw [if_neg (by decide +kernel)]
  decide +kernel

/-- The check passes at a net of zero. -/
theorem goOn_confirming {base quote : ℚ}
    (hwaits : waitsWith (poolConfirming base quote).quotes (poolClaim base quote) = true)
    (hnet : netNow poolRules.config (poolConfirming base quote).quotes.state (poolClaim base quote) 0 = 0)
    (hinputs : 0 < (poolInputs base).impactPct) (haccept : (poolRecheck base quote).accepts 0 = true)
    (hpassed : (poolConfirming base quote).passed.length = 0)
    (hended : (poolConfirming base quote).ended = []) :
    (poolConfirming base quote).goOn base quote 1 = poolChecked base quote := by
  have htask := task_of_waitsWith hwaits
  have hrechecks : poolRules.config.rechecks (poolClaim base quote).quote = true :=
    decide_eq_true hinputs
  have hmids : (poolConfirming base quote).quotes.state.resumeMids poolRules.config
      (poolClaim base quote) (poolAnswers base quote)
      = (((poolConfirming base quote).quotes.state.count poolRules.config (poolClaim base quote)
          (poolAnswers base quote) (poolRecheck base quote).accepts).2,
        .await (.staleness (poolClaim base quote) poolWindow)) := by
    rw [resumeMids_accepted rfl hrechecks rfl rfl (hnet ▸ haccept)]
    unfold RfqV2State.checkWindow
    rw [show poolRules.config.quoteWindow (poolClaim base quote).now (poolClaim base quote).startMicros
      = some poolWindow from poolWindow_eq]
    rfl
  have hgoes : goesOn ((poolConfirming base quote).quotes.state.resumeMids poolRules.config
      (poolClaim base quote) (poolAnswers base quote)) = true := by
    rw [hmids]
    rfl
  have hlog : passes poolRules (poolConfirming base quote).quotes
      ⟨.resume 1 (poolAnswers base quote) (fun l => l) ⟨0, 0, fun _ => 0, 0⟩, fun _ => some poolEntry⟩
      = some ⟨poolClaim base quote, some poolEntry, 0⟩ := by
    unfold passes
    dsimp only
    rw [htask]
    dsimp only
    rw [hrechecks, hgoes]
    exact congrArg some (congrArg (PassedCheck.mk _ _) hnet)
  have hquotes : (poolConfirming base quote).quotes.apply poolRules.config
      (.resume 1 (poolAnswers base quote) (fun l => l) ⟨0, 0, fun _ => 0, 0⟩)
      = (poolChecked base quote).quotes := by
    unfold Quotes.apply
    dsimp only
    rw [htask]
    change Quotes.after _ 1 Task.confirm ((poolConfirming base quote).quotes.state.resumeMids
      poolRules.config (poolClaim base quote) (poolAnswers base quote)) = _
    rw [hmids]
    rfl
  unfold goOn fed apply
  rw [hlog, hquotes, List.length_eq_zero_iff.mp hpassed, hended]
  rfl

/-- No party has a net. -/
def untouched (s : RfqV2State Nat ℚ String) : Bool :=
  match s.netPositions with
  | some t => t.nets.entries.isEmpty
  | none => true

theorem netNow_untouched {s : RfqV2State Nat ℚ String} {c : Claim} {nowMs : Int}
    (h : untouched s = true) : netNow poolRules.config s c nowMs = 0 := by
  unfold netNow
  unfold untouched at h
  split
  · rename_i t party ht _
    rw [ht] at h
    have hnone : t.nets.lookup (party, baseToken c.quote.marketId) = none := by
      unfold AList.lookup
      rw [List.isEmpty_iff.mp h]
      rfl
    unfold NetPosition.Inner.net Aggregates.read
    rw [hnone]
  · rfl

/-- The confirm is about to hand its envelope out. -/
def seals (w : Quotes Nat ℚ String) (a : ConfirmAnswers Nat ℚ String) (c : Claim) : Bool :=
  match w.tasks.lookup 1 with
  | some (.confirm t) =>
    match (w.state.resumeConfirm poolRules.config a t).2 with
    | .done (.ok _) => decide (t.claim = some c)
    | _ => false
  | _ => false

theorem issues_of_seals {w : Quotes Nat ℚ String} {a : ConfirmAnswers Nat ℚ String} {c : Claim}
    (h : seals w a c = true) :
    ∃ t envelope, w.tasks.lookup 1 = some (.confirm t) ∧ t.claim = some c ∧
      (w.state.resumeConfirm poolRules.config a t).2 = .done (.ok envelope) := by
  unfold seals at h
  split at h
  · rename_i t htask
    split at h
    · rename_i envelope hresult
      exact ⟨t, envelope, htask, of_decide_eq_true h, hresult⟩
    · cases h
  · cases h

theorem mem_goOn {base quote : ℚ} {w : CheckedQuotes Nat String} {id : Nat} {check : PassedCheck}
    (h : check ∈ w.passed) : check ∈ (w.goOn base quote id).passed :=
  List.mem_append_right _ h

/-- The run of a purchase up to its envelope, a stretch at a time. -/
structure Confirms (base quote : ℚ) : Prop where
  inputs : 0 < (poolInputs base).impactPct
  accept : (poolRecheck base quote).accepts 0 = true
  untouched : untouched (poolConfirming base quote).quotes.state = true
  waits : waitsWith (poolConfirming base quote).quotes (poolClaim base quote) = true
  passed : (poolConfirming base quote).passed.length = 0
  ended : (poolConfirming base quote).ended = []
  fresh : ((poolQuoted base quote).quotes.tasks.lookup 1).isNone = true
  clocks : (poolQuoted base quote).quotes.clock = 0 ∧ (poolConfirming base quote).quotes.clock = 0 ∧
    ((poolChecked base quote).goOn base quote 1).quotes.clock = 0 ∧
    (((poolChecked base quote).goOn base quote 1).goOn base quote 1).quotes.clock = 0
  registers : checksPurchase base quote (poolRegistering base quote).quotes 0 = true ∧
    checksPurchase base quote ((poolRegistering base quote).goOn base quote 0).quotes 0 = true
  checks : checksPurchase base quote (poolConfirming base quote).quotes 1 = true ∧
    checksPurchase base quote ((poolChecked base quote).goOn base quote 1).quotes 1 = true ∧
    checksPurchase base quote (((poolChecked base quote).goOn base quote 1).goOn base quote 1).quotes 1
      = true
  seals : seals (poolReserving base quote).quotes (poolAnswers base quote) (poolClaim base quote) = true

namespace Confirms

variable {base quote : ℚ}

theorem goOn_confirming (h : Confirms base quote) :
    (poolConfirming base quote).goOn base quote 1 = poolChecked base quote :=
  CheckedQuotes.goOn_confirming h.waits (netNow_untouched h.untouched) h.inputs h.accept h.passed
    h.ended

theorem reached (h : Confirms base quote) :
    Reachable (Allowed poolRules) (apply poolRules) poolOpening (poolReserving base quote) := by
  have hquoted : Reachable (Allowed poolRules) (apply poolRules) poolOpening (poolQuoted base quote) := by
    refine reached_goOn rfl h.registers.2 (reached_goOn rfl h.registers.1
      (.step (.step (.step .start ⟨trivial, trivial⟩) ⟨trivial, trivial⟩) ⟨⟨?_, ?_⟩, trivial⟩))
    · exact AList.notMem_empty 0
    · exact List.not_mem_nil
  have hconfirming : Reachable (Allowed poolRules) (apply poolRules) poolOpening
      (poolConfirming base quote) :=
    .step hquoted ⟨⟨AList.lookup_eq_none.mp (Option.isNone_iff_eq_none.mp h.fresh), h.clocks.1.le⟩,
      trivial⟩
  have hchecked := reached_goOn h.clocks.2.1 h.checks.1 hconfirming
  rw [h.goOn_confirming] at hchecked
  exact reached_goOn h.clocks.2.2.2 h.checks.2.2 (reached_goOn h.clocks.2.2.1 h.checks.2.1
    (reached_goOn rfl rfl hchecked))

theorem passed_check : (⟨poolClaim base quote, some poolEntry, 0⟩ : PassedCheck) ∈
    (poolReserving base quote).passed :=
  mem_goOn (mem_goOn (mem_goOn (List.mem_singleton.mpr rfl)))

end Confirms

theorem confirms_purchase : Confirms 5 1 := by
  constructor <;> decide +kernel

theorem confirms_keep_impact_price_purchase :
    (∃ check ∈ (poolReserving 5 1).passed, check.claim = poolClaim 5 1) ∧
      (poolRecheck 5 1).NotBetter 0 := by
  obtain ⟨issued, fair, -⟩ :=
    confirms_keep_impact_price poolOpening_starts confirms_purchase.reached
  obtain ⟨t, envelope, htask, hclaim, hissued⟩ := issues_of_seals confirms_purchase.seals
  have hheld : 0 < (poolRecheck 5 1).held := by decide +kernel
  exact ⟨issued 1 t _ _ envelope htask hclaim hissued (decide_eq_true confirms_purchase.inputs),
    (fair _ Confirms.passed_check _ rfl hheld).2⟩

theorem confirms_dust : Confirms (1 / 10 ^ 10) 0 := by
  constructor <;> decide +kernel

section Dust

attribute [local instance] rationalCrates

/-- No spread of its own, and no smallest quantity. -/
def dustMarket : MarketConfig :=
  { abMarket with
    marketId := "EUR-USDC"
    rfq := abMarket.rfq.map fun cfg =>
      { cfg with
        minQuantity := "0"
        bidSpreadPercent := .finite 0
        offerSpreadPercent := .finite 0
        poolImpact := some (poolKnobs.sanitize true) } }

/-- The party has a net of ten. -/
def dustState : PricingState :=
  { abState with
    forecast := ⟨0, .finite 1, .finite (1 / 2)⟩
    midPrices := fun _ => some poolEntry
    netPositions := some fun _ _ => 10 }

def dustRequest : PriceRequest := ⟨"EUR-USDC", 1, "0.0000000001", "", false, none, none, some "alice"⟩

/-- A purchase whose quote amount is rendered as zero has no price to check: its confirm is issued an
envelope although the mid price has an adjustment. -/
theorem dust_beats_impact_price :
    (((priceRfq ℚ ⟨[dustMarket], [], 30, .finite 0⟩ dustState dustRequest).1.toOption.map fun quote =>
        (quote.quantity, quote.quoteQuantity, quote.poolPricing))
      = some (1 / 10 ^ 10, 0, some (poolInputs (1 / 10 ^ 10)))) ∧
    0 < (poolInputs (1 / 10 ^ 10)).impactPct ∧ poolOpening.Starts ∧
    Reachable (Allowed poolRules) (apply poolRules) poolOpening (poolReserving (1 / 10 ^ 10) 0) ∧
    (∃ t envelope,
      (poolReserving (1 / 10 ^ 10) 0).quotes.tasks.lookup 1 = some (.confirm t) ∧
        t.claim = some (poolClaim (1 / 10 ^ 10) 0) ∧
        ((poolReserving (1 / 10 ^ 10) 0).quotes.state.resumeConfirm poolRules.config
          (poolAnswers (1 / 10 ^ 10) 0) t).2 = .done (.ok envelope)) ∧
    (⟨poolClaim (1 / 10 ^ 10) 0, some poolEntry, 0⟩ : PassedCheck) ∈
      (poolReserving (1 / 10 ^ 10) 0).passed ∧
    poolRules.recheck (poolClaim (1 / 10 ^ 10) 0).quote (some poolEntry)
      = some (poolRecheck (1 / 10 ^ 10) 0) ∧
    ¬ (poolRecheck (1 / 10 ^ 10) 0).NotBetter 0 := by
  refine ⟨by decide +kernel, confirms_dust.inputs, poolOpening_starts, confirms_dust.reached,
    issues_of_seals confirms_dust.seals, Confirms.passed_check, rfl, ?_⟩
  unfold PriceRecheck.NotBetter poolRecheck
  dsimp only
  decide +kernel

end Dust

end CheckedQuotes

end BookAgent.CloudAgent
