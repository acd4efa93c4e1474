import BookAgent.CloudAgent.QuoteFlows

/-!
# The nets behind the quotes

In every run of quotes, confirms, settles and sweeps in which the readings of the wall
clock do not run back, the tracker has come to its state by operations of its own. So its
nets are the decayed sums of the flows that are pending, which are the flows of the
quotes, and of those that have settled.
-/

namespace BookAgent.AgentLogic.NetPosition.NetRun

open BookAgent.Lib

variable {K : Type} [Field K] [LinearOrder K]

/-- Operations without a restart, at readings that do not run back. -/
structure Goes (cfg : Config K) (r r' : NetRun K) : Prop where
  run : Reachable Allowed (apply cfg) r r'
  lostNets : r'.lostNets = r.lostNets
  lostDesk : r'.lostDesk = r.lostDesk

namespace Goes

variable {cfg : Config K} {r r' r'' : NetRun K}

theorem refl (r : NetRun K) : Goes cfg r r := ⟨.start, rfl, rfl⟩

theorem trans (h : Goes cfg r r') (hrest : Goes cfg r' r'') : Goes cfg r r'' :=
  ⟨h.run.trans hrest.run, hrest.lostNets.trans h.lostNets, hrest.lostDesk.trans h.lostDesk⟩

theorem checkAndRecord {quoteId : String} {party : Option String} {token : String} {delta : K}
    {accept : K → Bool} {now applied : Int} (hnow : now ≤ applied) (hclock : r.clock ≤ applied) :
    Goes cfg r (r.apply cfg (.checkAndRecord quoteId party token delta accept now applied)) :=
  ⟨.step .start ⟨hnow, hclock⟩, rfl, rfl⟩

theorem settle (quoteId : String) : Goes cfg r (r.apply cfg (.settle quoteId)) :=
  ⟨.step .start trivial, rfl, rfl⟩

theorem release {quoteId : String} {now : Int} (hclock : r.clock ≤ now) :
    Goes cfg r (r.apply cfg (.release quoteId now)) :=
  ⟨.step .start hclock, rfl, rfl⟩

theorem expireStalePending {cutoffNow : Int}
    {order : List (String × PendingNet K) → List (String × PendingNet K)} {clock : Nat → Int}
    (horder : ∀ l, (order l).Perm l) (hclock : r.clock ≤ clock 0) (hmono : Monotone clock) :
    Goes cfg r (r.apply cfg (.expireStalePending cutoffNow order clock)) :=
  ⟨.step .start ⟨horder, hclock, hmono⟩, rfl, rfl⟩

theorem sweepDecayed {now : Int} (hclock : r.clock ≤ now) :
    Goes cfg r (r.apply cfg (.sweepDecayed now)) :=
  ⟨.step .start hclock, rfl, rfl⟩

end Goes

end BookAgent.AgentLogic.NetPosition.NetRun

namespace BookAgent.CloudAgent

open BookAgent.Lib BookAgent.AgentLogic
open BookAgent.AgentLogic.NetPosition (NetRun)

variable {D K E : Type} [Field K] [LinearOrder K]

/-- The readings of a confirm, in their order, from `t` to `u`. -/
structure ConfirmAnswers.InTime (a : ConfirmAnswers D K E) (t u : Int) : Prop where
  now : t ≤ a.nowMs
  applied : a.nowMs ≤ a.appliedMs
  last : a.appliedMs ≤ u

namespace RfqV2State

variable {cfg : RfqV2Config K} {s s' s'' : RfqV2State D K E} {c : Claim} {a : ConfirmAnswers D K E}
  {q : String} {t u v : Int}

/-- From `s` to `s'` the tracker does operations of its own, at readings from `t` to `u`. -/
def Tracks (cfg : RfqV2Config K) (t u : Int) (s s' : RfqV2State D K E) : Prop :=
  ∀ r : NetRun K, s.netPositions = some r.inner → r.clock ≤ t →
    ∃ r', s'.netPositions = some r'.inner ∧ r'.clock ≤ u ∧ NetRun.Goes cfg.net r r'

namespace Tracks

theorem of_eq (h : s'.netPositions = s.netPositions) (htu : t ≤ u) : Tracks cfg t u s s' :=
  fun r hr hclock => ⟨r, h.trans hr, hclock.trans htu, .refl r⟩

theorem before (hrest : Tracks cfg t u s' s'') (h : s'.netPositions = s.netPositions) :
    Tracks cfg t u s s'' :=
  fun r hr hclock => hrest r (h.trans hr) hclock

theorem after (hfirst : Tracks cfg t u s s') (h : s''.netPositions = s'.netPositions) :
    Tracks cfg t u s s'' := fun r hr hclock => by
  obtain ⟨r', hr', hrest⟩ := hfirst r hr hclock
  exact ⟨r', h.trans hr', hrest⟩

theorem trans (hfirst : Tracks cfg t u s s') (hrest : Tracks cfg u v s' s'') :
    Tracks cfg t v s s'' := fun r hr hclock => by
  obtain ⟨r', hr', hclock', hgoes⟩ := hfirst r hr hclock
  obtain ⟨r'', hr'', hclock'', hgoes'⟩ := hrest r' hr' hclock'
  exact ⟨r'', hr'', hclock'', hgoes.trans hgoes'⟩

theorem mono (h : Tracks cfg t u s s') (huv : u ≤ v) : Tracks cfg t v s s' :=
  h.trans (.of_eq rfl huv)

theorem later (h : Tracks cfg u v s s') (htu : t ≤ u) : Tracks cfg t v s s' :=
  fun r hr hclock => h r hr (hclock.trans htu)

end Tracks

/-! ## The tracker's operations -/

theorem tracks_count {accept : K → Bool} (hnow : a.nowMs ≤ a.appliedMs) (ht : t ≤ a.appliedMs) :
    Tracks cfg t a.appliedMs s (s.count cfg c a accept).2 := fun r hr hclock => by
  refine ⟨r.apply cfg.net (.checkAndRecord c.req.quoteId c.quote.userParty
    (baseToken c.quote.marketId) (signedDelta cfg c.quote) accept a.nowMs a.appliedMs), ?_, le_rfl,
    .checkAndRecord hnow (hclock.trans ht)⟩
  unfold count countConfirm
  rw [hr]
  rfl

theorem tracks_releaseNet {now : Int} (ht : t ≤ now) :
    Tracks cfg t now s (s.releaseNet cfg q now) := fun r hr hclock => by
  refine ⟨r.apply cfg.net (.release q now), ?_, le_rfl, .release (hclock.trans ht)⟩
  unfold releaseNet
  dsimp only
  rw [hr]
  rfl

theorem tracks_settleNet :
    Tracks cfg t t s { s with netPositions := s.netPositions.map fun t => t.settle q } :=
  fun r hr hclock => by
  refine ⟨r.apply cfg.net (.settle q), ?_, hclock, .settle q⟩
  dsimp only
  rw [hr]
  rfl

/-- The readings of a sweep, in their order, from `t` to `u`. -/
structure SweepAnswers.InTime (b : SweepAnswers) (t u : Int) : Prop where
  now : t ≤ b.nowMs
  reversal : b.nowMs ≤ b.reversalMs 0
  reversals : Monotone b.reversalMs
  decay : ∀ n, b.reversalMs n ≤ b.decayMs
  last : b.decayMs ≤ u

theorem tracks_endSweep {now : Instant} {order : NetOrder K} {b : SweepAnswers}
    (horder : ∀ l, (order l).Perm l) (hb : b.InTime t u) :
    Tracks cfg b.nowMs u s (s.endSweep cfg now order b) := fun r hr hclock => by
  let expired := r.apply cfg.net (.expireStalePending b.cutoffMs order b.reversalMs)
  have hclock' : expired.clock ≤ b.decayMs := hb.decay _
  refine ⟨expired.apply cfg.net (.sweepDecayed b.decayMs), ?_, hb.last,
    (NetRun.Goes.expireStalePending horder (hclock.trans hb.reversal) hb.reversals).trans
      (.sweepDecayed hclock')⟩
  unfold endSweep
  dsimp only
  rw [hr]
  rfl

/-! ## Stretches -/

theorem NetEffect.tracks {claim : Option Claim} {released : Option String}
    (h : NetEffect cfg a claim released s s') (ha : a.InTime t u) :
    Tracks cfg t u s s' := by
  have hnow : t ≤ a.appliedMs := ha.now.trans ha.applied
  cases h with
  | same h => exact .of_eq h (hnow.trans ha.last)
  | counts c accept hclaim h => exact ((tracks_count ha.applied hnow).mono ha.last).after h
  | releases q hreleased h =>
    exact ((tracks_releaseNet ha.now).mono (ha.applied.trans ha.last)).after h

omit [Field K] [LinearOrder K] in
theorem SweepAnswers.InTime.le {b : SweepAnswers} (hb : b.InTime t u) : b.nowMs ≤ u :=
  hb.reversal.trans ((hb.decay 0).trans hb.last)

theorem tracks_swept {task : SweepTask} {b : SweepAnswers} (hb : b.InTime t u) :
    Tracks cfg t b.nowMs s (s.swept cfg b task) := by
  cases task with
  | funds now r rest =>
    exact (tracks_releaseNet hb.now : Tracks _ _ _ (s.releaseCommitment r.quoteId) _).before rfl
  | holdings now r rest => exact .of_eq rfl hb.now

theorem tracks_resumeSweep {task : SweepTask} {order : NetOrder K} {b : SweepAnswers}
    (horder : ∀ l, (order l).Perm l) (hb : b.InTime t u) :
    Tracks cfg t u s (s.resumeSweep cfg order b task).1 := by
  cases hdone : (s.resumeSweep cfg order b task).2.isDone with
  | false =>
    exact ((tracks_swept hb).mono hb.le).after (net_resumeSweep.trans (by rw [hdone]; rfl))
  | true =>
    exact ((tracks_swept hb).trans (tracks_endSweep horder hb)).after
      (net_resumeSweep.trans (by rw [hdone]; rfl))

theorem tracks_sweep {now : Instant} {visit : List Release → List Release} {order : NetOrder K}
    {b : SweepAnswers} (horder : ∀ l, (order l).Perm l) (hb : b.InTime t u) :
    Tracks cfg t u s (s.sweep cfg now visit order b).1 := by
  cases hdone : (s.sweep cfg now visit order b).2.isDone with
  | false => exact .of_eq (net_sweep.trans (by rw [hdone]; rfl)) (hb.now.trans hb.le)
  | true =>
    exact ((tracks_endSweep horder hb).later hb.now).after (net_sweep.trans (by rw [hdone]; rfl))

theorem tracks_resumeSettle {task : SettleTask} (htu : t ≤ u) :
    Tracks cfg t u s (s.resumeSettle task).1 := by
  cases task with
  | outflow quoteId ticketed => exact .of_eq net_spendTicket htu
  | release quoteId =>
    exact ((tracks_settleNet : Tracks cfg t t (s.releaseCommitment quoteId) _).mono htu).before rfl

end RfqV2State

/-! ## Runs -/

/-- The readings of an event, in their order, from `t` to `u`. -/
def QuoteEvent.InTime (t u : Int) : QuoteEvent D K E → Prop
  | .confirm _ _ _ a => a.InTime t u
  | .sweep _ _ _ _ b => b.InTime t u
  | .resume _ a _ b => a.InTime t u ∧ b.InTime t u
  | _ => t ≤ u

open RfqV2State in
theorem Quotes.tracks_apply {cfg : RfqV2Config K} {w : Quotes D K E} {e : QuoteEvent D K E}
    {t u : Int} (hallowed : w.Allowed e) (he : e.InTime t u) :
    Tracks cfg t u w.state (w.apply cfg e).state := by
  cases e with
  | register id call =>
    refine .of_eq ?_ he
    unfold apply after registerIndicative
    dsimp only
    split <;> rfl
  | confirm id req startMicros a => exact netEffect_handleConfirm.tracks he
  | settle id quoteId now => exact .of_eq net_handleSettleObserved he
  | sweep id now visit order b => exact tracks_sweep hallowed.2.2 he
  | resume id a order b =>
    have htu : t ≤ u := he.1.now.trans (he.1.applied.trans he.1.last)
    unfold apply
    dsimp only
    cases htask : w.tasks.lookup id with
    | none => exact .of_eq rfl htu
    | some task =>
      cases task with
      | register task =>
        refine .of_eq ?_ htu
        unfold after resumeRegister
        cases task with
        | available call lpPaysKey =>
          dsimp only
          split_ifs <;> rfl
        | select call lpPaysKey validUntil => rfl
      | confirm task => exact netEffect_resumeConfirm.tracks he.1
      | settle task => exact tracks_resumeSettle htu
      | sweep task => exact tracks_resumeSweep hallowed.2 he.2
  | consumed cid reason now => exact .of_eq rfl he
  | balances updates => exact .of_eq rfl he
  | holdings created => exact .of_eq rfl he
  | refresh holdings snapshotStart => exact .of_eq rfl he
  | cleanup now => exact .of_eq rfl he
  | reconcile onLedger => exact .of_eq rfl he
  | reserve cids kind now => exact .of_eq rfl he
  | release cids => exact .of_eq rfl he

/-- The quotes, and the last reading of the wall clock. -/
structure TimedQuotes (D K E : Type) where
  quotes : Quotes D K E
  readMs : Int

namespace TimedQuotes

variable {cfg : RfqV2Config K} {start w : TimedQuotes D K E}

/-- An event, and the last reading of the wall clock in it. -/
def apply (cfg : RfqV2Config K) (w : TimedQuotes D K E) (e : QuoteEvent D K E × Int) :
    TimedQuotes D K E :=
  ⟨w.quotes.apply cfg e.1, e.2⟩

omit [Field K] [LinearOrder K] in
def Allowed (w : TimedQuotes D K E) (e : QuoteEvent D K E × Int) : Prop :=
  w.quotes.Allowed e.1 ∧ e.1.InTime w.readMs e.2

/-- The tracker was reached by operations of its own. -/
theorem exists_tracker {r₀ : NetRun K} (hstart : start.quotes.state.netPositions = some r₀.inner)
    (hclock : r₀.clock ≤ start.readMs) (run : Reachable Allowed (apply cfg) start w) :
    ∃ r, w.quotes.state.netPositions = some r.inner ∧ r.clock ≤ w.readMs ∧
      NetRun.Goes cfg.net r₀ r := by
  refine run.invariant (fun w : TimedQuotes D K E => ∃ r,
    w.quotes.state.netPositions = some r.inner ∧ r.clock ≤ w.readMs ∧ NetRun.Goes cfg.net r₀ r)
    ⟨r₀, hstart, hclock, .refl r₀⟩ fun w e h hallowed => ?_
  obtain ⟨r, hr, hread, hgoes⟩ := h
  obtain ⟨r', hr', hread', hgoes'⟩ := Quotes.tracks_apply hallowed.1 hallowed.2 r hr hread
  exact ⟨r', hr', hread', hgoes.trans hgoes'⟩

/-- **The net of a party is the sum of its flows**, decayed: of those the quotes have pending
and of those that have settled. -/
theorem net_is_flows [IsStrictOrderedRing K] {t₀ now : Int} {r₀ : NetRun K}
    (hr₀ : NetRun.Reached cfg.net t₀ r₀) (hstart : start.quotes.state.netPositions = some r₀.inner)
    (hclock : r₀.clock ≤ start.readMs) (run : Reachable Allowed (apply cfg) start w)
    (hnow : w.readMs ≤ now) :
    ∃ r : NetRun K, w.quotes.state.netPositions = some r.inner ∧
      (∀ q, r.nets.pending.lookup q = w.quotes.state.flow q) ∧
      ∀ party token, (party, token) ∉ r₀.lostNets →
        |r.inner.net cfg.net party token now
            - r.nets.flow cfg.net NetPosition.PendingNet.netKey (party, token) now|
          ≤ NetPosition.epsilonBase * r.operations
            + r.nets.drift cfg.net NetPosition.PendingNet.netKey (party, token) := by
  obtain ⟨r, hr, hread, hgoes⟩ := exists_tracker hstart hclock run
  refine ⟨r, hr, fun q => ?_, fun party token hlost => ?_⟩
  · unfold RfqV2State.flow
    rw [hr]
    rfl
  · exact (NetRun.nets_are_decayed_sums (hr₀.trans hgoes.run) (hread.trans hnow)).1 party token
      (hgoes.lostNets ▸ hlost)

end TimedQuotes

end BookAgent.CloudAgent
