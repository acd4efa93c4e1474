import BookAgent.AgentLogic.SettlementTask
import BookAgent.AgentLogic.TokenFlows

/-!
# Reserving a settlement

`ensure_reserved` (`settlement.rs`) as a whole: the commitment in the liquidity manager first,
then the capacity of the order, last the outflow. What it leaves when the second of them fails is
the one case where a call is neither done nor undone.
-/

namespace BookAgent.AgentLogic

open BookAgent.Lib

/-- What a reservation writes. -/
structure ReservationStores (D : Type) where
  liquidityManager : Option FlowManager
  tracker : OrderTracker D

inductive ReservationError (D : Type)
  | commit (error : CommitError)
  | reserve (error : ReserveError D)

variable {D : Type} [ValuedAmount D]

def ReservationError.text (fixed4 : ℚ → String) : ReservationError D → String
  | .commit error => error.text fixed4
  | .reserve error => error.text

namespace ReservationStores

/-- The manager's half; nothing to do where a commitment exists already. -/
def commitIfAbsent (s : ReservationStores D) (pid token : String) (amount feeCc : ℚ) :
    Except CommitError (ReservationStores D) :=
  match s.liquidityManager with
  | none => .ok s
  | some lm =>
    if lm.manager.hasCommitment pid then .ok s
    else
      match lm.manager.tryCommit pid token amount feeCc with
      | .error e => .error e
      | .ok manager => .ok { s with liquidityManager := some { lm with manager } }

/-- Nothing is recorded where there is no manager. -/
def recordOutflow (s : ReservationStores D) (token : String) (amount : ℚ) (now : Instant) :
    ReservationStores D :=
  { s with liquidityManager := s.liquidityManager.map fun lm => lm.recordOutflow token amount now }

/-- `ensure_reserved` on the token and amount of `reservation_inputs`. -/
def ensureReserved (s : ReservationStores D) (pid token : String) (amount feeCc : ℚ) (now : Instant) :
    Except (ReservationError D) Unit × ReservationStores D :=
  match s.commitIfAbsent pid token amount feeCc with
  | .error e => (.error (.commit e), s)
  | .ok s =>
    match s.tracker.tryReservePending pid with
    | (.error e, tracker) => (.error (.reserve e), { s with tracker })
    | (.ok false, tracker) => (.ok (), { s with tracker })
    | (.ok true, tracker) => (.ok (), { s with tracker }.recordOutflow token amount now)

/-- The tracker has reserved the proposal's quantity. -/
def isReserved (s : ReservationStores D) (pid : String) : Bool :=
  ((s.tracker.settlementOrders.lookup pid).map SettlementOrderEntry.reserved).getD false

/-- The tracker has a record of the proposal, reserved or within the capacity of its order. -/
def canReserve (s : ReservationStores D) (pid : String) : Prop :=
  ∃ entry, s.tracker.settlementOrders.lookup pid = some entry ∧
    (entry.reserved = true ∨ s.tracker.checkReservation entry = .ok ())

/-- A call does all of its work or none, and a second one does nothing. -/
def AllOrNothing (s : ReservationStores D) (lm : FlowManager) (pid token : String)
    (amount feeCc : ℚ) (now : Instant) : Prop :=
  match s.ensureReserved pid token amount feeCc now with
  | (.error _, after) => after = s
  | (.ok (), after) =>
    after.isReserved pid = true ∧
    ∃ lm', after.liquidityManager = some lm' ∧ lm'.manager.hasCommitment pid = true ∧
      lm'.flows =
        (if s.isReserved pid then lm else lm.recordOutflow token amount now).flows ∧
      ∀ feeCc' now', after.ensureReserved pid token amount feeCc' now' = (.ok (), after)

/-! ## The tracker's half -/

section Tracker

variable {t t' : OrderTracker D} {pid : String}

theorem tryReservePending_error {e : ReserveError D} (h : t.tryReservePending pid = (.error e, t')) :
    t' = t ∧ ¬ ∃ entry, t.settlementOrders.lookup pid = some entry ∧
      (entry.reserved = true ∨ t.checkReservation entry = .ok ()) := by
  unfold OrderTracker.tryReservePending at h
  cases hentry : t.settlementOrders.lookup pid with
  | none =>
    rw [hentry] at h
    obtain ⟨-, rfl⟩ := Prod.mk.inj h
    exact ⟨rfl, by simp⟩
  | some entry =>
    rw [hentry] at h
    dsimp only at h
    split at h
    · cases h
    · rename_i hunreserved
      split at h
      · rename_i hrefused
        obtain ⟨-, rfl⟩ := Prod.mk.inj h
        refine ⟨rfl, ?_⟩
        rintro ⟨other, hother, hreserved | hok⟩
        · obtain rfl := Option.some.inj hother
          exact hunreserved hreserved
        · obtain rfl := Option.some.inj hother
          rw [hok] at hrefused
          cases hrefused
      · cases h

theorem tryReservePending_done (h : t.tryReservePending pid = (.ok false, t')) :
    t' = t ∧ ∃ entry, t.settlementOrders.lookup pid = some entry ∧ entry.reserved = true := by
  unfold OrderTracker.tryReservePending at h
  cases hentry : t.settlementOrders.lookup pid with
  | none =>
    rw [hentry] at h
    cases h
  | some entry =>
    rw [hentry] at h
    dsimp only at h
    split at h
    · rename_i hreserved
      obtain ⟨-, rfl⟩ := Prod.mk.inj h
      exact ⟨rfl, entry, rfl, hreserved⟩
    · split at h <;> cases h

theorem tryReservePending_new (h : t.tryReservePending pid = (.ok true, t')) :
    (∃ entry, t.settlementOrders.lookup pid = some entry ∧ entry.reserved = false ∧
      t.checkReservation entry = .ok ()) ∧
    ∃ entry, t'.settlementOrders.lookup pid = some entry ∧ entry.reserved = true := by
  unfold OrderTracker.tryReservePending at h
  cases hentry : t.settlementOrders.lookup pid with
  | none =>
    rw [hentry] at h
    cases h
  | some entry =>
    rw [hentry] at h
    dsimp only at h
    split at h
    · cases h
    · rename_i hunreserved
      split at h
      · cases h
      · rename_i hcheck
        obtain ⟨-, rfl⟩ := Prod.mk.inj h
        refine ⟨⟨entry, rfl, Bool.not_eq_true _ ▸ hunreserved, hcheck⟩, ?_⟩
        refine ⟨{ entry with reserved := true }, ?_, rfl⟩
        unfold OrderTracker.reserveEntry
        rw [OrderTracker.settlementOrders_modifyOrder, AList.lookup_insert]

/-- An entry that is reserved stays as it is. -/
theorem tryReservePending_reserved {entry : SettlementOrderEntry D}
    (hentry : t.settlementOrders.lookup pid = some entry) (hreserved : entry.reserved = true) :
    t.tryReservePending pid = (.ok false, t) := by
  unfold OrderTracker.tryReservePending
  rw [hentry]
  dsimp only
  rw [if_pos hreserved]

end Tracker

/-! ## Both halves -/

section Both

variable {s : ReservationStores D} {lm : FlowManager} {pid token : String} {amount feeCc : ℚ}
  {now : Instant}

omit [ValuedAmount D] in
/-- The three ways the manager's half goes. -/
theorem commitIfAbsent_cases (hlm : s.liquidityManager = some lm) :
    (lm.manager.hasCommitment pid = true ∧ s.commitIfAbsent pid token amount feeCc = .ok s) ∨
    (lm.manager.hasCommitment pid = false ∧ ∃ e,
      lm.manager.canCommit token amount feeCc = .error e ∧
        s.commitIfAbsent pid token amount feeCc = .error e) ∨
    (lm.manager.hasCommitment pid = false ∧ lm.manager.canCommit token amount feeCc = .ok () ∧
      ∃ manager, manager.hasCommitment pid = true ∧ s.commitIfAbsent pid token amount feeCc =
        .ok { s with liquidityManager := some { lm with manager } }) := by
  unfold commitIfAbsent
  rw [hlm]
  dsimp only
  cases hhas : lm.manager.hasCommitment pid with
  | true => exact .inl ⟨rfl, if_pos rfl⟩
  | false =>
    rw [if_neg Bool.false_ne_true]
    unfold LiquidityManager.canCommit
    cases hcheck : lm.manager.checkCommit token amount feeCc with
    | error e =>
      refine .inr (.inl ⟨rfl, e, rfl, ?_⟩)
      unfold LiquidityManager.tryCommit
      rw [hcheck]
    | ok =>
      refine .inr (.inr ⟨rfl, rfl, lm.manager.commit pid (lm.manager.state.resolveAlias token) amount
        feeCc, LiquidityManager.hasCommitment_commit, ?_⟩)
      rw [LiquidityManager.tryCommit_eq hcheck]

/-- Where both halves are done already a call does nothing. -/
theorem ensureReserved_again (hlm : s.liquidityManager = some lm)
    (hhas : lm.manager.hasCommitment pid = true) (hreserved : s.isReserved pid = true) :
    s.ensureReserved pid token amount feeCc now = (.ok (), s) := by
  have hcommit : s.commitIfAbsent pid token amount feeCc = .ok s := by
    unfold commitIfAbsent
    rw [hlm]
    exact if_pos hhas
  obtain ⟨entry, hentry, hlatched⟩ : ∃ entry, s.tracker.settlementOrders.lookup pid = some entry ∧
      entry.reserved = true := by
    unfold isReserved at hreserved
    cases hentry : s.tracker.settlementOrders.lookup pid with
    | none =>
      rw [hentry] at hreserved
      cases hreserved
    | some entry =>
      rw [hentry] at hreserved
      exact ⟨entry, rfl, hreserved⟩
  unfold ensureReserved
  rw [hcommit]
  dsimp only
  rw [tryReservePending_reserved hentry hlatched]

omit [ValuedAmount D] in
theorem isReserved_eq {entry : SettlementOrderEntry D} {reserved : Bool}
    (hentry : s.tracker.settlementOrders.lookup pid = some entry)
    (hreserved : entry.reserved = reserved) : s.isReserved pid = reserved := by
  unfold isReserved
  rw [hentry]
  exact hreserved

/-- With a commitment, new or old, everything depends on the tracker. -/
theorem latch_spec (lm : FlowManager) (now : Instant) {committed : ReservationStores D}
    {lm' : FlowManager}
    (hcommit : s.commitIfAbsent pid token amount feeCc = .ok committed)
    (htracker : committed.tracker = s.tracker) (hlm' : committed.liquidityManager = some lm')
    (hhas : lm'.manager.hasCommitment pid = true) (hflows : lm'.flows = lm.flows) :
    (s.canReserve pid → s.AllOrNothing lm pid token amount feeCc now) ∧
      (¬ s.canReserve pid → ∃ e, s.ensureReserved pid token amount feeCc now =
        (.error e, committed)) := by
  unfold AllOrNothing ensureReserved canReserve
  rw [hcommit]
  dsimp only
  rw [htracker]
  cases hlatch : s.tracker.tryReservePending pid with
  | mk result tracker =>
    cases result with
    | error e =>
      obtain ⟨rfl, hcannot⟩ := tryReservePending_error hlatch
      refine ⟨fun hcan => absurd hcan hcannot, fun _ => ⟨.reserve e, ?_⟩⟩
      dsimp only
      rw [← htracker]
    | ok new =>
      cases new with
      | false =>
        obtain ⟨rfl, entry, hentry, hreserved⟩ := tryReservePending_done hlatch
        refine ⟨fun _ => ?_, fun hcannot => absurd ⟨entry, hentry, .inl hreserved⟩ hcannot⟩
        have hbefore : s.isReserved pid = true := isReserved_eq hentry hreserved
        rw [hbefore, if_pos rfl]
        refine ⟨hbefore, lm', hlm', hhas, hflows, fun feeCc' now' => ?_⟩
        exact ensureReserved_again hlm' hhas hbefore
      | true =>
        obtain ⟨⟨before, hbefore, hfree, hcheck⟩, entry, hentry, hreserved⟩ :=
          tryReservePending_new hlatch
        refine ⟨fun _ => ?_, fun hcannot => absurd ⟨before, hbefore, .inr hcheck⟩ hcannot⟩
        have hunreserved : s.isReserved pid = false := isReserved_eq hbefore hfree
        have hafter : isReserved (recordOutflow { committed with tracker } token amount now) pid
            = true := isReserved_eq hentry hreserved
        have hlm'' : (recordOutflow { committed with tracker } token amount now).liquidityManager
            = some (lm'.recordOutflow token amount now) := by
          unfold recordOutflow
          dsimp only
          rw [hlm', Option.map_some]
        rw [hunreserved, if_neg Bool.false_ne_true]
        refine ⟨hafter, _, hlm'', hhas, ?_, fun feeCc' now' => ?_⟩
        · unfold FlowManager.recordOutflow FlowManager.flow
          dsimp only
          rw [hflows]
        · exact ensureReserved_again hlm'' hhas hafter

/-- **A reservation is all or nothing exactly if the tracker can reserve whenever the manager
newly commits.** -/
theorem allOrNothing_iff (hlm : s.liquidityManager = some lm) :
    s.AllOrNothing lm pid token amount feeCc now ↔
      (lm.manager.hasCommitment pid = false → lm.manager.canCommit token amount feeCc = .ok () →
        s.canReserve pid) := by
  rcases @commitIfAbsent_cases D s lm pid token amount feeCc hlm with
    ⟨hhas, hcommit⟩ | ⟨habsent, e, hcheck, hcommit⟩ | ⟨habsent, hcheck, manager, hhas, hcommit⟩
  · obtain ⟨hcan, hcannot⟩ := latch_spec lm now hcommit rfl hlm hhas rfl
    refine iff_of_true ?_ fun habsent => absurd (hhas.symm.trans habsent) Bool.noConfusion
    by_cases h : s.canReserve pid
    · exact hcan h
    · obtain ⟨e, herror⟩ := hcannot h
      unfold AllOrNothing
      rw [herror]
  · refine iff_of_true ?_ fun _ hok => by rw [hcheck] at hok; cases hok
    unfold AllOrNothing ensureReserved
    rw [hcommit]
  · obtain ⟨hcan, hcannot⟩ := latch_spec lm now hcommit rfl rfl hhas rfl
    refine ⟨fun hall _ _ => ?_, fun h => hcan (h habsent hcheck)⟩
    by_contra h
    obtain ⟨e, herror⟩ := hcannot h
    unfold AllOrNothing at hall
    rw [herror] at hall
    -- the commitment is left behind
    have hsame : some { lm with manager } = some lm := (congrArg liquidityManager hall).trans hlm
    have : manager.hasCommitment pid = lm.manager.hasCommitment pid :=
      congrArg (fun m => m.manager.hasCommitment pid) (Option.some.inj hsame)
    rw [hhas, habsent] at this
    cases this

end Both

end ReservationStores

/-! ## Two settlements of one order -/

/-- Two adopted settlements of ten on an order of ten. -/
def adoptedPair : ReservationStores Int :=
  let tracker : OrderTracker Int := (((OrderTracker.new 0 (.ok [])).trackOrder 7 "BASE-USDC" 1 "1"
    "10" 1 "" []).recordSettlementOrder "p1" 7 10).recordSettlementOrder "p2" 7 10
  let manager := (LiquidityManager.new 0).updateTokenBalance "BASE" 100
  ⟨some ⟨manager, ∅, 1 / 100, 12, 1⟩, tracker⟩

/-- The first one is reserved. -/
def overlapping : ReservationStores Int := (adoptedPair.ensureReserved "p1" "BASE" 10 0 0).2

def managerOf (s : ReservationStores Int) : FlowManager :=
  s.liquidityManager.getD ⟨.new 0, ∅, 0, 0, 0⟩

/-- The second is refused by the tracker, and its commitment stays. -/
theorem reserved_halfway :
    ¬ overlapping.AllOrNothing (managerOf overlapping) "p2" "BASE" 10 0 0 := by
  have hresult : (overlapping.ensureReserved "p2" "BASE" 10 0 0).1.isOk = false := by
    decide +kernel
  have hbefore : (managerOf overlapping).manager.hasCommitment "p2" = false := by
    decide +kernel
  have hafter : (managerOf (overlapping.ensureReserved "p2" "BASE" 10 0 0).2).manager.hasCommitment
      "p2" = true := by
    decide +kernel
  intro h
  unfold ReservationStores.AllOrNothing at h
  generalize overlapping.ensureReserved "p2" "BASE" 10 0 0 = outcome at h hresult hafter
  obtain ⟨result, after⟩ := outcome
  cases result with
  | ok => cases hresult
  | error e =>
    have hsame : after = overlapping := h
    rw [hsame, hbefore] at hafter
    cases hafter

/-- The first is new, can be committed and latched, and is reserved whole. -/
theorem allOrNothing_iff_first :
    (managerOf adoptedPair).manager.hasCommitment "p1" = false ∧
      (adoptedPair.ensureReserved "p1" "BASE" 10 0 0).1.isOk = true ∧
      adoptedPair.AllOrNothing (managerOf adoptedPair) "p1" "BASE" 10 0 0 := by
  have hlatch : (adoptedPair.tracker.settlementOrders.lookup "p1").map
      (fun entry => (adoptedPair.tracker.checkReservation entry).isOk) = some true := by
    decide +kernel
  obtain ⟨entry, hentry, hcheck⟩ := Option.map_eq_some_iff.mp hlatch
  refine ⟨by decide +kernel, by decide +kernel,
    (ReservationStores.allOrNothing_iff rfl).mpr fun _ _ => ⟨entry, hentry, .inr ?_⟩⟩
  cases hok : adoptedPair.tracker.checkReservation entry with
  | error e =>
    rw [hok] at hcheck
    cases hcheck
  | ok => rfl

/-! ## The steps of a task -/

namespace SettlementExecutor

variable {x : SettlementExecutor D} {tid : Nat}

/-- Recording the outflow writes neither store. -/
theorem recordStep_stores : (x.recordStep tid).liquidityManager = x.liquidityManager ∧
    (x.recordStep tid).tracker = x.tracker := by
  unfold recordStep
  split <;> exact ⟨rfl, rfl⟩

theorem latchStep_stores {pid : String} {state : SettlementState} {step : StepContext}
    (hphase : x.tasks.lookup tid = some ⟨pid, state, .latching step⟩) :
    (x.latchStep tid).liquidityManager = x.liquidityManager ∧
      (x.latchStep tid).tracker = (x.tracker.tryReservePending pid).2 := by
  unfold latchStep
  rw [hphase]
  dsimp only
  cases hlatch : x.tracker.tryReservePending pid with
  | mk result tracker =>
    cases result with
    | error e =>
      obtain ⟨rfl, -⟩ := ReservationStores.tryReservePending_error hlatch
      exact ⟨rfl, rfl⟩
    | ok new =>
      cases new with
      | false =>
        obtain ⟨rfl, -⟩ := ReservationStores.tryReservePending_done hlatch
        exact ⟨rfl, rfl⟩
      | true =>
        dsimp only
        split <;> exact ⟨rfl, rfl⟩

/-- A task past its reservation latches nothing. -/
theorem latchStep_finished {pid : String} {state : SettlementState} {result : AdvanceResult}
    (hphase : x.tasks.lookup tid = some ⟨pid, state, .finished result⟩) : x.latchStep tid = x := by
  unfold latchStep
  rw [hphase]

/-- What a task that is to commit does with the manager. -/
theorem commitStep_eq {pid : String} {state : SettlementState} {step : StepContext}
    (hphase : x.tasks.lookup tid = some ⟨pid, state, .committing step⟩) {lm : LiquidityManager}
    (hlm : x.liquidityManager = some lm) (feeCc : ℚ) (fixed4 : ℚ → String) :
    x.commitStep tid feeCc fixed4 =
      if lm.hasCommitment pid then
        x.setPhase tid ⟨pid, state, .committing step⟩ (.latching step)
      else
        match lm.tryCommit pid (reservationInputs D x.config state.proposal state.isBuyer).1
          (ValuedAmount.value (reservationInputs D x.config state.proposal state.isBuyer).2.1)
          feeCc with
        | .error e => x.endStep tid ⟨pid, state, .committing step⟩
          (.error ("reservation failed: " ++ e.text fixed4))
        | .ok lm => { x with liquidityManager := some lm }.setPhase tid
          ⟨pid, state, .committing step⟩ (.latching step) := by
  unfold commitStep
  rw [hphase]
  dsimp only
  generalize x.liquidityManager = held at hlm
  subst hlm
  rfl

/-- Once the commitment stands, latching and recording do what the rest of `ensure_reserved`
does. -/
theorem stores_of_committed {pid token : String} {amount feeCc : ℚ} {state : SettlementState}
    {step : StepContext} {before committed : ReservationStores D}
    (hcommit : before.commitIfAbsent pid token amount feeCc = .ok committed)
    (hphase : x.tasks.lookup tid = some ⟨pid, state, .latching step⟩)
    (hmanager : x.liquidityManager = committed.liquidityManager.map FlowManager.manager)
    (htracker : x.tracker = committed.tracker) (now : Instant) :
    let after := (before.ensureReserved pid token amount feeCc now).2
    ((x.latchStep tid).recordStep tid).liquidityManager =
        after.liquidityManager.map FlowManager.manager ∧
      ((x.latchStep tid).recordStep tid).tracker = after.tracker := by
  intro after
  obtain ⟨hlm', htracker'⟩ := latchStep_stores hphase
  obtain ⟨hlm'', htracker''⟩ := @recordStep_stores D _ (x.latchStep tid) tid
  simp only [after, ReservationStores.ensureReserved, hcommit]
  rw [hlm'', htracker'', hlm', htracker', hmanager, htracker]
  cases hlatch : committed.tracker.tryReservePending pid with
  | mk result tracker =>
    cases result with
    | error e => exact ⟨rfl, rfl⟩
    | ok new =>
      cases new with
      | false => exact ⟨rfl, rfl⟩
      | true =>
        refine ⟨?_, rfl⟩
        change _ = (committed.liquidityManager.map _).map _
        rw [Option.map_map]
        rfl

/-- A task that commits, latches and records leaves the manager and the tracker as one call of
`ensure_reserved` does. -/
theorem ensureReserved_steps {pid : String} {state : SettlementState} {step : StepContext}
    (hphase : x.tasks.lookup tid = some ⟨pid, state, .committing step⟩) {lm : FlowManager}
    (hlm : x.liquidityManager = some lm.manager) (feeCc : ℚ) (fixed4 : ℚ → String) (now : Instant) :
    let inputs := reservationInputs D x.config state.proposal state.isBuyer
    let after := (ReservationStores.ensureReserved ⟨some lm, x.tracker⟩ pid inputs.1
      (ValuedAmount.value inputs.2.1) feeCc now).2
    let done := ((x.commitStep tid feeCc fixed4).latchStep tid).recordStep tid
    done.liquidityManager = after.liquidityManager.map FlowManager.manager ∧
      done.tracker = after.tracker := by
  intro inputs after done
  have hstep := commitStep_eq hphase hlm feeCc fixed4
  cases hhas : lm.manager.hasCommitment pid with
  | true =>
    rw [hhas, if_pos rfl] at hstep
    have hcommit : ReservationStores.commitIfAbsent ⟨some lm, x.tracker⟩ pid inputs.1
        (ValuedAmount.value inputs.2.1) feeCc = .ok ⟨some lm, x.tracker⟩ := if_pos hhas
    have hlatching : (x.commitStep tid feeCc fixed4).tasks.lookup tid
        = some ⟨pid, state, .latching step⟩ := by
      rw [hstep]
      exact AList.lookup_insert _
    exact stores_of_committed hcommit hlatching (hstep ▸ hlm) (hstep ▸ rfl) now
  | false =>
    rw [hhas, if_neg Bool.false_ne_true] at hstep
    cases htry : lm.manager.tryCommit pid inputs.1 (ValuedAmount.value inputs.2.1) feeCc with
    | error e =>
      rw [htry] at hstep
      have hcommit : ReservationStores.commitIfAbsent ⟨some lm, x.tracker⟩ pid inputs.1
          (ValuedAmount.value inputs.2.1) feeCc = .error e := by
        simp [ReservationStores.commitIfAbsent, hhas, htry]
      have hend : x.commitStep tid feeCc fixed4 = x.setPhase tid ⟨pid, state, .committing step⟩
          (.finished (.error ("reservation failed: " ++ e.text fixed4))) := hstep
      obtain ⟨hlm', htracker'⟩ :=
        @recordStep_stores D _ ((x.commitStep tid feeCc fixed4).latchStep tid) tid
      simp only [done, after, ReservationStores.ensureReserved, hcommit]
      rw [hlm', htracker', hend, latchStep_finished (AList.lookup_insert _)]
      exact ⟨hlm, rfl⟩
    | ok manager =>
      rw [htry] at hstep
      have hcommit : ReservationStores.commitIfAbsent ⟨some lm, x.tracker⟩ pid inputs.1
          (ValuedAmount.value inputs.2.1) feeCc = .ok ⟨some { lm with manager }, x.tracker⟩ := by
        simp [ReservationStores.commitIfAbsent, hhas, htry]
      have hlatching : (x.commitStep tid feeCc fixed4).tasks.lookup tid
          = some ⟨pid, state, .latching step⟩ := by
        rw [hstep]
        exact AList.lookup_insert _
      exact stores_of_committed hcommit hlatching (hstep ▸ rfl) (hstep ▸ rfl) now

end SettlementExecutor

end BookAgent.AgentLogic
