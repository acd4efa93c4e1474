import BookAgent.AgentLogic.TerminalProposals

/-!
# What settlements leave reserved

A proposal that is no longer active and has no task left holds neither liquidity nor
order capacity once the releases have run, unless a task was dropped that had reserved
after its proposal ended.
-/

namespace BookAgent.AgentLogic

open BookAgent.Lib

/-- The task is about to end its proposal, whose record is gone. -/
def TaskPhase.Ends : TaskPhase → Prop
  | .refusing => True
  | .finished result => result = .terminal ∨ result = .rejected
  | .ready | .asking _ | .committing _ | .latching _ | .recording _ | .acting _ | .allocating
  | .dropped => False

theorem TaskPhase.Plain.not_ends {phase : TaskPhase} (h : phase.Plain) : ¬ phase.Ends := by
  cases phase with
  | finished result => exact fun hends => hends.elim h.1 h.2
  | refusing => exact absurd h id
  | ready => exact id
  | asking _ => exact id
  | committing _ => exact id
  | latching _ => exact id
  | recording _ => exact id
  | acting _ => exact id
  | allocating => exact id
  | dropped => exact id

namespace ProposalView

variable {D : Type} {v v' : ProposalView D}

def Reserved (v : ProposalView D) : Prop := ∃ e, v.record = some e ∧ e.reserved = true

/-- Nothing is reserved that is not still to be released. -/
def Freed (v : ProposalView D) : Prop := ¬ v.Reserved ∧ (v.committed → v.releasing)

/-- Reservations are held for an active proposal or by a task that is still to report. -/
structure Covered (v : ProposalView D) : Prop where
  idle : v.active = none → (∀ i, v.task i = none) → v.Freed
  ending : ∀ i t, v.task i = some t → t.phase.Ends → ¬ v.Reserved

theorem not_reserved_of_none (h : v.record = none) : ¬ v.Reserved := by
  rintro ⟨e, he, -⟩
  rw [h] at he
  cases he

theorem not_reserved_of_some {e : SettlementOrderEntry D} (h : v.record = some e)
    (he : e.reserved = false) : ¬ v.Reserved := by
  rintro ⟨e', he', hreserved⟩
  rw [h] at he'
  obtain rfl := Option.some.inj he'
  rw [he] at hreserved
  cases hreserved

theorem freed_release (hmanaged : v.committed → v.managed = true) (hrecord : ¬ v.Reserved) :
    v.release.Freed :=
  ⟨hrecord, fun h => .inl (hmanaged h)⟩

/-- The proposal is as free as it was, or active. -/
theorem Covered.of_freed (h : v.Covered) (htask : v'.task = v.task)
    (hfreed : v.Freed → v'.Freed)
    (hactive : v'.active = none → v.active = none ∨ v'.Freed)
    (hrecord : ¬ v.Reserved → ¬ v'.Reserved) : v'.Covered where
  idle hv hidle := by
    rcases hactive hv with hold | hfreed'
    · exact hfreed (h.idle hold (htask ▸ hidle))
    · exact hfreed'
  ending i t ht hends := hrecord (h.ending i t (htask ▸ ht) hends)

/-- The one task of the proposal moves on. -/
theorem Covered.of_task {tid : Nat} {t t' : SettlementTask} (hworked : v.Worked)
    (ht : v.task tid = some t) (htask : v'.task = Function.update v.task tid (some t'))
    (hends : t'.phase.Ends → ¬ v'.Reserved) : v'.Covered where
  idle _ hidle := by
    have some_task := hidle tid
    rw [htask, Function.update_self] at some_task
    cases some_task
  ending i u hu hphase := by
    have hi : i = tid := by
      by_contra hne
      rw [htask, Function.update_of_ne hne] at hu
      exact hne (hworked.single i tid (by rw [hu]; rfl) (by rw [ht]; rfl))
    rw [htask, hi, Function.update_self] at hu
    obtain rfl := Option.some.inj hu
    exact hends hphase

end ProposalView

namespace SettlementExecutor

variable {D : Type} [ValuedAmount D] [SignatureCrates] {x : SettlementExecutor D} {pid : String}

open ProposalView

omit [ValuedAmount D] [SignatureCrates] in
theorem managed_of_committed (h : (x.view pid).committed) : (x.view pid).managed = true := by
  obtain ⟨lm, hlm, -⟩ := h
  change x.liquidityManager.isSome = true
  rw [hlm]
  rfl

/-- A task that is dropped leaves its proposal active, or nothing reserved for it. -/
def LeavesFree (x : SettlementExecutor D) : ExecutorEvent D → Prop
  | .collect tid _ => ∀ t, x.tasks.lookup tid = some t → t.phase = .dropped →
      t.proposalId ∈ x.activeSettlements ∨
        ((∀ e, x.tracker.settlementOrders.lookup t.proposalId = some e → e.reserved = false) ∧
          (x.hasCommitment t.proposalId → t.proposalId ∈ x.releases))
  | _ => True

omit [ValuedAmount D] [SignatureCrates] in
theorem covered_result {now : Int} {final : SettlementState} {v v' : ProposalView D}
    {result : AdvanceResult} (hnone : ∀ i, v.task i = none)
    (hmanaged : v.committed → v.managed = true) (hfreed : v.active = none → v.Freed)
    (hends : (TaskPhase.finished result).Ends → ¬ v.Reserved)
    (step : ResultStep x pid now final v result v') : v'.Covered := by
  have idle (v' : ProposalView D) (htask : v'.task = v.task)
      (hv : v'.active = none → v'.Freed) : v'.Covered :=
    ⟨fun hactive _ => hv hactive, fun i t ht => by rw [htask, hnone i] at ht; cases ht⟩
  cases step with
  | kept f hresult hstage =>
    exact idle _ rfl fun hactive => hfreed (Option.map_eq_none_iff.mp hactive)
  | rejected => exact idle _ rfl fun _ => freed_release hmanaged (hends (.inr rfl))
  | terminal inflow hinflow =>
    exact idle _ rfl fun _ => freed_release (v := v.receive inflow) hmanaged (hends (.inl rfl))
  | givenUp hgives =>
    unfold ProposalView.giveUp
    dsimp only
    split
    · exact idle _ rfl fun _ => ⟨not_reserved_of_none rfl, fun h => .inl (hmanaged h)⟩
    · exact idle _ rfl fun _ => ⟨not_reserved_of_none rfl, fun h => .inl (hmanaged h)⟩

theorem covered_step {e : ExecutorEvent D} {v : ProposalView D} (hrestart : e.isRestart = false)
    (hworked : (x.view pid).Worked) (h : (x.view pid).Covered) (hfree : x.LeavesFree e)
    (step : ProposalStep x pid e v) : v.Covered := by
  have managed : (x.view pid).committed → (x.view pid).managed = true := managed_of_committed
  have later := worked_step hworked step
  cases step with
  | settledBefore hpid hnew window => exact h.of_freed rfl id .inl id
  | refused hpid hnew => exact h.of_freed rfl id .inl id
  | implausible hpid hnew sent =>
    have freed : (x.view pid).lose.release.Freed :=
      freed_release (v := (x.view pid).lose) managed (not_reserved_of_none rfl)
    split
    · exact h.of_freed rfl (fun _ => freed) .inl fun _ => freed.1
    · exact h.of_freed rfl (fun _ => freed) .inl fun _ => freed.1
  | aborted hpid hnew hrfq hstatus hleave sent =>
    split
    · exact h.of_freed rfl (fun hf => ⟨not_reserved_of_none rfl, hf.2⟩) .inl
        fun _ => not_reserved_of_none rfl
    · exact h.of_freed rfl id .inl id
  | expired hpid hnew =>
    exact h.of_freed rfl (fun hf => ⟨not_reserved_of_none rfl, hf.2⟩) .inl
      fun _ => not_reserved_of_none rfl
  | resumed hpid hnew hrecord => exact h.of_freed rfl id (fun hv => by cases hv) id
  | adopted hpid hnew hrecord id through htracked =>
    exact h.of_freed rfl (fun hf => ⟨not_reserved_of_some rfl rfl, hf.2⟩) (fun hv => by cases hv)
      fun _ => not_reserved_of_some rfl rfl
  | settled hpid inflow hinflow =>
    have freed {v : ProposalView D} (hrecord : v.record = none)
        (hv : v.releasing = ((x.view pid).managed = true ∨ (x.view pid).releasing))
        (hc : v.committed = (x.view pid).committed) : v.Freed :=
      ⟨not_reserved_of_none hrecord, fun h => hv ▸ .inl (managed (hc ▸ h))⟩
    exact h.of_freed rfl (fun _ => freed rfl rfl rfl) (fun _ => .inr (freed rfl rfl rfl))
      fun _ => not_reserved_of_none rfl
  | ended =>
    have freed : (x.view pid).lose.release.Freed :=
      freed_release (v := (x.view pid).lose) managed (not_reserved_of_none rfl)
    exact h.of_freed rfl (fun _ => freed) (fun _ => .inr freed) fun _ => freed.1
  | found hactive => exact h.of_freed rfl id (fun hv => by cases hv) id
  | @spawned fresh state hactive hprogress =>
    have started : Function.update (x.view pid).task x.nextTask (some ⟨pid, state, .ready⟩) x.nextTask
        = some ⟨pid, state, .ready⟩ := Function.update_self ..
    refine ⟨fun hv => ?_, fun i t ht hends => ?_⟩
    · have none_active : (x.view pid).active = none := hv
      rw [hactive] at none_active
      cases none_active
    · have hi : i = x.nextTask :=
        later.single i x.nextTask (by rw [ht]; rfl) (congrArg Option.isSome started)
      rw [hi] at ht
      obtain rfl := Option.some.inj (started.symm.trans ht)
      exact hends.elim
  | moved ht hfrom hto => exact .of_task hworked ht rfl fun hends => absurd hends hto.not_ends
  | called ht hfrom => exact .of_task hworked ht rfl fun hends => hends.elim
  | readvanced ht hfrom => exact .of_task hworked ht rfl fun hends => hends.elim
  | committed ht hfrom => exact .of_task hworked ht rfl fun hends => hends.elim
  | latched ht hfrom hentry hreserved =>
    refine .of_task hworked ht rfl fun hends => ?_
    dsimp only at hends
    split at hends <;> exact hends.elim
  | recorded ht hfrom outflow => exact .of_task hworked ht rfl fun hends => hends.elim
  | refusing ht hfrom => exact .of_task hworked ht rfl fun _ => not_reserved_of_none rfl
  | refusalSent ht hfrom =>
    exact .of_task hworked ht rfl fun _ => h.ending _ _ ht (by rw [hfrom]; trivial)
  | foundSettled ht hfrom hstatus => exact .of_task hworked ht rfl fun _ => not_reserved_of_none rfl
  | foundEnded ht hfrom hstatus => exact .of_task hworked ht rfl fun _ => not_reserved_of_none rfl
  | dropped ht hfrom => exact .of_task hworked ht rfl fun hends => hends.elim
  | @collected tid now t result v ht hphase hresult =>
    have hends : (TaskPhase.finished result).Ends → ¬ (x.view pid).Reserved := by
      rw [← hphase]
      exact h.ending tid t ht
    have untasked := hworked.no_task ht
    refine covered_result ?_ ?_ ?_ ?_ hresult
    · intro i
      unfold ProposalView.take
      split <;> exact untasked i
    · unfold ProposalView.take
      split <;> exact managed
    · unfold ProposalView.take
      split
      · intro _
        exact ⟨not_reserved_of_none rfl, fun hc => .inl (managed hc)⟩
      · intro hv
        cases hv
    · intro hphase
      unfold ProposalView.take
      split
      · exact not_reserved_of_none rfl
      · exact hends hphase
  | @collectedDropped tid now t ht hphase =>
    have untasked := hworked.no_task ht
    obtain ⟨hlookup, rfl⟩ := taskOf_eq_some.mp ht
    refine ⟨fun hv _ => ?_, fun i u hu => ?_⟩
    · rcases hfree t hlookup hphase with hactive | ⟨hrecord, hreleasing⟩
      · exact absurd hactive (AList.lookup_eq_none.mp hv)
      · refine ⟨?_, hreleasing⟩
        rintro ⟨entry, hentry, hreserved⟩
        rw [hrecord entry hentry] at hreserved
        cases hreserved
    · have none_left : (((x.view t.proposalId).setTask tid none).endProgress).task i = none :=
        untasked i
      rw [none_left] at hu
      cases hu
  | released hreleasing =>
    exact h.of_freed rfl (fun hf => ⟨hf.1, fun hc => hc.elim⟩) .inl id
  | allocation => exact h.of_freed rfl id .inl id
  | unconfirmed hactive hstage =>
    have freed : (x.view pid).release.lose.Freed :=
      ⟨not_reserved_of_none rfl, fun hc => .inl (managed hc)⟩
    split
    · exact h.of_freed rfl (fun _ => freed) (fun _ => .inr freed) fun _ => freed.1
    · exact h.of_freed rfl (fun _ => freed) (fun _ => .inr freed) fun _ => freed.1
  | reconciled => exact h.of_freed rfl (fun hf => ⟨hf.1, fun hc => hc.elim⟩) .inl id
  | restarted hactive htask hprogress hreleasing hcommitted hrecord hhistory hres =>
    rw [hrestart] at hres
    cases hres

/-! ## Runs -/

/-- Nothing is left of a proposal that is not active, once its tasks are collected and the
releases have run. -/
def NothingLeft (x : SettlementExecutor D) (pid : String) : Prop :=
  pid ∉ x.activeSettlements → (∀ tid t, x.tasks.lookup tid = some t → t.proposalId ≠ pid) →
    pid ∉ x.releases →
      ¬ x.hasCommitment pid ∧
        ∀ e, x.tracker.settlementOrders.lookup pid = some e → e.reserved = false

omit [ValuedAmount D] [SignatureCrates] in
theorem Covered.nothingLeft (h : (x.view pid).Covered) : x.NothingLeft pid := by
  intro hactive htasks hreleases
  have idle (i : Nat) : (x.view pid).task i = none := by
    rw [Option.eq_none_iff_forall_ne_some]
    intro t ht
    obtain ⟨hlookup, hpid⟩ := taskOf_eq_some.mp ht
    exact htasks i t hlookup hpid
  obtain ⟨hreserved, hcommitted⟩ := h.idle (AList.lookup_eq_none.mpr hactive) idle
  refine ⟨fun hc => hreleases (hcommitted hc), fun e he => ?_⟩
  rw [← Bool.not_eq_true]
  exact fun hr => hreserved ⟨e, he, hr⟩

/-- Within one process that starts with nothing reserved for the proposal, nothing is left of
it, if every task that is dropped leaves its proposal active or nothing reserved for it. -/
theorem nothing_left {x₀ : SettlementExecutor D} (hstart : x₀.JustStarted)
    (hcommitted : ¬ x₀.hasCommitment pid)
    (hreserved : ∀ e, x₀.tracker.settlementOrders.lookup pid = some e → e.reserved = false)
    (run : Reachable (fun x e => x.WithinProcess e ∧ x.LeavesFree e) apply x₀ x) :
    x.NothingLeft pid := by
  have base : (x₀.view pid).Covered := by
    refine ⟨fun _ _ => ⟨?_, fun hc => absurd hc hcommitted⟩, fun i t ht => ?_⟩
    · rintro ⟨e, he, hr⟩
      rw [hreserved e he] at hr
      cases hr
    · have found := (taskOf_eq_some.mp ht).1
      rw [hstart.tasks] at found
      cases found
  have inv : x.Orderly ∧ (x.view pid).Covered := by
    refine run.invariant (fun y => y.Orderly ∧ (y.view pid).Covered) ⟨hstart.orderly, base⟩
      fun y e inv hallowed => ⟨orderly_apply inv.1 e hallowed.1, ?_⟩
    rcases inv.1.numbered.steps pid hallowed.1 with same | step
    · rw [same]
      exact inv.2
    · exact covered_step hallowed.1 (inv.1.worked pid) inv.2 hallowed.2 step
  exact Covered.nothingLeft inv.2

end SettlementExecutor

/-! ## A commitment that stays -/

namespace SettlementExecutor

section Example

local instance leavingCrates : SignatureCrates := signedCrates

/-- `bidding`, with a balance to buy with. -/
def fundedBidding : SettlementExecutor Int :=
  { bidding with
    liquidityManager := some ((LiquidityManager.new 5).updateTokenBalances [("CC", 100), ("Y", 100)]) }

/-- The purchase is adopted and a task started on it. -/
def purchasing : SettlementExecutor Int :=
  (fundedBidding.apply (.proposalCreated purchase (quietFeed fundedBidding))).apply (.spawn "p" false)

/-- The buyer is to pay the DVP fee. -/
def feeDue : SettlementStatus where
  stage := 2
  buyerNextAction := 2
  sellerNextAction := 2
  dvpProcessingFeeBuyer := none
  dvpProcessingFeeSeller := none
  allocationProcessingFeeBuyer := none
  allocationProcessingFeeSeller := none
  allocationBuyer := none
  allocationSeller := none
  settlement := none

def noDigits (_ : ℚ) : String := ""

/-- The server cancels the purchase while its task is about to commit; the release runs, and
then the task commits. -/
def committedLate : SettlementExecutor Int :=
  ((((purchasing.apply (.beginStep 0)).apply (.answerStep 0 (.ok feeDue) 0)).apply
    (.ended "p")).apply (.runRelease "p")).apply (.commitStep 0 0 noDigits)

/-- The task panics. -/
def leaking : SettlementExecutor Int := (committedLate.apply (.dropTask 0)).apply (.collect 0 0)

/-- The task finds nothing to reserve in the tracker, ends and is collected; the release runs. -/
def freed : SettlementExecutor Int :=
  ((committedLate.apply (.latchStep 0)).apply (.collect 0 0)).apply (.runRelease "p")

theorem justStarted_fundedBidding : fundedBidding.JustStarted := ⟨rfl, rfl, rfl⟩

theorem uncommitted_fundedBidding : ¬ fundedBidding.hasCommitment "p" := by
  rintro ⟨lm, hlm, hcommitted⟩
  have held : fundedBidding.liquidityManager.map (fun lm => lm.hasCommitment "p") = some false := by
    decide +kernel
  rw [hlm] at held
  exact Bool.false_ne_true ((Option.some.inj held).symm.trans hcommitted)

theorem commitment_left :
    fundedBidding.JustStarted ∧ ¬ fundedBidding.hasCommitment "p" ∧
      Reachable WithinProcess apply fundedBidding leaking ∧ ¬ leaking.NothingLeft "p" := by
  refine ⟨justStarted_fundedBidding, uncommitted_fundedBidding, ?_, fun left => ?_⟩
  · exact .step (.step (.step (.step (.step (.step (.step (.step (.step .start rfl) rfl) rfl) rfl)
      rfl) rfl) rfl) rfl) rfl
  · have committed : leaking.liquidityManager.map (fun lm => lm.hasCommitment "p") = some true := by
      decide +kernel
    have idle : leaking.tasks.keys = [] := by decide +kernel
    obtain ⟨lm, hlm, hlmp⟩ := Option.map_eq_some_iff.mp committed
    refine (left (by decide +kernel) (fun tid t ht => ?_) (by decide +kernel)).1 ⟨lm, hlm, hlmp⟩
    have hmem := AList.mem_keys.mp (Pool.mem_iff_lookup.mpr ⟨t, ht⟩)
    rw [idle] at hmem
    cases hmem

/-- Where the task is collected instead, the late commitment is released. -/
theorem nothing_left_freed :
    committedLate.hasCommitment "p" ∧ ¬ freed.hasCommitment "p" ∧
      ∀ e, freed.tracker.settlementOrders.lookup "p" = some e → e.reserved = false := by
  have committed : committedLate.liquidityManager.map (fun lm => lm.hasCommitment "p") =
      some true := by decide +kernel
  have idle : freed.tasks.keys = [] := by decide +kernel
  have ended : (committedLate.apply (.latchStep 0)).LeavesFree (.collect 0 0) := by
    intro t ht hdropped
    have live : ((committedLate.apply (.latchStep 0)).tasks.lookup 0).map
        (fun t => t.phase matches .dropped) = some false := by decide +kernel
    rw [ht, Option.map_some, hdropped] at live
    cases live
  have run : Reachable (fun x e => x.WithinProcess e ∧ x.LeavesFree e) apply fundedBidding freed :=
    .step (.step (.step (.step (.step (.step (.step (.step (.step (.step .start ⟨rfl, trivial⟩)
      ⟨rfl, trivial⟩) ⟨rfl, trivial⟩) ⟨rfl, trivial⟩) ⟨rfl, trivial⟩) ⟨rfl, trivial⟩)
      ⟨rfl, trivial⟩) ⟨rfl, trivial⟩) ⟨rfl, ended⟩) ⟨rfl, trivial⟩
  obtain ⟨lm, hlm, hlmp⟩ := Option.map_eq_some_iff.mp committed
  refine ⟨⟨lm, hlm, hlmp⟩, ?_⟩
  refine nothing_left justStarted_fundedBidding uncommitted_fundedBidding (fun e he => ?_) run
    (by decide +kernel) (fun tid t ht => ?_) (by decide +kernel)
  · cases he
  · have hmem := AList.mem_keys.mp (Pool.mem_iff_lookup.mpr ⟨t, ht⟩)
    rw [idle] at hmem
    cases hmem

end Example

end SettlementExecutor

end BookAgent.AgentLogic
