import BookAgent.AgentLogic.ProposalStep

/-!
# Updates that are dropped

A stream update whose handling takes too long is dropped at the await it has come to. The
changes up to there stay, and the poll hands the proposal in again.
-/

namespace BookAgent.AgentLogic

open BookAgent.Lib

/-- Where the handling of a proposal may be dropped. Once a rejection has reached the server
nothing more can be lost. -/
inductive AwaitPoint
  /-- Any await before the first change. -/
  | early
  /-- The rejection is being sent. -/
  | rejecting
  /-- The adoption is about to be recorded, for which the tracker is locked. -/
  | recording

/-- An update of the stream, with what the world answers while it is handled. -/
inductive StreamUpdate (D : Type)
  | proposalCreated (proposal : SettlementProposal) (feed : ProposalFeed D)
  | settled (proposal : SettlementProposal)
  | ended (proposal : SettlementProposal)
  | statusChanged (proposal : SettlementProposal)

def StreamUpdate.proposal {D : Type} : StreamUpdate D → SettlementProposal
  | .proposalCreated p _ | .settled p | .ended p | .statusChanged p => p

namespace SettlementExecutor

variable {D : Type} [ValuedAmount D] {x y : SettlementExecutor D} {p : SettlementProposal}
  {f f' : ProposalFeed D} {pid : String}

/-! ## What two executors make of a proposal -/

/-- The same of a proposal, and the same trade records. -/
structure Alike (x y : SettlementExecutor D) (pid : String) : Prop where
  active : x.activeSettlements.lookup pid = y.activeSettlements.lookup pid
  rejected : pid ∈ x.rejectedProposals ↔ pid ∈ y.rejectedProposals
  completed : pid ∈ x.completedProposals ↔ pid ∈ y.completedProposals
  record : x.tracker.settlementOrders.lookup pid = y.tracker.settlementOrders.lookup pid
  accepted : x.acceptedRfqTrades = y.acceptedRfqTrades
  quoted : x.quotedRfqTrades = y.quotedRfqTrades

namespace Alike

omit [ValuedAmount D] in
theorem refl (x : SettlementExecutor D) (pid : String) : Alike x x pid :=
  ⟨rfl, Iff.rfl, Iff.rfl, rfl, rfl, rfl⟩

variable (h : Alike x y pid)
include h

omit [ValuedAmount D] in
theorem note {f g : ProposalHistory D → ProposalHistory D} : Alike (x.note pid f) (y.note pid g) pid :=
  ⟨h.1, h.2, h.3, h.4, h.5, h.6⟩

omit [ValuedAmount D] in
theorem complete : Alike (x.complete pid) (y.complete pid) pid :=
  ⟨h.1, h.2, iff_of_true (Finset.mem_insert_self _ _) (Finset.mem_insert_self _ _), h.4, h.5, h.6⟩

omit [ValuedAmount D] in
theorem reject : Alike (x.reject pid) (y.reject pid) pid :=
  ⟨h.1, iff_of_true (Finset.mem_insert_self _ _) (Finset.mem_insert_self _ _), h.3, h.4, h.5, h.6⟩

omit [ValuedAmount D] in
theorem rejectProposal {sent : Bool} : Alike (x.rejectProposal pid sent) (y.rejectProposal pid sent) pid := by
  unfold SettlementExecutor.rejectProposal
  cases sent with
  | false => exact h
  | true =>
    have rejected := h.reject
    refine ⟨?_, rejected.2, rejected.3, rejected.4, rejected.5, rejected.6⟩
    rw [if_pos rfl, if_pos rfl]
    unfold deactivate
    rw [AList.lookup_erase, AList.lookup_erase]

omit [ValuedAmount D] in
theorem releaseCommitment : Alike (x.releaseCommitment pid) (y.releaseCommitment pid) pid :=
  ⟨h.1, h.2, h.3, h.4, h.5, h.6⟩

theorem markFailed : Alike (x.markFailed pid) (y.markFailed pid) pid := by
  refine ⟨h.1, h.2, h.3, ?_, h.5, h.6⟩
  refine (lookup_settlementOrders_markFailed x.tracker).trans ?_
  rw [if_pos rfl]
  exact ((lookup_settlementOrders_markFailed y.tracker).trans (if_pos rfl)).symm

omit [ValuedAmount D] in
theorem setActive {state : SettlementState} :
    Alike { x with activeSettlements := x.activeSettlements.insert pid state }
      { y with activeSettlements := y.activeSettlements.insert pid state } pid := by
  refine ⟨?_, h.2, h.3, h.4, h.5, h.6⟩
  dsimp only
  rw [AList.lookup_insert, AList.lookup_insert]

end Alike

omit [ValuedAmount D] in
/-- The record an adoption leaves. -/
theorem lookup_recordSettlementOrder (t : OrderTracker D) {id : Nat} {quantity : D} :
    (t.recordSettlementOrder pid id quantity).settlementOrders.lookup pid
      = some ((t.settlementOrders.lookup pid).getD ⟨id, quantity, false⟩) := by
  unfold OrderTracker.recordSettlementOrder
  split
  · rename_i hmem
    obtain ⟨e, he⟩ := Pool.mem_iff_lookup.mp hmem
    rw [he]
    rfl
  · rename_i hmem
    rw [AList.lookup_eq_none.mpr hmem]
    exact AList.lookup_insert _

theorem Alike.adopt (h : Alike x y p.proposalId) (hconfig : x.config = y.config) {id : Nat}
    {through : Bool} : Alike (x.adopt p id through) (y.adopt p id through) p.proposalId := by
  refine ⟨?_, h.2, h.3, ?_, h.5, h.6⟩
  · unfold SettlementExecutor.adopt
    dsimp only
    rw [AList.lookup_insert, AList.lookup_insert, hconfig]
  · refine (lookup_recordSettlementOrder x.tracker).trans ?_
    rw [h.record]
    exact (lookup_recordSettlementOrder y.tracker).symm

/-! ## Handing a proposal in, now or again -/

variable [SignatureCrates]

/-- No one else changes the tracker while the proposal is handled. -/
def handIn (x : SettlementExecutor D) (p : SettlementProposal) (f : ProposalFeed D) :
    SettlementExecutor D :=
  x.handleProposalCreated p { f with trackerSeen := x.tracker }

/-- The terms of the proposal are checked. -/
def reachesTerms (x : SettlementExecutor D) (p : SettlementProposal) (f : ProposalFeed D) : Bool :=
  x.passesGates p f && !x.config.noReject && !x.config.rfqV2Only &&
    !x.tracker.hasSettlementOrder p.proposalId

/-- The proposal is refused over its amounts. -/
def refusesAmounts (x : SettlementExecutor D) (p : SettlementProposal) : Bool :=
  decide (p.proposalId ∉ x.activeSettlements) && decide (p.proposalId ∉ x.completedProposals) &&
    decide (p.proposalId ∉ x.rejectedProposals) && p.settledAt.isNone &&
    (x.config.isBuyer p || x.config.isSeller p) && (implausibleAmount D p).isSome

/-- What is left of the executor if the handling of the proposal is dropped there; at an await
the handling does not come to, as at one before the first change, it is as it was. -/
def droppedAt (x : SettlementExecutor D) (p : SettlementProposal) (f : ProposalFeed D) :
    AwaitPoint → SettlementExecutor D
  | .early => x
  | .rejecting =>
    if x.refusesAmounts p then (x.markFailed p.proposalId).releaseCommitment p.proposalId
    else if x.reachesTerms p f then
      match p.orderMatch with
      | none => match x.verifyRfqProposal p with
        | (false, y) => y
        | (true, _) => x
      | some _ => match x.verifyOrderProposal p f with
        | (.rejected, y) => y
        | (.accepted _, _) | (.held, _) => x
    else x
  | .recording =>
    if x.reachesTerms p f then
      match p.orderMatch with
      | none => match x.verifyRfqProposal p with
        | (true, y) => y
        | (false, _) => x
      | some _ => match x.verifyOrderProposal p f with
        | (.accepted _, y) => y
        | (.rejected, _) | (.held, _) => x
    else x

/-- The other updates await the lock of the tracker, if anything, and change nothing before. -/
def droppedUpdate (x : SettlementExecutor D) (point : AwaitPoint) :
    StreamUpdate D → SettlementExecutor D
  | .proposalCreated p f => x.droppedAt p f point
  | .settled _ | .ended _ | .statusChanged _ => x

/-- Handing the proposal in again comes to the same as if the update had not come, and
nothing of an adoption is left behind. -/
def LosesNothing (x : SettlementExecutor D) (update : StreamUpdate D) (point : AwaitPoint) : Prop :=
  let pid := update.proposal.proposalId
  let y := x.droppedUpdate point update
  (∀ f' : ProposalFeed D,
      (match update with
        | .proposalCreated _ f => f.instant ≤ f'.instant
        | _ => True) →
      Alike (x.handIn update.proposal f') (y.handIn update.proposal f') pid) ∧
    y.activeSettlements.lookup pid = x.activeSettlements.lookup pid ∧
    (y.tracker.settlementOrders.lookup pid = none ∨
      y.tracker.settlementOrders.lookup pid = x.tracker.settlementOrders.lookup pid)

/-- The verification of the named order made the tracker track it. -/
def NewlyTracked (x : SettlementExecutor D) (p : SettlementProposal) (f : ProposalFeed D) : Prop :=
  x.ourOrder p ∉ x.tracker.orders ∧ x.ourOrder p ∈ (x.verifyOrderProposal p f).2.tracker.orders

/-- Dropped there, the update has used up what a retry goes by: a trade record, or the lookup
of an order. -/
def UsesUp (x : SettlementExecutor D) (p : SettlementProposal) (f : ProposalFeed D) :
    AwaitPoint → Prop
  | .early => False
  | .rejecting => x.reachesTerms p f = true ∧
      match p.orderMatch with
      | none => ∃ trade, (x.acceptedRfqTrades.bind fun trades => trades.lookup p.proposalId) = some trade ∧
          trade.matches p = false ∧
          (x.liquidityManager.isSome = true ∨
            ∃ trades trade, x.quotedRfqTrades = some trades ∧ trade ∈ trades ∧ trade.matches p = true)
      | some _ => (∃ y, x.verifyOrderProposal p f = (.rejected, y)) ∧ x.NewlyTracked p f
  | .recording => x.reachesTerms p f = true ∧
      match p.orderMatch with
      | none => (x.rfqRecord p).isSome = true
      | some _ => (∃ id y, x.verifyOrderProposal p f = (.accepted id, y)) ∧ x.NewlyTracked p f

/-- The update has used up what a retry of its proposal goes by. -/
def UpdateUsesUp (x : SettlementExecutor D) (point : AwaitPoint) : StreamUpdate D → Prop
  | .proposalCreated p f => x.UsesUp p f point
  | .settled _ | .ended _ | .statusChanged _ => False

/-! ## Trackers that verify alike -/

omit [SignatureCrates] [ValuedAmount D] in
/-- The trades are verified without the tracker. -/
theorem verifyRfqProposal_tracker (t : OrderTracker D) :
    { x with tracker := t }.verifyRfqProposal p
      = ((x.verifyRfqProposal p).1, { (x.verifyRfqProposal p).2 with tracker := t }) := by
  unfold verifyRfqProposal
  dsimp only
  split
  · rfl
  · split
    · rfl
    · split <;> rfl

/-- Verifying the named order changes the tracker only. -/
theorem verifyOrderProposal_snd :
    (x.verifyOrderProposal p f).2 = { x with tracker := (x.verifyOrderProposal p f).2.tracker } := by
  unfold verifyOrderProposal
  split
  · rfl
  · rfl
  · rfl
  · dsimp only
    split <;> rfl

/-- With a tracker of the same records and the same verdict on the named order, a proposal
comes to the same. -/
theorem alike_handIn {t : OrderTracker D} (hrecords : t.settlementOrders = x.tracker.settlementOrders)
    (hverdict : ({ x with tracker := t }.verifyOrderProposal p { f' with trackerSeen := t }).1
      = (x.verifyOrderProposal p { f' with trackerSeen := x.tracker }).1) :
    Alike (x.handIn p f') ({ x with tracker := t }.handIn p f') p.proposalId := by
  have base : Alike x { x with tracker := t } p.proposalId :=
    ⟨rfl, Iff.rfl, Iff.rfl, by rw [hrecords], rfl, rfl⟩
  have recorded : t.hasSettlementOrder p.proposalId = x.tracker.hasSettlementOrder p.proposalId := by
    unfold OrderTracker.hasSettlementOrder
    rw [hrecords]
  have terms : Alike (x.checkTerms p { f' with trackerSeen := x.tracker })
      ({ x with tracker := t }.checkTerms p { f' with trackerSeen := t }) p.proposalId := by
    unfold checkTerms
    cases hmatch : p.orderMatch with
    | none =>
      rw [verifyRfqProposal_tracker t]
      have frame := (verifyRfqProposal_frame (x := x) (p := p)).2.2
      cases hverify : x.verifyRfqProposal p with
      | mk verified z =>
        rw [hverify] at frame
        have alike : Alike z { z with tracker := t } p.proposalId :=
          ⟨rfl, Iff.rfl, Iff.rfl, by rw [frame, hrecords], rfl, rfl⟩
        cases verified with
        | false => exact alike.rejectProposal
        | true => exact alike.adopt rfl
    | some om =>
      have shape := verifyOrderProposal_snd (x := x) (p := p) (f := { f' with trackerSeen := x.tracker })
      have shape' := verifyOrderProposal_snd (x := { x with tracker := t }) (p := p)
        (f := { f' with trackerSeen := t })
      have frame := (verifyOrderProposal_frame (x := x) (p := p)
        (f := { f' with trackerSeen := x.tracker })).1
      have frame' := (verifyOrderProposal_frame (x := { x with tracker := t }) (p := p)
        (f := { f' with trackerSeen := t })).1
      dsimp only at hverdict shape shape' frame frame' ⊢
      cases hx : x.verifyOrderProposal p { f' with trackerSeen := x.tracker } with
      | mk verdict z =>
        cases hy : { x with tracker := t }.verifyOrderProposal p { f' with trackerSeen := t } with
        | mk verdict' z' =>
          rw [hx] at hverdict shape frame
          rw [hy] at hverdict shape' frame'
          dsimp only at hverdict shape shape' frame frame'
          subst hverdict
          have alike : Alike z z' p.proposalId := by
            rw [shape, shape']
            exact ⟨rfl, Iff.rfl, Iff.rfl, by rw [frame, frame', hrecords], rfl, rfl⟩
          cases verdict' with
          | accepted id => exact alike.adopt (by rw [shape, shape'])
          | rejected => exact alike.rejectProposal
          | held => exact alike
  unfold handIn handleProposalCreated
  dsimp only
  rw [recorded]
  split_ifs
  · exact base
  · exact base.note.complete
  · exact base
  · exact base.markFailed.releaseCommitment.rejectProposal
  · unfold abortV1Settlement
    dsimp only
    split
    · exact base
    · split
      · exact base.reject
      · split
        · exact base.note.markFailed.reject
        · exact base.note
        · exact base.note
  · unfold resume
    dsimp only
    split
    · exact base.markFailed.reject.note
    · exact base.note.setActive
  · exact base.adopt rfl
  · have gate : { x with tracker := t }.liquidityGate p { f' with trackerSeen := t }
        = x.liquidityGate p { f' with trackerSeen := x.tracker } := rfl
    have pending (party : String) : { x with tracker := t }.pendingWith party = x.pendingWith party :=
      rfl
    unfold vet
    dsimp only
    rw [gate, pending]
    split_ifs
    · exact base.rejectProposal
    · exact base.rejectProposal
    · split
      · exact base
      · exact base.rejectProposal
      · exact terms

omit [ValuedAmount D] [SignatureCrates] in
/-- Failed submits that are dropped early would be dropped later. -/
theorem pruneFailedSubmits_twice (t : OrderTracker D) {now later : Instant} (h : now ≤ later) :
    (t.pruneFailedSubmits now).pruneFailedSubmits later = t.pruneFailedSubmits later := by
  unfold OrderTracker.pruneFailedSubmits
  dsimp only
  rw [List.filter_filter]
  congr 1
  refine List.filter_congr fun s _ => ?_
  rw [Bool.and_eq_left_iff_imp, decide_eq_true_eq, decide_eq_true_eq]
  exact fun hlater => lt_of_le_of_lt (Nat.sub_le_sub_right h s.1) hlater

/-- Forgetting old submits early changes no verdict. -/
theorem verdict_pruned {now : Instant} (h : now ≤ f'.instant) :
    ({ x with tracker := x.tracker.pruneFailedSubmits now }.verifyOrderProposal p
        { f' with trackerSeen := x.tracker.pruneFailedSubmits now }).1
      = (x.verifyOrderProposal p { f' with trackerSeen := x.tracker }).1 := by
  have settlement : (x.tracker.pruneFailedSubmits now).verifySettlement p x.config.partyId f'.instant
      = x.tracker.verifySettlement p x.config.partyId f'.instant := rfl
  have adopted (order : Order) : (x.tracker.pruneFailedSubmits now).adoptFailedSubmit order f'.instant
      = x.tracker.adoptFailedSubmit order f'.instant := by
    unfold OrderTracker.adoptFailedSubmit
    rw [pruneFailedSubmits_twice x.tracker h]
  have user (id : Nat) : (verifyUserOrder (x.tracker.pruneFailedSubmits now) p x.config.partyId id
        { f' with trackerSeen := x.tracker.pruneFailedSubmits now }).1
      = (verifyUserOrder x.tracker p x.config.partyId id { f' with trackerSeen := x.tracker }).1 := by
    unfold verifyUserOrder
    dsimp only
    cases f'.lookup with
    | error e => rfl
    | ok orders =>
      dsimp only
      cases orders.find? fun o => decide (o.orderId = id) with
      | none => rfl
      | some order =>
        dsimp only
        rw [adopted]
  unfold verifyOrderProposal
  dsimp only
  rw [settlement]
  split
  · rfl
  · rfl
  · rfl
  · rename_i id _
    have same := user id
    revert same
    cases verifyUserOrder (x.tracker.pruneFailedSubmits now) p x.config.partyId id
      { f' with trackerSeen := x.tracker.pruneFailedSubmits now }
    cases verifyUserOrder x.tracker p x.config.partyId id { f' with trackerSeen := x.tracker }
    rintro rfl
    dsimp only
    split <;> rfl

omit [SignatureCrates] in
/-- A submit that is adopted is tracked; otherwise old submits are forgotten at most. -/
theorem adoptFailedSubmit_cases (t : OrderTracker D) (order : Order) (now : Instant) :
    (t.adoptFailedSubmit order now = (false, t.pruneFailedSubmits now)) ∨
      (order.orderId ∉ t.orders ∧ (t.adoptFailedSubmit order now).1 = true ∧
        order.orderId ∈ (t.adoptFailedSubmit order now).2.orders) := by
  unfold OrderTracker.adoptFailedSubmit
  dsimp only
  split
  · exact .inl rfl
  · rename_i hmem
    split
    · exact .inl rfl
    · split
      · exact .inl rfl
      · exact .inr ⟨hmem, rfl, (AList.mem_insert _).mpr (.inl rfl)⟩

/-- An import tracks the order, or the tracker is as it was. -/
theorem verifyAndImportOrder_cases (t : OrderTracker D) (order : Order) :
    (t.verifyAndImportOrder order p).2 = t ∨
      (order.orderId ∉ t.orders ∧ order.orderId ∈ (t.verifyAndImportOrder order p).2.orders) := by
  have imported : t.importOrderFromServer order = t ∨
      (order.orderId ∉ t.orders ∧ order.orderId ∈ (t.importOrderFromServer order).orders) := by
    unfold OrderTracker.importOrderFromServer
    split
    · exact .inl rfl
    · rename_i hmem
      exact .inr ⟨hmem, (AList.mem_insert _).mpr (.inl rfl)⟩
  unfold OrderTracker.verifyAndImportOrder
  dsimp only
  split
  · exact .inl rfl
  · split
    · exact .inl rfl
    · split_ifs
      · exact .inl rfl
      · exact .inl rfl
      · exact .inl rfl
      · split <;> exact imported

/-- What verifying the named order makes of the tracker. -/
theorem tracker_verifyOrderProposal :
    (x.verifyOrderProposal p f).2.tracker = x.tracker ∨
      (x.verifyOrderProposal p f).2.tracker = x.tracker.pruneFailedSubmits f.instant ∨
      x.NewlyTracked p f := by
  unfold NewlyTracked verifyOrderProposal
  cases hseen : f.trackerSeen.verifySettlement p x.config.partyId f.instant with
  | accepted id => exact .inl rfl
  | rejected reason => exact .inl rfl
  | placementInFlight id => exact .inl rfl
  | needServerLookup id =>
    obtain ⟨hid, -⟩ := OrderTracker.verifySettlement_lookup hseen
    have named : id = x.ourOrder p := hid
    have tracked : ((verifyUserOrder x.tracker p x.config.partyId id f).2 = x.tracker) ∨
        ((verifyUserOrder x.tracker p x.config.partyId id f).2
          = x.tracker.pruneFailedSubmits f.instant) ∨
        (id ∉ x.tracker.orders ∧
          id ∈ (verifyUserOrder x.tracker p x.config.partyId id f).2.orders) := by
      unfold verifyUserOrder
      split
      · exact .inl rfl
      · split
        · exact .inl rfl
        · rename_i order hfind
          have hid := List.find?_some hfind
          have found : order.orderId = id := of_decide_eq_true hid
          rcases adoptFailedSubmit_cases x.tracker order f.instant with hpruned | ⟨hmem, hadopt, hnow⟩
          · rw [hpruned]
            dsimp only
            rw [if_neg Bool.false_ne_true]
            rcases verifyAndImportOrder_cases (p := p) (x.tracker.pruneFailedSubmits f.instant) order with
              same | ⟨hmem, hnow⟩
            · exact .inr (.inl same)
            · rw [found] at hmem hnow
              exact .inr (.inr ⟨hmem, hnow⟩)
          · rw [found] at hmem hnow
            dsimp only
            rw [if_pos hadopt]
            refine .inr (.inr ⟨hmem, ?_⟩)
            split <;> exact hnow
    dsimp only
    rw [← named]
    split <;> exact tracked

/-! ## What a drop uses up -/

omit [SignatureCrates] in
theorem reachesTerms_iff : x.reachesTerms p f = true ↔ x.passesGates p f = true ∧
    x.config.noReject = false ∧ x.config.rfqV2Only = false ∧
      x.tracker.hasSettlementOrder p.proposalId = false := by
  unfold reachesTerms
  simp only [Bool.and_eq_true, Bool.not_eq_true', and_assoc]

theorem handIn_of_reachesTerms (h : x.reachesTerms p f = true) :
    x.handIn p f = x.checkTerms p { f with trackerSeen := x.tracker } := by
  obtain ⟨hgates, hreject, hrfq, hrecord⟩ := reachesTerms_iff.mp h
  exact handle_of_passesGates hreject hrfq hrecord hgates

theorem handIn_of_refusesAmounts (h : x.refusesAmounts p = true) :
    x.handIn p f = ((x.markFailed p.proposalId).releaseCommitment p.proposalId).rejectProposal
      p.proposalId f.rejectSent := by
  unfold refusesAmounts at h
  simp only [Bool.and_eq_true, decide_eq_true_eq, Option.isNone_iff_eq_none, Bool.or_eq_true] at h
  obtain ⟨⟨⟨⟨⟨hactive, hcompleted⟩, hrejected⟩, hsettled⟩, hours⟩, himplausible⟩ := h
  unfold handIn handleProposalCreated
  have ours : ¬ (x.config.isBuyer p = false ∧ x.config.isSeller p = false) := by
    rintro ⟨hbuyer, hseller⟩
    rw [hbuyer, hseller] at hours
    exact hours.elim Bool.false_ne_true Bool.false_ne_true
  rw [if_neg (by rintro (h | h | h) <;> contradiction), hsettled]
  simp only [Option.isSome_none, Bool.false_eq_true, if_false, ours, himplausible, if_true]

/-- What a state that differs in its tracker only keeps. -/
theorem losesNothing_of_tracker {t : OrderTracker D}
    (hdropped : ∀ f' : ProposalFeed D, f.instant ≤ f'.instant →
      ({ x with tracker := t }.verifyOrderProposal p { f' with trackerSeen := t }).1
        = (x.verifyOrderProposal p { f' with trackerSeen := x.tracker }).1)
    (hrecords : t.settlementOrders = x.tracker.settlementOrders) {point : AwaitPoint}
    (hpoint : x.droppedAt p f point = { x with tracker := t }) :
    x.LosesNothing (.proposalCreated p f) point := by
  unfold LosesNothing droppedUpdate
  dsimp only
  change (∀ f', f.instant ≤ f'.instant → Alike (x.handIn p f') ((x.droppedAt p f point).handIn p f')
    p.proposalId) ∧ _
  rw [hpoint]
  exact ⟨fun f' hlater => alike_handIn hrecords (hdropped f' hlater), rfl, .inr (by rw [hrecords])⟩

/-- An update that is dropped before it changed anything. -/
theorem losesNothing_of_same {point : AwaitPoint} (hpoint : x.droppedAt p f point = x) :
    x.LosesNothing (.proposalCreated p f) point :=
  losesNothing_of_tracker (t := x.tracker) (fun _ _ => rfl) rfl hpoint

theorem losesNothing_of_verified {point : AwaitPoint} (hnew : ¬ x.NewlyTracked p f)
    (hpoint : x.droppedAt p f point = (x.verifyOrderProposal p f).2) :
    x.LosesNothing (.proposalCreated p f) point := by
  rw [verifyOrderProposal_snd] at hpoint
  rcases tracker_verifyOrderProposal (x := x) (p := p) (f := f) with same | pruned | tracked
  · rw [same] at hpoint
    exact losesNothing_of_same hpoint
  · rw [pruned] at hpoint
    exact losesNothing_of_tracker (fun f' hlater => verdict_pruned hlater) rfl hpoint
  · exact absurd tracked hnew

omit [ValuedAmount D] [SignatureCrates] in
/-- A record that does not match is taken and fails the proposal. -/
theorem verifyRfqProposal_mismatch {trade : AcceptedRfqTrade}
    (htrade : (x.acceptedRfqTrades.bind fun trades => trades.lookup p.proposalId) = some trade) :
    x.verifyRfqProposal p = (trade.matches p,
      { x with acceptedRfqTrades := x.acceptedRfqTrades.map (·.erase p.proposalId) }) := by
  unfold verifyRfqProposal
  rw [htrade]

omit [ValuedAmount D] [SignatureCrates] in
/-- Without a record of the proposal's id the quotes decide. -/
theorem verifyRfqProposal_quoted
    (hnone : (x.acceptedRfqTrades.bind fun trades => trades.lookup p.proposalId) = none) :
    (∃ i trades, x.quotedRfqTrades = some trades ∧ (trades.findIdx? fun t => t.matches p) = some i ∧
      x.verifyRfqProposal p = (true, { x with quotedRfqTrades := some (swapRemove trades i) })) ∨
    ((∀ trades trade, x.quotedRfqTrades = some trades → trade ∈ trades → trade.matches p = false) ∧
      x.verifyRfqProposal p = (false, x)) := by
  unfold verifyRfqProposal
  rw [hnone]
  dsimp only
  cases hquoted : x.quotedRfqTrades with
  | none => exact .inr ⟨fun trades trade h => (by cases h), rfl⟩
  | some trades =>
    dsimp only
    cases hfind : trades.findIdx? fun t => t.matches p with
    | none =>
      refine .inr ⟨fun trades' trade h htrade => ?_, rfl⟩
      obtain rfl := Option.some.inj h
      exact List.findIdx?_eq_none_iff.mp hfind trade htrade
    | some i => exact .inl ⟨i, trades, rfl, hfind, rfl⟩

omit [ValuedAmount D] [SignatureCrates] in
theorem lookup_accepted_erased :
    ((x.acceptedRfqTrades.map (·.erase p.proposalId)).bind fun trades => trades.lookup p.proposalId)
      = none := by
  cases x.acceptedRfqTrades with
  | none => rfl
  | some trades => exact AList.lookup_erase _ _

omit [SignatureCrates] in
/-- Without a liquidity manager the gates do not depend on what the world answers. -/
theorem reachesTerms_unmanaged (hlm : x.liquidityManager = none) (h : x.reachesTerms p f = true) :
    x.reachesTerms p f' = true := by
  obtain ⟨hgates, hrest⟩ := reachesTerms_iff.mp h
  refine reachesTerms_iff.mpr ⟨?_, hrest⟩
  have gate (f : ProposalFeed D) : x.liquidityGate p f = .passed := by
    unfold liquidityGate
    rw [hlm]
  unfold passesGates at hgates ⊢
  rw [gate] at hgates ⊢
  exact hgates

/-- A record that does not match is not missed where the retry fails as well. -/
theorem losesNothing_of_mismatch {trade : AcceptedRfqTrade} {point : AwaitPoint}
    (hreach : x.reachesTerms p f = true) (hmatch : p.orderMatch = none)
    (htrade : (x.acceptedRfqTrades.bind fun trades => trades.lookup p.proposalId) = some trade)
    (hfails : trade.matches p = false) (hlm : x.liquidityManager = none)
    (hquotes : ∀ trades trade, x.quotedRfqTrades = some trades → trade ∈ trades →
      trade.matches p = false)
    (hpoint : x.droppedAt p f point = (x.verifyRfqProposal p).2) :
    x.LosesNothing (.proposalCreated p f) point := by
  let y : SettlementExecutor D :=
    { x with acceptedRfqTrades := x.acceptedRfqTrades.map (·.erase p.proposalId) }
  have verified := verifyRfqProposal_mismatch htrade
  have again : y.verifyRfqProposal p = (false, y) := by
    rcases verifyRfqProposal_quoted (x := y) (p := p) lookup_accepted_erased with
      ⟨i, trades, htrades, hfind, -⟩ | ⟨-, hfalse⟩
    · obtain ⟨hlt, hquote, -⟩ := List.findIdx?_eq_some_iff_getElem.mp hfind
      rw [hquotes trades _ htrades (List.getElem_mem hlt)] at hquote
      cases hquote
    · exact hfalse
  rw [verified] at hpoint
  change x.droppedAt p f point = y at hpoint
  unfold LosesNothing droppedUpdate
  dsimp only
  change (∀ f', f.instant ≤ f'.instant → Alike (x.handIn p f') ((x.droppedAt p f point).handIn p f')
    p.proposalId) ∧ _
  rw [hpoint]
  refine ⟨fun f' _ => ?_, rfl, .inr rfl⟩
  have reach : x.reachesTerms p f' = true := reachesTerms_unmanaged hlm hreach
  have reach' : y.reachesTerms p f' = true := reach
  rw [handIn_of_reachesTerms reach, handIn_of_reachesTerms reach']
  unfold checkTerms
  rw [hmatch]
  dsimp only
  rw [verified, again, hfails]
  exact .refl _ _

/-- A drop that uses nothing up loses nothing. -/
theorem losesNothing_of_not_usesUp {point : AwaitPoint} (h : ¬ x.UsesUp p f point) :
    x.LosesNothing (.proposalCreated p f) point := by
  cases point with
  | early => exact losesNothing_of_same rfl
  | rejecting =>
    by_cases hrefuses : x.refusesAmounts p = true
    · let y := (x.markFailed p.proposalId).releaseCommitment p.proposalId
      have hpoint : x.droppedAt p f .rejecting = y := by
        unfold droppedAt
        rw [if_pos hrefuses]
      have gone (z : SettlementExecutor D) :
          (z.markFailed p.proposalId).tracker.settlementOrders.lookup p.proposalId = none :=
        (lookup_settlementOrders_markFailed z.tracker).trans (if_pos rfl)
      unfold LosesNothing droppedUpdate
      dsimp only
      change (∀ f', f.instant ≤ f'.instant →
        Alike (x.handIn p f') ((x.droppedAt p f .rejecting).handIn p f') p.proposalId) ∧ _
      rw [hpoint]
      refine ⟨fun f' _ => ?_, rfl, .inl (gone x)⟩
      have hrefuses' : y.refusesAmounts p = true := hrefuses
      rw [handIn_of_refusesAmounts hrefuses, handIn_of_refusesAmounts hrefuses']
      have alike : Alike ((x.markFailed p.proposalId).releaseCommitment p.proposalId)
          ((y.markFailed p.proposalId).releaseCommitment p.proposalId) p.proposalId :=
        ⟨rfl, Iff.rfl, Iff.rfl, (gone x).trans (gone y).symm, rfl, rfl⟩
      exact alike.rejectProposal
    · by_cases hreach : x.reachesTerms p f = true
      case neg =>
        refine losesNothing_of_same ?_
        unfold droppedAt
        rw [if_neg hrefuses, if_neg hreach]
      cases hmatch : p.orderMatch with
      | none =>
        cases htrade : x.acceptedRfqTrades.bind fun trades => trades.lookup p.proposalId with
        | none =>
          refine losesNothing_of_same ?_
          unfold droppedAt
          rw [if_neg hrefuses, if_pos hreach, hmatch]
          dsimp only
          rcases verifyRfqProposal_quoted htrade with ⟨i, trades, -, -, hverify⟩ | ⟨-, hverify⟩
          · rw [hverify]
          · rw [hverify]
        | some trade =>
          have verified := verifyRfqProposal_mismatch htrade
          cases hfails : trade.matches p with
          | true =>
            refine losesNothing_of_same ?_
            unfold droppedAt
            rw [if_neg hrefuses, if_pos hreach, hmatch]
            dsimp only
            rw [verified, hfails]
          | false =>
            have unused : ¬ (x.liquidityManager.isSome = true ∨ ∃ trades trade,
                x.quotedRfqTrades = some trades ∧ trade ∈ trades ∧ trade.matches p = true) := by
              intro hused
              refine h ⟨hreach, ?_⟩
              rw [hmatch]
              exact ⟨trade, htrade, hfails, hused⟩
            rw [not_or] at unused
            refine losesNothing_of_mismatch hreach hmatch htrade hfails
              (Option.not_isSome_iff_eq_none.mp unused.1) (fun trades trade htrades hmem => ?_) ?_
            · rw [← Bool.not_eq_true]
              exact fun hquote => unused.2 ⟨trades, trade, htrades, hmem, hquote⟩
            · unfold droppedAt
              rw [if_neg hrefuses, if_pos hreach, hmatch]
              dsimp only
              rw [verified, hfails]
      | some om =>
        cases hverify : x.verifyOrderProposal p f with
        | mk verdict y =>
          have dropped : x.droppedAt p f .rejecting = x ∨
              (verdict = .rejected ∧ x.droppedAt p f .rejecting = y) := by
            unfold droppedAt
            rw [if_neg hrefuses, if_pos hreach, hmatch]
            dsimp only
            rw [hverify]
            cases verdict with
            | rejected => exact .inr ⟨rfl, rfl⟩
            | accepted id => exact .inl rfl
            | held => exact .inl rfl
          rcases dropped with same | ⟨rfl, hpoint⟩
          · exact losesNothing_of_same same
          · refine losesNothing_of_verified (fun hnew => h ⟨hreach, ?_⟩) (by rw [hpoint, hverify])
            rw [hmatch]
            exact ⟨⟨y, hverify⟩, hnew⟩
  | recording =>
    by_cases hreach : x.reachesTerms p f = true
    case neg =>
      refine losesNothing_of_same ?_
      unfold droppedAt
      dsimp only
      rw [if_neg hreach]
    cases hmatch : p.orderMatch with
    | none =>
      have unverified : (x.verifyRfqProposal p).1 = false := by
        rw [verifyRfqProposal_fst, ← Bool.not_eq_true]
        intro hrecord
        refine h ⟨hreach, ?_⟩
        rw [hmatch]
        exact hrecord
      refine losesNothing_of_same ?_
      unfold droppedAt
      dsimp only
      rw [if_pos hreach, hmatch]
      dsimp only
      cases hverify : x.verifyRfqProposal p with
      | mk verified y =>
        rw [hverify] at unverified
        obtain rfl : verified = false := unverified
        rfl
    | some om =>
      cases hverify : x.verifyOrderProposal p f with
      | mk verdict y =>
        have dropped : x.droppedAt p f .recording = x ∨
            ((∃ id, verdict = .accepted id) ∧ x.droppedAt p f .recording = y) := by
          unfold droppedAt
          dsimp only
          rw [if_pos hreach, hmatch]
          dsimp only
          rw [hverify]
          cases verdict with
          | accepted id => exact .inr ⟨⟨id, rfl⟩, rfl⟩
          | rejected => exact .inl rfl
          | held => exact .inl rfl
        rcases dropped with same | ⟨⟨id, rfl⟩, hpoint⟩
        · exact losesNothing_of_same same
        · refine losesNothing_of_verified (fun hnew => h ⟨hreach, ?_⟩) (by rw [hpoint, hverify])
          rw [hmatch]
          exact ⟨⟨id, y, hverify⟩, hnew⟩

/-! ## What is used up is missed -/

omit [SignatureCrates] in
theorem parts_of_reachesTerms (h : x.reachesTerms p f = true) :
    p.proposalId ∉ x.activeSettlements ∧ p.proposalId ∉ x.rejectedProposals ∧
      (implausibleAmount D p).isNone = true ∧ x.liquidityGate p f = .passed := by
  have hgates := (reachesTerms_iff.mp h).1
  unfold passesGates at hgates
  simp only [Bool.and_eq_true, decide_eq_true_eq] at hgates
  exact ⟨hgates.1.1.1.1.1.1.1.1, hgates.1.1.1.1.1.1.2, hgates.1.1.1.2, hgates.2⟩

omit [SignatureCrates] in
theorem not_refusesAmounts (h : x.reachesTerms p f = true) : ¬ x.refusesAmounts p = true := by
  intro hrefuses
  have himplausible := (parts_of_reachesTerms h).2.2.1
  unfold refusesAmounts at hrefuses
  rw [Bool.and_eq_true] at hrefuses
  rw [Option.isNone_iff_eq_none.mp himplausible] at hrefuses
  cases hrefuses.2

omit [SignatureCrates] in
theorem active_adopt {id : Nat} {through : Bool} :
    ((x.adopt p id through).activeSettlements.lookup p.proposalId).isSome = true := by
  rw [AList.lookup_isSome]
  exact mem_active_adopt

omit [ValuedAmount D] [SignatureCrates] in
theorem active_rejectProposal (h : pid ∉ x.activeSettlements) {sent : Bool} :
    (x.rejectProposal pid sent).activeSettlements.lookup pid = none :=
  AList.lookup_eq_none.mpr fun hmem => h (mem_active_rejectProposal hmem).2

/-- The instance that is adopted on a trade whose record is gone already, if at all, is adopted on
another one. -/
theorem not_alike_adopt (hreach : y.reachesTerms p f = true) (hmatch : p.orderMatch = none)
    (hnone : (y.acceptedRfqTrades.bind fun trades => trades.lookup p.proposalId) = none) :
    ¬ Alike (y.adopt p 0 false) (y.handIn p f) p.proposalId := by
  intro alike
  have inactive := (parts_of_reachesTerms hreach).1
  rw [handIn_of_reachesTerms hreach] at alike
  unfold checkTerms at alike
  rw [hmatch] at alike
  dsimp only at alike
  rcases verifyRfqProposal_quoted hnone with ⟨i, trades, htrades, hfind, hverify⟩ | ⟨-, hverify⟩
  · rw [hverify] at alike
    have same : y.quotedRfqTrades = some (swapRemove trades i) := alike.quoted
    rw [htrades] at same
    have shorter := perm_swapRemove trades (List.findIdx?_eq_some_iff_getElem.mp hfind).1
    rw [← Option.some.inj same] at shorter
    exact absurd shorter.length_eq (Nat.ne_of_lt (Nat.lt_succ_self _))
  · rw [hverify] at alike
    have same := alike.active
    rw [active_rejectProposal inactive] at same
    have adopted : ((y.adopt p 0 false).activeSettlements.lookup p.proposalId).isSome = true :=
      active_adopt
    rw [same] at adopted
    cases adopted

/-- A balance that is stale holds the proposal back. -/
theorem handIn_stale (hreach : x.reachesTerms p f = true) (hlm : x.liquidityManager.isSome = true) :
    x.handIn p { f with balanceStale := true } = x := by
  obtain ⟨hgates, hreject, hrfq, hrecord⟩ := reachesTerms_iff.mp hreach
  obtain ⟨lm, hlm⟩ := Option.isSome_iff_exists.mp hlm
  have ready : ¬ lm.isReady = false := by
    intro hunready
    have gate := (parts_of_reachesTerms hreach).2.2.2
    unfold liquidityGate at gate
    rw [hlm] at gate
    dsimp only at gate
    rw [if_pos hunready] at gate
    cases gate
  have held : x.liquidityGate p { f with balanceStale := true, trackerSeen := x.tracker } = .held := by
    unfold liquidityGate
    rw [hlm]
    dsimp only
    rw [if_neg ready, if_pos rfl]
  unfold passesGates at hgates
  simp only [Bool.and_eq_true, decide_eq_true_eq, Bool.not_eq_true', Option.isNone_iff_eq_none,
    Bool.or_eq_true] at hgates
  obtain ⟨⟨⟨⟨⟨⟨⟨⟨hactive, hcompleted⟩, hrejected⟩, hsettled⟩, hours⟩, hplausible⟩, hrunning⟩, hcap⟩, -⟩ :=
    hgates
  have ours : ¬ (x.config.isBuyer p = false ∧ x.config.isSeller p = false) := by
    rintro ⟨hbuyer, hseller⟩
    rw [hbuyer, hseller] at hours
    exact hours.elim Bool.false_ne_true Bool.false_ne_true
  unfold handIn handleProposalCreated vet
  rw [if_neg (by rintro (h | h | h) <;> contradiction), hsettled, hplausible, hrunning, hreject, hrfq,
    hrecord, held]
  simp only [Option.isSome_none, Bool.false_eq_true, if_false, not_le.mpr hcap, ours]

theorem not_losesNothing_of_mismatch {trade : AcceptedRfqTrade} (hreach : x.reachesTerms p f = true)
    (hmatch : p.orderMatch = none)
    (htrade : (x.acceptedRfqTrades.bind fun trades => trades.lookup p.proposalId) = some trade)
    (hfails : trade.matches p = false)
    (hused : x.liquidityManager.isSome = true ∨
      ∃ trades trade, x.quotedRfqTrades = some trades ∧ trade ∈ trades ∧ trade.matches p = true) :
    ¬ x.LosesNothing (.proposalCreated p f) .rejecting := by
  let y : SettlementExecutor D :=
    { x with acceptedRfqTrades := x.acceptedRfqTrades.map (·.erase p.proposalId) }
  have verified : x.verifyRfqProposal p = (false, y) := by
    rw [verifyRfqProposal_mismatch htrade, hfails]
  have hpoint : x.droppedAt p f .rejecting = y := by
    unfold droppedAt
    dsimp only
    rw [if_neg (not_refusesAmounts hreach), if_pos hreach, hmatch]
    dsimp only
    rw [verified]
  have reach : y.reachesTerms p f = true := hreach
  rintro ⟨hretry, -⟩
  change ∀ f', f.instant ≤ f'.instant → Alike (x.handIn p f') ((x.droppedAt p f .rejecting).handIn p f')
    p.proposalId at hretry
  rw [hpoint] at hretry
  rcases hused with hlm | ⟨trades, quote, htrades, hmem, hquote⟩
  · have alike := hretry { f with balanceStale := true } le_rfl
    rw [handIn_stale hreach hlm, handIn_stale reach hlm] at alike
    have same : x.acceptedRfqTrades = x.acceptedRfqTrades.map (·.erase p.proposalId) := alike.accepted
    rw [same, lookup_accepted_erased] at htrade
    cases htrade
  · have alike := hretry f le_rfl
    rw [handIn_of_reachesTerms hreach, handIn_of_reachesTerms reach] at alike
    unfold checkTerms at alike
    rw [hmatch] at alike
    dsimp only at alike
    rw [verified] at alike
    rcases verifyRfqProposal_quoted (x := y) (p := p) lookup_accepted_erased with
      ⟨i, trades', -, -, hverify⟩ | ⟨hnone, -⟩
    · rw [hverify] at alike
      have same := alike.active
      rw [active_rejectProposal (x := y) (parts_of_reachesTerms hreach).1] at same
      have adopted : ((adopt { y with quotedRfqTrades := some (swapRemove trades' i) } p 0
          false).activeSettlements.lookup p.proposalId).isSome = true := active_adopt
      rw [← same] at adopted
      cases adopted
    · rw [hnone trades quote htrades hmem] at hquote
      cases hquote

theorem not_losesNothing_of_trade (hreach : x.reachesTerms p f = true) (hmatch : p.orderMatch = none)
    (hrecord : (x.rfqRecord p).isSome = true) :
    ¬ x.LosesNothing (.proposalCreated p f) .recording := by
  have verified : (x.verifyRfqProposal p).1 = true := verifyRfqProposal_fst.trans hrecord
  cases hverify : x.verifyRfqProposal p with
  | mk ok y =>
    rw [hverify] at verified
    obtain rfl : ok = true := verified
    have hpoint : x.droppedAt p f .recording = y := by
      unfold droppedAt
      dsimp only
      rw [if_pos hreach, hmatch]
      dsimp only
      rw [hverify]
    have used : (y.acceptedRfqTrades.bind fun trades => trades.lookup p.proposalId) = none ∧
        y.reachesTerms p f = true := by
      cases htrade : x.acceptedRfqTrades.bind fun trades => trades.lookup p.proposalId with
      | some trade =>
        rw [verifyRfqProposal_mismatch htrade] at hverify
        obtain rfl := (Prod.mk.inj hverify).2
        exact ⟨lookup_accepted_erased, hreach⟩
      | none =>
        rcases verifyRfqProposal_quoted htrade with ⟨i, trades, -, -, hquote⟩ | ⟨-, hquote⟩
        · rw [hquote] at hverify
          obtain rfl := (Prod.mk.inj hverify).2
          exact ⟨htrade, hreach⟩
        · rw [hquote] at hverify
          cases hverify
    rintro ⟨hretry, -⟩
    change ∀ f', f.instant ≤ f'.instant →
      Alike (x.handIn p f') ((x.droppedAt p f .recording).handIn p f') p.proposalId at hretry
    rw [hpoint] at hretry
    have alike := hretry f le_rfl
    rw [handIn_of_reachesTerms hreach] at alike
    unfold checkTerms at alike
    rw [hmatch] at alike
    dsimp only at alike
    rw [hverify] at alike
    exact not_alike_adopt used.2 hmatch used.1 alike

/-- A tracked order is accepted or rejected. -/
theorem verifySettlement_tracked {t : OrderTracker D} {party : String} {om : OrderMatch}
    (hmatch : p.orderMatch = some om) (htracked : namedOrder p (decide (p.buyer = party)) ∈ t.orders)
    (now : Instant) :
    (∃ id, t.verifySettlement p party now = .accepted id) ∨
      ∃ reason, t.verifySettlement p party now = .rejected reason := by
  have named : namedOrder p (decide (p.buyer = party))
      = if p.buyer = party then om.bidOrderId else om.offerOrderId := by
    unfold namedOrder
    rw [hmatch]
    simp only [decide_eq_true_eq]
  rw [named] at htracked
  obtain ⟨order, horder⟩ := Pool.mem_iff_lookup.mp htracked
  have judged (id : Nat) : (∃ other, t.verifyTrackedOrder order p id = .accepted other) ∨
      ∃ reason, t.verifyTrackedOrder order p id = .rejected reason := by
    unfold OrderTracker.verifyTrackedOrder checkCapacity
    dsimp only
    split
    · exact .inr ⟨_, rfl⟩
    · split_ifs
      · exact .inr ⟨_, rfl⟩
      · exact .inr ⟨_, rfl⟩
      · exact .inr ⟨_, rfl⟩
      · split
        · exact .inr ⟨_, rfl⟩
        · split_ifs
          · exact .inr ⟨_, rfl⟩
          · exact .inl ⟨_, rfl⟩
  unfold OrderTracker.verifySettlement
  rw [hmatch]
  dsimp only
  rw [horder]
  exact judged _

/-- An order that is not tracked and cannot be looked up holds the proposal. -/
theorem verifyOrderProposal_untracked {om : OrderMatch} {e : String} (hmatch : p.orderMatch = some om)
    (huntracked : x.ourOrder p ∉ f.trackerSeen.orders) (hlookup : f.lookup = .error e) :
    x.verifyOrderProposal p f = (.held, x) := by
  have unknown : f.trackerSeen.orders.lookup
      (if p.buyer = x.config.partyId then om.bidOrderId else om.offerOrderId) = none := by
    have named : x.ourOrder p
        = if p.buyer = x.config.partyId then om.bidOrderId else om.offerOrderId := by
      unfold ourOrder namedOrder SettlementConfig.isBuyer
      rw [hmatch]
      simp only [decide_eq_true_eq]
    rw [← named]
    exact AList.lookup_eq_none.mpr huntracked
  unfold verifyOrderProposal OrderTracker.verifySettlement
  rw [hmatch]
  dsimp only
  rw [unknown]
  dsimp only
  by_cases hplacing : (f.trackerSeen.placementInFlight p.marketId ||
      f.trackerSeen.submitFailedRecently p.marketId f.instant) = true
  · rw [if_pos hplacing]
  · rw [if_neg hplacing]
    dsimp only
    unfold verifyUserOrder
    rw [hlookup]

theorem not_losesNothing_of_tracked {om : OrderMatch} {point : AwaitPoint}
    (hreach : x.reachesTerms p f = true) (hmatch : p.orderMatch = some om)
    (hnew : x.NewlyTracked p f) (hpoint : x.droppedAt p f point = (x.verifyOrderProposal p f).2) :
    ¬ x.LosesNothing (.proposalCreated p f) point := by
  let t := (x.verifyOrderProposal p f).2.tracker
  let y : SettlementExecutor D := { x with tracker := t }
  let f' : ProposalFeed D := { f with lookup := .error "", rejectSent := true }
  have records : t.settlementOrders = x.tracker.settlementOrders := verifyOrderProposal_frame.1
  have shape : (x.verifyOrderProposal p f).2 = y := verifyOrderProposal_snd
  rw [shape] at hpoint
  have reach : x.reachesTerms p f' = true := hreach
  have reach' : y.reachesTerms p f' = true := by
    obtain ⟨hgates, hreject, hrfq, hrecord⟩ := reachesTerms_iff.mp hreach
    refine reachesTerms_iff.mpr ⟨hgates, hreject, hrfq, ?_⟩
    unfold OrderTracker.hasSettlementOrder at hrecord ⊢
    rw [← hrecord]
    change decide (p.proposalId ∈ t.settlementOrders) = _
    rw [records]
  obtain ⟨inactive, unrejected, -, -⟩ := parts_of_reachesTerms hreach
  rintro ⟨hretry, -⟩
  change ∀ f', f.instant ≤ f'.instant → Alike (x.handIn p f') ((x.droppedAt p f point).handIn p f')
    p.proposalId at hretry
  rw [hpoint] at hretry
  have alike := hretry f' le_rfl
  rw [handIn_of_reachesTerms reach, handIn_of_reachesTerms reach'] at alike
  unfold checkTerms at alike
  rw [hmatch] at alike
  dsimp only at alike
  rw [verifyOrderProposal_untracked (x := x) (f := { f' with trackerSeen := x.tracker }) hmatch hnew.1
    rfl] at alike
  dsimp only at alike
  have tracked : namedOrder p (decide (p.buyer = y.config.partyId)) ∈ y.tracker.orders := hnew.2
  have verdict : (∃ id, y.verifyOrderProposal p { f' with trackerSeen := y.tracker } = (.accepted id, y)) ∨
      y.verifyOrderProposal p { f' with trackerSeen := y.tracker } = (.rejected, y) := by
    unfold verifyOrderProposal
    rcases verifySettlement_tracked hmatch tracked f'.instant with ⟨id, hid⟩ | ⟨reason, hreason⟩
    · exact .inl ⟨id, by dsimp only; rw [hid]⟩
    · exact .inr (by dsimp only; rw [hreason])
  rcases verdict with ⟨id, hverdict⟩ | hverdict
  · rw [hverdict] at alike
    have same := alike.active
    rw [AList.lookup_eq_none.mpr inactive] at same
    have adopted : ((y.adopt p id true).activeSettlements.lookup p.proposalId).isSome = true :=
      active_adopt
    rw [← same] at adopted
    cases adopted
  · rw [hverdict] at alike
    have rejected : p.proposalId ∈ (y.rejectProposal p.proposalId true).rejectedProposals :=
      Finset.mem_insert_self _ _
    exact unrejected (alike.rejected.mpr rejected)

/-- An update that is dropped loses nothing exactly if it had not used up a trade record or
the lookup of an order. -/
theorem losesNothing_iff (x : SettlementExecutor D) (update : StreamUpdate D) (point : AwaitPoint) :
    x.LosesNothing update point ↔ ¬ x.UpdateUsesUp point update := by
  cases update with
  | settled p => exact ⟨fun _ => id, fun _ => ⟨fun _ _ => .refl _ _, rfl, .inr rfl⟩⟩
  | ended p => exact ⟨fun _ => id, fun _ => ⟨fun _ _ => .refl _ _, rfl, .inr rfl⟩⟩
  | statusChanged p => exact ⟨fun _ => id, fun _ => ⟨fun _ _ => .refl _ _, rfl, .inr rfl⟩⟩
  | proposalCreated p f =>
    refine ⟨fun hloses hused => ?_, losesNothing_of_not_usesUp⟩
    change x.UsesUp p f point at hused
    cases point with
    | early => exact hused
    | rejecting =>
      obtain ⟨hreach, hused⟩ := hused
      cases hmatch : p.orderMatch with
      | none =>
        rw [hmatch] at hused
        obtain ⟨trade, htrade, hfails, hretry⟩ := hused
        exact not_losesNothing_of_mismatch hreach hmatch htrade hfails hretry hloses
      | some om =>
        rw [hmatch] at hused
        obtain ⟨⟨y, hverify⟩, hnew⟩ := hused
        refine not_losesNothing_of_tracked hreach hmatch hnew ?_ hloses
        unfold droppedAt
        dsimp only
        rw [if_neg (not_refusesAmounts hreach), if_pos hreach, hmatch]
        dsimp only
        rw [hverify]
    | recording =>
      obtain ⟨hreach, hused⟩ := hused
      cases hmatch : p.orderMatch with
      | none =>
        rw [hmatch] at hused
        exact not_losesNothing_of_trade hreach hmatch hused hloses
      | some om =>
        rw [hmatch] at hused
        obtain ⟨⟨id, y, hverify⟩, hnew⟩ := hused
        refine not_losesNothing_of_tracked hreach hmatch hnew ?_ hloses
        unfold droppedAt
        dsimp only
        rw [if_pos hreach, hmatch]
        dsimp only
        rw [hverify]

end SettlementExecutor

/-! ## A trade that is lost -/

namespace SettlementExecutor

section Example

local instance droppedCrates : SignatureCrates := signedCrates

/-- "us" has accepted the quote of proposal "q". -/
def expecting : SettlementExecutor Int :=
  { bidding with
    acceptedRfqTrades := some (AList.insert "q" ⟨"A", "5", "4", "20", true⟩ ∅) }

/-- The proposal of that quote. -/
def agreedPurchase : SettlementProposal :=
  { purchase with proposalId := "q", settlementPrice := "5", orderMatch := none, origin := "rfq" }

/-- Dropped while it waits to record the adoption, the update has used up the trade, and the
poll rejects what was agreed. -/
theorem agreed_trade_lost :
    ¬ expecting.LosesNothing (.proposalCreated agreedPurchase (quietFeed expecting)) .recording ∧
      "q" ∈ (expecting.handIn agreedPurchase (quietFeed expecting)).activeSettlements ∧
      "q" ∈ ((expecting.droppedAt agreedPurchase (quietFeed expecting) .recording).handIn
        agreedPurchase (quietFeed expecting)).rejectedProposals := by
  have adopted : "q" ∈ (expecting.handIn agreedPurchase (quietFeed expecting)).activeSettlements := by
    decide +kernel
  have rejected : "q" ∈ ((expecting.droppedAt agreedPurchase (quietFeed expecting) .recording).handIn
      agreedPurchase (quietFeed expecting)).rejectedProposals := by
    decide +kernel
  refine ⟨fun loses => ?_, adopted, rejected⟩
  have alike := loses.1 (quietFeed expecting) le_rfl
  exact absurd (alike.rejected.mpr rejected) (by decide +kernel)

end Example

end SettlementExecutor

end BookAgent.AgentLogic
