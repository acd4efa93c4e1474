import BookAgent.AgentLogic.DroppedUpdates
import BookAgent.AgentLogic.SavedState

/-!
# What a restart keeps

The agreed trades, the adopted settlements and the finished proposals that a restart finds
again.
-/

namespace BookAgent.AgentLogic

open BookAgent.Lib

theorem mem_capDedup_of_length {ids : List String} {id : String} (hlen : ids.length ≤ maxDedupSet)
    (h : id ∈ ids) : id ∈ capDedup ids := by
  unfold capDedup
  rw [Nat.sub_eq_zero_of_le hlen]
  exact h

/-- What is inserted last is kept of the ids in the order they were inserted. -/
theorem getLast_mem_capDedup {ids : List String} (h : ids ≠ []) : ids.getLast h ∈ capDedup ids := by
  unfold capDedup
  have shorter : ids.length - maxDedupSet < ids.length :=
    Nat.sub_lt (List.length_pos_of_ne_nil h) (Nat.zero_lt_succ _)
  have rest : ids.drop (ids.length - maxDedupSet) ≠ [] := by
    rw [ne_eq, List.drop_eq_nil_iff]
    exact not_le.mpr shorter
  rw [← List.getLast_drop rest]
  exact List.getLast_mem rest

/-- Iterated the other way round, a set above the cap loses what was inserted last. -/
theorem getLast_notMem_capDedup_reverse {ids : List String} (hnodup : ids.Nodup) (h : ids ≠ [])
    (hlen : maxDedupSet < ids.length) : ids.getLast h ∉ capDedup ids.reverse := by
  unfold capDedup
  rw [List.length_reverse]
  obtain ⟨k, hk⟩ := Nat.exists_eq_succ_of_ne_zero (Nat.sub_ne_zero_of_lt hlen)
  rw [hk]
  have split : ids.reverse = ids.getLast h :: ids.dropLast.reverse := by
    conv_lhs => rw [← List.dropLast_append_getLast h]
    rw [List.reverse_append, List.reverse_singleton, List.singleton_append]
  have unique : (ids.getLast h :: ids.dropLast.reverse).Nodup := by
    rw [← split]
    exact List.nodup_reverse.mpr hnodup
  rw [split, List.drop_succ_cons]
  exact fun hmem => (List.nodup_cons.mp unique).1 (List.mem_of_mem_drop hmem)

namespace SettlementExecutor

variable {D : Type} [ValuedAmount D] [SignatureCrates] {x y : SettlementExecutor D}

/-- What restarting comes to depends on besides the executor: the process that starts again,
and which locks were free at shutdown. -/
structure Restarting where
  cutoffMs : Nat
  config : SettlementConfig
  privateKey : Except String (List UInt8)
  liquidityManager : Option LiquidityManager
  trackerFree : Bool
  acceptedFree : Bool
  quotedFree : Bool

/-- Shut down, with the two sets iterated in these orders, and start again. -/
def restartWithin (x : SettlementExecutor D) (r : Restarting) (completed rejected : List String) :
    SettlementExecutor D :=
  x.restore (x.snapshotWithin r.trackerFree r.acceptedFree r.quotedFree completed rejected r.cutoffMs)
    r.config r.privateKey r.liquidityManager

/-- The accepted trade of the proposal. -/
def acceptedTrade (x : SettlementExecutor D) (pid : String) : Option AcceptedRfqTrade :=
  x.acceptedRfqTrades.bind fun trades => trades.lookup pid

/-- The proposal can be taken up: it is not finished, the agent's, plausible, and within its
settle window. -/
structure CanResume (y : SettlementExecutor D) (p : SettlementProposal) (f : ProposalFeed D) : Prop where
  unfinished : p.proposalId ∉ y.completedProposals ∧ p.proposalId ∉ y.rejectedProposals
  unsettled : p.settledAt = none
  ours : y.config.isBuyer p = true ∨ y.config.isSeller p = true
  amounts : implausibleAmount D p = none
  oldProtocol : y.config.rfqV2Only = false
  inWindow : y.config.settleWindowPassed p f.now = false

/-- The restart `y` of `x` honours what was agreed, given the two dedup sets in the order their
ids were inserted. -/
structure Honours (x y : SettlementExecutor D) (completed rejected : List String) : Prop where
  /-- An accepted trade whose proposal is still to come is there, and verifies its proposal as
  before. -/
  agreed : ∀ pid trade, x.acceptedTrade pid = some trade → pid ∉ x.tracker.settlementOrders →
    pid ∉ x.completedProposals → pid ∉ x.rejectedProposals →
      y.acceptedTrade pid = some trade ∧
        ∀ p, p.proposalId = pid → (y.verifyRfqProposal p).1 = (x.verifyRfqProposal p).1
  /-- An adopted settlement is on record, and its proposal is taken up. -/
  adopted : ∀ pid e, x.tracker.settlementOrders.lookup pid = some e →
    (∃ e', y.tracker.settlementOrders.lookup pid = some e' ∧ e'.orderId = e.orderId ∧
      e'.reserved = e.reserved) ∧
    ∀ p f, p.proposalId = pid → y.CanResume p f → pid ∈ (y.handleProposalCreated p f).activeSettlements
  completed : ∀ id ∈ capDedup completed, id ∈ y.completedProposals
  rejected : ∀ id ∈ capDedup rejected, id ∈ y.rejectedProposals

/-! ## What is restored -/

theorem settlementOrders_restartWithin (r : Restarting) (completed rejected : List String)
    (pid : String) : (x.restartWithin r completed rejected).tracker.settlementOrders.lookup pid
      = if r.trackerFree then (x.tracker.settlementOrders.lookup pid).map fun e =>
          { e with quantity := Amount.parseOrZero (Amount.print e.quantity) }
        else none := by
  cases hfree : r.trackerFree with
  | false =>
    unfold restartWithin
    rw [hfree]
    rfl
  | true =>
    have restored := Pool.lookup_insertAll_toPairs (p := x.tracker.settlementOrders) (k := pid)
      (f := fun _ (e : SettlementOrderEntry D) =>
        ({ e with quantity := Amount.parseOrZero (Amount.print e.quantity) } : SettlementOrderEntry D))
    rw [if_pos rfl]
    refine Eq.trans ?_ restored
    unfold restartWithin
    rw [hfree]
    change (Pool.insertAll ∅ (List.map _ (List.map _ _))).lookup pid = _
    rw [List.map_map]
    rfl

omit [ValuedAmount D] [SignatureCrates] in
theorem completedProposals_prune (s : SavedAgentState) (cutoffMs : Nat) :
    (s.prune cutoffMs).completedProposals = capDedup s.completedProposals := by
  unfold SavedAgentState.prune
  dsimp only

omit [ValuedAmount D] [SignatureCrates] in
theorem rejectedProposals_prune (s : SavedAgentState) (cutoffMs : Nat) :
    (s.prune cutoffMs).rejectedProposals = capDedup s.rejectedProposals := by
  unfold SavedAgentState.prune
  dsimp only

omit [ValuedAmount D] [SignatureCrates] in
theorem activeProposalIds_prune (s : SavedAgentState) (cutoffMs : Nat) :
    (s.prune cutoffMs).activeProposalIds = s.activeProposalIds := by
  unfold SavedAgentState.prune SavedAgentState.activeProposalIds
  rfl

omit [ValuedAmount D] [SignatureCrates] in
theorem mem_acceptedRfqTrades_prune {s : SavedAgentState} {cutoffMs : Nat}
    {t : String × AcceptedRfqTrade} (h : t ∈ (s.prune cutoffMs).acceptedRfqTrades) :
    t.1 ∈ (s.prune cutoffMs).activeProposalIds := by
  rw [activeProposalIds_prune]
  unfold SavedAgentState.prune at h
  exact of_decide_eq_true (List.mem_filter.mp h).2

/-- Only a proposal on record is saved as one. -/
theorem mem_activeProposalIds_snapshotWithin {trackerFree acceptedFree quotedFree : Bool}
    {completed rejected : List String} {cutoffMs : Nat} {pid : String}
    (h : pid ∈ (x.snapshotWithin trackerFree acceptedFree quotedFree completed rejected
      cutoffMs).activeProposalIds) : pid ∈ x.tracker.settlementOrders := by
  cases trackerFree with
  | false => cases h
  | true =>
    obtain ⟨saved, hsaved, rfl⟩ := List.mem_map.mp h
    obtain ⟨⟨pid, e⟩, hentry, rfl⟩ := List.mem_map.mp hsaved
    exact Pool.mem_iff_lookup.mpr ⟨e, Pool.mem_toPairs.mp hentry⟩

/-- No trade is restored whose proposal is not on record. -/
theorem acceptedTrade_restartWithin {r : Restarting} {completed rejected : List String} {pid : String}
    {trade : AcceptedRfqTrade} (h : (x.restartWithin r completed rejected).acceptedTrade pid = some trade) :
    pid ∈ x.tracker.settlementOrders := by
  obtain ⟨trades, htrades, htrade⟩ := Option.bind_eq_some_iff.mp h
  obtain ⟨old, -, rfl⟩ := Option.map_eq_some_iff.mp htrades
  rcases Pool.lookup_insertAll htrade with hmem | hnone
  · exact mem_activeProposalIds_snapshotWithin (mem_acceptedRfqTrades_prune hmem)
  · cases hnone

theorem completedProposals_restartWithin (r : Restarting) (completed rejected : List String) :
    (x.restartWithin r completed rejected).completedProposals = (capDedup completed).toFinset := by
  unfold restartWithin restore snapshotWithin
  dsimp only
  rw [completedProposals_prune]

theorem rejectedProposals_restartWithin (r : Restarting) (completed rejected : List String) :
    (x.restartWithin r completed rejected).rejectedProposals = (capDedup rejected).toFinset := by
  unfold restartWithin restore snapshotWithin
  dsimp only
  rw [rejectedProposals_prune]

/-- A settlement on record is taken up when its proposal comes. -/
theorem resumes {p : SettlementProposal} {f : ProposalFeed D}
    (hrecord : y.tracker.hasSettlementOrder p.proposalId = true) (h : y.CanResume p f) :
    p.proposalId ∈ (y.handleProposalCreated p f).activeSettlements := by
  unfold handleProposalCreated
  dsimp only
  by_cases hactive : p.proposalId ∈ y.activeSettlements
  · rw [if_pos (.inl hactive)]
    exact hactive
  · have ours : ¬ (y.config.isBuyer p = false ∧ y.config.isSeller p = false) := by
      rintro ⟨hbuyer, hseller⟩
      rcases h.ours with hours | hours
      · exact Bool.false_ne_true (hbuyer.symm.trans hours)
      · exact Bool.false_ne_true (hseller.symm.trans hours)
    rw [if_neg (by rintro (hmem | hmem | hmem); exacts [hactive hmem, h.unfinished.1 hmem,
      h.unfinished.2 hmem]), h.unsettled, h.amounts, h.oldProtocol, hrecord]
    simp only [Option.isSome_none, Bool.false_eq_true, if_false, ours, if_true]
    unfold resume
    rw [h.inWindow]
    exact (AList.mem_insert _).mpr (.inl rfl)

/-! ## When a restart honours what was agreed -/

/-- A restart honours what was agreed, however the sets are iterated, exactly if no accepted
trade waits for its proposal, the tracker can be saved, and no set has outgrown its cap. -/
theorem honours_iff (r : Restarting) {completed rejected : List String}
    (hcompleted : completed.Nodup ∧ completed.toFinset = x.completedProposals)
    (hrejected : rejected.Nodup ∧ rejected.toFinset = x.rejectedProposals) :
    (∀ completed' rejected', completed'.Perm completed → rejected'.Perm rejected →
        Honours x (x.restartWithin r completed' rejected') completed rejected) ↔
      (∀ pid, (x.acceptedTrade pid).isSome = true → pid ∈ x.tracker.settlementOrders ∨
          pid ∈ x.completedProposals ∨ pid ∈ x.rejectedProposals) ∧
        (r.trackerFree = true ∨ x.tracker.settlementOrders = ∅) ∧
        completed.length ≤ maxDedupSet ∧ rejected.length ≤ maxDedupSet := by
  constructor
  · intro honours
    have straight := honours completed rejected (.refl _) (.refl _)
    refine ⟨fun pid hsome => ?_, ?_, ?_, ?_⟩
    · by_contra hwaiting
      rw [not_or, not_or] at hwaiting
      obtain ⟨trade, htrade⟩ := Option.isSome_iff_exists.mp hsome
      have restored := (straight.agreed pid trade htrade hwaiting.1 hwaiting.2.1 hwaiting.2.2).1
      exact hwaiting.1 (acceptedTrade_restartWithin restored)
    · cases hfree : r.trackerFree with
      | true => exact .inl rfl
      | false =>
        refine .inr (AList.ext (List.eq_nil_iff_forall_not_mem.mpr fun entry hentry => ?_))
        have found : x.tracker.settlementOrders.lookup entry.1 = some entry.2 :=
          AList.mem_lookup_iff.mpr hentry
        obtain ⟨⟨e', he', -⟩, -⟩ := straight.adopted entry.1 entry.2 found
        rw [settlementOrders_restartWithin, hfree] at he'
        cases he'
    · by_contra hlong
      have hlen := not_le.mp hlong
      have nonempty : completed ≠ [] := List.ne_nil_of_length_pos (Nat.zero_lt_of_lt hlen)
      have kept := (honours completed.reverse rejected (List.reverse_perm _) (.refl _)).completed _
        (getLast_mem_capDedup nonempty)
      rw [completedProposals_restartWithin, List.mem_toFinset] at kept
      exact getLast_notMem_capDedup_reverse hcompleted.1 nonempty hlen kept
    · by_contra hlong
      have hlen := not_le.mp hlong
      have nonempty : rejected ≠ [] := List.ne_nil_of_length_pos (Nat.zero_lt_of_lt hlen)
      have kept := (honours completed rejected.reverse (.refl _) (List.reverse_perm _)).rejected _
        (getLast_mem_capDedup nonempty)
      rw [rejectedProposals_restartWithin, List.mem_toFinset] at kept
      exact getLast_notMem_capDedup_reverse hrejected.1 nonempty hlen kept
  · rintro ⟨hwaiting, hfree, hclen, hrlen⟩ completed' rejected' hcperm hrperm
    refine ⟨fun pid trade htrade hunrecorded hunfinished hunrejected => ?_, fun pid e he => ?_, ?_, ?_⟩
    · have done := hwaiting pid (by rw [htrade]; rfl)
      exact absurd done (by rintro (h | h | h); exacts [hunrecorded h, hunfinished h, hunrejected h])
    · have restored := settlementOrders_restartWithin (x := x) r completed' rejected' pid
      rcases hfree with hfree | hempty
      · rw [hfree, he] at restored
        refine ⟨⟨_, restored, rfl, rfl⟩, fun p f hpid hresume => ?_⟩
        subst hpid
        exact resumes (decide_eq_true (Pool.mem_iff_lookup.mpr ⟨_, restored⟩)) hresume
      · rw [hempty] at he
        cases he
    · intro id hid
      rw [completedProposals_restartWithin, List.mem_toFinset]
      refine mem_capDedup_of_length (hcperm.length_eq ▸ hclen) ?_
      exact hcperm.mem_iff.mpr (List.mem_of_mem_drop hid)
    · intro id hid
      rw [rejectedProposals_restartWithin, List.mem_toFinset]
      refine mem_capDedup_of_length (hrperm.length_eq ▸ hrlen) ?_
      exact hrperm.mem_iff.mpr (List.mem_of_mem_drop hid)

end SettlementExecutor

/-! ## A trade that is forgotten -/

namespace SettlementExecutor

section Example

local instance savedCrates : SignatureCrates := signedCrates

/-- The same process again, with nothing locked at shutdown. -/
def startAgain (x : SettlementExecutor Int) : Restarting where
  cutoffMs := 0
  config := x.config
  privateKey := .ok []
  liquidityManager := x.liquidityManager
  trackerFree := true
  acceptedFree := true
  quotedFree := true

/-- "q" is adopted, two settlements are done and two have ended, one of them with its trade
still accepted. -/
def wornIn : SettlementExecutor Int :=
  [.proposalCreated agreedPurchase (quietFeed expecting),
    .trades (some (AList.insert "r1" ⟨"A", "5", "4", "20", true⟩ ∅)) none,
    .settled { purchase with proposalId := "d1" } 0,
    .settled { purchase with proposalId := "d2" } 0,
    .ended "r1", .ended "r2"].foldl apply expecting

/-- Shut down with its sets iterated the other way round. -/
theorem honours_iff_wornIn :
    wornIn.tracker.hasSettlementOrder "q" = true ∧
      Honours wornIn (wornIn.restartWithin (startAgain wornIn) ["d2", "d1"] ["r2", "r1"])
        ["d1", "d2"] ["r1", "r2"] := by
  have trades : wornIn.acceptedRfqTrades = some (AList.insert "r1" ⟨"A", "5", "4", "20", true⟩ ∅) :=
    rfl
  have completed : ["d1", "d2"].Nodup ∧ ["d1", "d2"].toFinset = wornIn.completedProposals :=
    ⟨by decide, by decide +kernel⟩
  have rejected : ["r1", "r2"].Nodup ∧ ["r1", "r2"].toFinset = wornIn.rejectedProposals :=
    ⟨by decide, by decide +kernel⟩
  refine ⟨by decide +kernel, (honours_iff (startAgain wornIn) completed rejected).mpr
    ⟨fun pid h => ?_, .inl rfl, by decide, by decide⟩ _ _ (.swap ..) (.swap ..)⟩
  refine .inr (.inr ?_)
  by_cases hpid : pid = "r1"
  · rw [hpid]
    decide +kernel
  · unfold acceptedTrade at h
    rw [trades, Option.bind_some, AList.lookup_insert_ne hpid] at h
    cases h

/-- "us" has accepted the quote of proposal "q", is restarted, and rejects the proposal. -/
theorem accepted_trade_forgotten :
    ¬ Honours expecting (expecting.restartWithin (startAgain expecting) [] []) [] [] ∧
      "q" ∈ (expecting.handleProposalCreated agreedPurchase (quietFeed expecting)).activeSettlements ∧
      "q" ∈ ((expecting.restartWithin (startAgain expecting) [] []).handleProposalCreated agreedPurchase
        (quietFeed (expecting.restartWithin (startAgain expecting) [] []))).rejectedProposals := by
  refine ⟨fun honours => ?_, by decide +kernel, by decide +kernel⟩
  have restored := (honours.agreed "q" _ rfl (by decide +kernel) (by decide +kernel)
    (by decide +kernel)).1
  have onRecord := acceptedTrade_restartWithin restored
  exact absurd onRecord (by decide +kernel)

end Example

end SettlementExecutor

end BookAgent.AgentLogic
