import BookAgent.AgentLogic.SentCancels
import BookAgent.AgentLogic.TaskTurns

/-!
# Counted trades

What a settled proposal adds to the settled quantity of its order, over runs with stream and task
reports in any order, and restarts. A report counts the proposal through the reserved record of its
adoption, so it is counted once if that record is there at the report, and not again after it.
-/

namespace BookAgent.AgentLogic

open BookAgent.Lib

namespace ProposalView

variable {D : Type} [Amount D] {v v' : ProposalView D}

/-- What is noted of the adoption, and of what was counted. -/
structure Counted (v : ProposalView D) : Prop where
  /-- The record is the one of the last adoption, until it is closed. -/
  agrees : v.history.closed = false → ∀ e a, v.record = some e → v.history.adopted = some a →
    a = (e.orderId, e.quantity)
  inRange : ∀ a, v.history.adopted = some a → |a.2| ≤ Amount.maxValue
  fresh : v.history.closed = false → v.history.increases = []
  counted : ∀ a, v.history.adopted = some a → v.history.increases ≠ [] → v.history.increases = [a]
  atMost : v.history.increases.length ≤ 1
  once : v.history.timely = true → ∀ a, v.history.adopted = some a → v.history.increases = [a]
  settled : v.history.increases ≠ [] → v.history.settled = true

/-- The two histories agree on the adoption and on what was counted. -/
structure SameCount (h h' : ProposalHistory D) : Prop where
  adopted : h'.adopted = h.adopted
  closed : h'.closed = h.closed
  increases : h'.increases = h.increases
  timely : h'.timely = h.timely
  settled : h.settled = true → h'.settled = true

omit [Amount D] in
theorem SameCount.refl (h : ProposalHistory D) : SameCount h h := ⟨rfl, rfl, rfl, rfl, id⟩

/-- The record is gone, or still of the same order and quantity. -/
def KeepsRecord (v v' : ProposalView D) : Prop :=
  ∀ e', v'.record = some e' → ∃ e, v.record = some e ∧ e.orderId = e'.orderId ∧ e.quantity = e'.quantity

omit [Amount D] in
theorem KeepsRecord.same (h : v'.record = v.record) : v.KeepsRecord v' :=
  fun e' he' => ⟨e', h ▸ he', rfl, rfl⟩

omit [Amount D] in
theorem KeepsRecord.gone (h : v'.record = none) : v.KeepsRecord v' := by
  intro e' he'
  rw [h] at he'
  cases he'

theorem Counted.of_same (h : v.Counted) (hcount : SameCount v.history v'.history)
    (hrecord : v.KeepsRecord v') : v'.Counted where
  agrees hclosed e' a he' ha := by
    obtain ⟨e, he, hid, hquantity⟩ := hrecord e' he'
    rw [← hid, ← hquantity]
    exact h.agrees (hcount.closed ▸ hclosed) e a he (hcount.adopted ▸ ha)
  inRange a ha := h.inRange a (hcount.adopted ▸ ha)
  fresh hclosed := by
    rw [hcount.increases]
    exact h.fresh (hcount.closed ▸ hclosed)
  counted a ha := by
    rw [hcount.increases]
    exact h.counted a (hcount.adopted ▸ ha)
  atMost := by
    rw [hcount.increases]
    exact h.atMost
  once htimely a ha := by
    rw [hcount.increases]
    exact h.once (hcount.timely ▸ htimely) a (hcount.adopted ▸ ha)
  settled hsome := by
    rw [hcount.increases] at hsome
    exact hcount.settled (h.settled hsome)

/-- A report that closes nothing. -/
theorem Counted.noteSettled (h : v.Counted) {windowPassed : Bool}
    (hcounts : v.history.committed = true → windowPassed = false → v.history.adopted.isSome = true →
      v.history.increases ≠ []) : (v.noteSettled windowPassed).Counted where
  agrees := h.agrees
  inRange := h.inRange
  fresh := h.fresh
  counted := h.counted
  atMost := h.atMost
  once htimely a ha := by
    rcases Bool.or_eq_true_iff.mp htimely with hbefore | hnow
    · exact h.once hbefore a ha
    · obtain ⟨hcommitted, hwindow⟩ := Bool.and_eq_true_iff.mp hnow
      refine h.counted a ha (hcounts hcommitted ?_ ?_)
      · simpa using hwindow
      · rw [show v.history.adopted = some a from ha]
        rfl
  settled _ := rfl

omit [Amount D] in
theorem history_settle {tracked : Nat → Bool} {e : SettlementOrderEntry D} (he : v.record = some e)
    (hreserved : e.reserved = true) : (v.settle tracked).history
      = { v.history with
          closed := true
          increases := if tracked e.orderId then v.history.increases ++ [(e.orderId, e.quantity)]
            else v.history.increases } := by
  unfold ProposalView.settle ProposalHistory.close
  rw [he]
  dsimp only
  rw [if_neg (by rw [hreserved]; decide)]

omit [Amount D] in
theorem history_settle_of_unreserved {tracked : Nat → Bool}
    (h : ∀ e, v.record = some e → e.reserved = false) : (v.settle tracked).history = v.history := by
  unfold ProposalView.settle ProposalHistory.close
  dsimp only
  split
  · rfl
  · rename_i e he
    rw [if_pos (h e he)]

/-- A report counts the proposal through its reserved record, if it is not counted yet. -/
theorem Counted.report (h : v.Counted) {windowPassed : Bool} {tracked : Nat → Bool}
    (honce : v.history.closed = true → ∀ e, v.record = some e → e.reserved = false)
    (hcounts : v.history.committed = true → windowPassed = false → v.history.adopted.isSome = true →
      v.history.increases ≠ [] ∨
        ∃ e, v.record = some e ∧ e.reserved = true ∧ tracked e.orderId = true) :
    ((v.noteSettled windowPassed).settle tracked).Counted := by
  by_cases hrecord : ∀ e, v.record = some e → e.reserved = false
  · have noted : (v.noteSettled windowPassed).Counted := by
      refine h.noteSettled fun hcommitted hwindow hadopted => ?_
      rcases hcounts hcommitted hwindow hadopted with hsome | ⟨e, he, hreserved, -⟩
      · exact hsome
      · rw [hrecord e he] at hreserved
        cases hreserved
    refine noted.of_same ?_ (.gone rfl)
    rw [history_settle_of_unreserved (v := v.noteSettled windowPassed) hrecord]
    exact .refl _
  · push Not at hrecord
    obtain ⟨e, he, hnot⟩ := hrecord
    have hreserved : e.reserved = true := Bool.not_eq_false _ ▸ hnot
    have unclosed : v.history.closed = false := by
      rw [← Bool.not_eq_true]
      intro hclosed
      rw [honce hclosed e he] at hreserved
      cases hreserved
    have none_yet := h.fresh unclosed
    have closed : ((v.noteSettled windowPassed).settle tracked).history = _ := history_settle he hreserved
    rw [show (v.noteSettled windowPassed).history.increases = [] from none_yet, List.nil_append] at closed
    have own (a : Nat × D) (ha : v.history.adopted = some a) : [(e.orderId, e.quantity)] = [a] :=
      congrArg (fun a => [a]) (h.agrees unclosed e a he ha).symm
    refine ⟨fun hclosed => ?_, fun a ha => ?_, fun hclosed => ?_, fun a ha hsome => ?_, ?_,
      fun htimely a ha => ?_, fun _ => ?_⟩
    · rw [closed] at hclosed
      cases hclosed
    · rw [closed] at ha
      exact h.inRange a ha
    · rw [closed] at hclosed
      cases hclosed
    · rw [closed] at ha hsome ⊢
      dsimp only at hsome ⊢
      split at hsome <;> rename_i htracked
      · rw [if_pos htracked]
        exact own a ha
      · exact absurd rfl hsome
    · rw [closed]
      dsimp only
      split
      · exact le_refl 1
      · exact Nat.zero_le 1
    · rw [closed] at htimely ha ⊢
      dsimp only at ha ⊢
      rcases Bool.or_eq_true_iff.mp htimely with hbefore | hnow
      · have counted := h.once hbefore a ha
        rw [none_yet] at counted
        cases counted
      · obtain ⟨hcommitted, hwindow⟩ := Bool.and_eq_true_iff.mp hnow
        have adopted : v.history.adopted.isSome = true := by
          rw [show v.history.adopted = some a from ha]
          rfl
        rcases hcounts hcommitted (by simpa using hwindow) adopted with hsome | ⟨e', he', -, htracked⟩
        · exact absurd none_yet hsome
        · rw [he] at he'
          obtain rfl := Option.some.inj he'
          rw [if_pos htracked]
          exact own a ha
    · rw [closed]
      rfl

end ProposalView

namespace SettlementExecutor

variable {D : Type} [ValuedAmount D] [SignatureCrates] {x : SettlementExecutor D} {pid : String}

open ProposalView

/-- A report that the proposal settled counts it: once it is closed it has no reserved record again,
and a report in time finds it counted, or its record reserved and the order tracked. -/
structure Countable (x : SettlementExecutor D) (pid : String) (windowPassed : Bool) : Prop where
  once : (x.history pid).closed = true → ∀ e, x.tracker.settlementOrders.lookup pid = some e →
    e.reserved = false
  counts : (x.history pid).committed = true → windowPassed = false →
    (x.history pid).adopted.isSome = true → (x.history pid).increases ≠ [] ∨
      ∃ e, x.tracker.settlementOrders.lookup pid = some e ∧ e.reserved = true ∧
        e.orderId ∈ x.tracker.orders

end SettlementExecutor

/-! ## A settlement that was given up -/

namespace SettlementExecutor

section Example

local instance countingCrates : SignatureCrates := signedCrates

/-- The purchase is adopted, and its allocate call is out. -/
def calling (x : SettlementExecutor Int) : SettlementExecutor Int :=
  [.proposalCreated agedPurchase (quietFeed x), .contractFound "p" .dvp "d", .spawn "p" false,
    .beginStep 0, .answerStep 0 (.ok allocateDue) 100, .commitStep 0 0 noDigits, .latchStep 0,
    .actStep 0 (.ok "") 100].foldl apply x

/-- The call reports the allocation. -/
def allocated (x : SettlementExecutor Int) : SettlementExecutor Int :=
  [.allocationCommits "p", .allocateReturns 0 (.ok "a"), .collect 0 200].foldl apply (calling x)

end Example

end SettlementExecutor

end BookAgent.AgentLogic
