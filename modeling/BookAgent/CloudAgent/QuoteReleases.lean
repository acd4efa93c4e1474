import BookAgent.CloudAgent.QuoteSteps

/-!
# What is given back

The ends of the handlers: a reject, a settle and the sweep. Each acquires nothing, and
what its task answered for is gone or still answered for where it waits again.
-/

namespace BookAgent.CloudAgent

open BookAgent.Lib BookAgent.AgentLogic

variable {D K E : Type}

namespace RfqV2State

variable {s : RfqV2State D K E}

/-! ## The end of a reject -/

/-- What a stretch of a reject for the quote leaves. -/
structure GivesBack (s : RfqV2State D K E) (t : ConfirmTask D) (r : ConfirmStretch D K E) :
    Prop where
  others : ∀ other, other ≠ t.quoteId → Keeps s r.1 other
  entry : r.1.pending.lookup t.quoteId = s.pending.lookup t.quoteId ∨
    r.1.pending.lookup t.quoteId = none
  loses : ∀ res, r.1.Has t.quoteId res → s.Has t.quoteId res
  task : ∀ t', r.2.task = some t' → t'.quoteId = t.quoteId ∧ t'.role = t.role
  answers : ∀ res, t.Answers res → r.1.Has t.quoteId res →
    ∃ t', r.2.task = some t' ∧ t'.Answers res

/-- The ticket, if one was assigned, and the entry go. -/
theorem endReject_spec {x : Rejecting} :
    (∀ other, other ≠ x.quoteId → Keeps s (s.endReject x).1 other) ∧
      (s.endReject x).1.pending.lookup x.quoteId = none ∧
      (∀ res, (s.endReject x).1.Has x.quoteId res → s.Has x.quoteId res) ∧
      ∀ e, x.ticketAssigned = true → ¬ (s.endReject x).1.Has x.quoteId (.ticket e) := by
  unfold endReject
  refine ⟨?_, AList.lookup_erase _ _, ?_, ?_⟩
  · exact fun other hother => keeps_unassignTicket.trans (keeps_removePending hother)
  · intro res hres
    have hkeeps : Keeps s (s.unassignTicket x.quoteId x.ticketAssigned) x.quoteId :=
      keeps_unassignTicket
    exact hkeeps.gains res hres
  · intro e hassigned
    rw [hassigned]
    exact not_ticket_unassignTicket

section Net

variable [Field K] [LinearOrder K] {cfg : RfqV2Config K} {a : ConfirmAnswers D K E}

theorem givesBack_resume {t : ConfirmTask D} {x : Rejecting} (h : t.rejecting = some x) :
    GivesBack s t (s.resumeConfirm cfg a t) := by
  cases t with
  | mids c => cases h
  | staleness c window => cases h
  | commit c window => cases h
  | select c window => cases h
  | sleep c window deadline => cases h
  | poll c window deadline => cases h
  | reserve c window found lostRaces => cases h
  | reselect c window lostRaces => cases h
  | reject r =>
    obtain rfl := Option.some.inj h
    unfold resumeConfirm
    dsimp only
    by_cases hcids : r.holdingCids = []
    · rw [if_pos hcids]
      obtain ⟨hothers, hentry, hloses, hticket⟩ :=
        endReject_spec (s := s.releaseFunds cfg r.quoteId a.nowMs) (x := r)
      refine ⟨fun other hother => (keeps_releaseFunds hother).trans (hothers other hother),
        .inr hentry, fun res hres => (has_releaseFunds (hloses res hres)).1, by rintro t ⟨⟩, ?_⟩
      intro res hans hres
      obtain ⟨-, hfunds, hnet⟩ := has_releaseFunds (hloses res hres)
      cases res with
      | funds => exact absurd rfl hfunds
      | net => exact absurd rfl hnet
      | holding cid =>
        obtain ⟨x, hx, hcid⟩ := hans
        obtain rfl := Option.some.inj hx
        rw [hcids] at hcid
        exact absurd hcid List.not_mem_nil
      | ticket e =>
        obtain ⟨x, hx, hassigned⟩ := hans
        obtain rfl := Option.some.inj hx
        exact absurd hres (hticket e hassigned)
    · rw [if_neg hcids]
      refine ⟨fun other hother => keeps_releaseFunds hother, .inl rfl,
        fun res hres => (has_releaseFunds hres).1, ?_, ?_⟩
      · rintro t ⟨⟩
        exact ⟨rfl, rfl⟩
      · intro res hans hres
        obtain ⟨-, hfunds, hnet⟩ := has_releaseFunds hres
        refine ⟨_, rfl, ?_⟩
        cases res with
        | funds => exact absurd rfl hfunds
        | net => exact absurd rfl hnet
        | holding cid => exact hans
        | ticket e => exact hans
  | rejectHoldings r =>
    obtain rfl := Option.some.inj h
    unfold resumeConfirm
    dsimp only
    obtain ⟨hothers, hentry, hloses, hticket⟩ :=
      endReject_spec (s := s.releaseReservations r.holdingCids) (x := r)
    refine ⟨fun other hother => keeps_releaseReservations.trans (hothers other hother), .inr hentry,
      fun res hres => keeps_releaseReservations.gains res (hloses res hres), by rintro t ⟨⟩, ?_⟩
    intro res hans hres
    cases res with
    | funds => cases hans
    | net => cases hans
    | holding cid =>
      obtain ⟨x, hx, hcid⟩ := hans
      obtain rfl := Option.some.inj hx
      exact absurd hcid (holding_releaseReservations (hloses _ hres)).2
    | ticket e =>
      obtain ⟨x, hx, hassigned⟩ := hans
      obtain rfl := Option.some.inj hx
      exact absurd hres (hticket e hassigned)
  | withhold r =>
    obtain rfl := Option.some.inj h
    unfold resumeConfirm
    dsimp only
    refine ⟨fun other hother => keeps_releaseFunds hother, .inl rfl,
      fun res hres => (has_releaseFunds hres).1, ?_, ?_⟩
    · rintro t ⟨⟩
      exact ⟨rfl, rfl⟩
    · intro res hans hres
      obtain ⟨-, hfunds, hnet⟩ := has_releaseFunds hres
      refine ⟨_, rfl, ?_⟩
      cases res with
      | funds => exact absurd rfl hfunds
      | net => exact absurd rfl hnet
      | holding cid => exact hans
      | ticket e => exact hans
  | withholdHoldings r =>
    obtain rfl := Option.some.inj h
    unfold resumeConfirm
    dsimp only
    have hunassign : ∀ q, Keeps (s.releaseReservations r.holdingCids)
        ((s.releaseReservations r.holdingCids).unassignTicket r.quoteId r.ticketAssigned) q :=
      fun q => keeps_unassignTicket
    refine ⟨fun other _ => keeps_releaseReservations.trans (hunassign other),
      .inl (hunassign r.quoteId).pending,
      fun res hres => keeps_releaseReservations.gains res ((hunassign r.quoteId).gains res hres),
      by rintro t ⟨⟩, ?_⟩
    intro res hans hres
    cases res with
    | funds => cases hans
    | net => cases hans
    | holding cid =>
      obtain ⟨x, hx, hcid⟩ := hans
      obtain rfl := Option.some.inj hx
      exact absurd hcid (holding_releaseReservations ((hunassign r.quoteId).gains _ hres)).2
    | ticket e =>
      obtain ⟨x, hx, hassigned⟩ := hans
      obtain rfl := Option.some.inj hx
      rw [hassigned] at hres
      exact absurd hres not_ticket_unassignTicket

/-! ## Settles -/

omit [Field K] [LinearOrder K] in
/-- The tracker's `settle` ends the quote's pending flow. -/
theorem keeps_settleNet {q other : String} :
    Keeps s { s with netPositions := s.netPositions.map fun t => t.settle q } other :=
  keeps_mapNet fun t h => by
    rw [NetPosition.Inner.pending_settle, AList.mem_erase] at h
    exact h.2

omit [Field K] [LinearOrder K] in
theorem keeps_spendTicket {quoteId q : String} {ticketed : Bool} :
    Keeps s (s.spendTicket quoteId ticketed).1 q := by
  unfold spendTicket
  dsimp only
  split
  · exact keeps_mapTickets fun pool t h => TicketPool.holds_of_setStatus (by rintro q t ⟨⟩) h
  · exact .refl s q

/-- What a stretch of a settle leaves. -/
structure Settles (s : RfqV2State D K E) (t : SettleTask) (r : SettleStretch D K E) : Prop where
  others : ∀ other, other ≠ t.quoteId → Keeps s r.1 other
  entry : r.1.pending.lookup t.quoteId = s.pending.lookup t.quoteId
  loses : ∀ res, r.1.Has t.quoteId res → s.Has t.quoteId res
  task : ∀ t', r.2.task = some t' → t'.quoteId = t.quoteId
  answers : ∀ res, res = .funds ∨ res = .net → r.1.Has t.quoteId res → r.2.task ≠ none

omit [Field K] [LinearOrder K] in
theorem settles_resume {t : SettleTask} : Settles s t (s.resumeSettle t) := by
  cases t with
  | outflow quoteId ticketed =>
    refine ⟨fun other _ => keeps_spendTicket, (keeps_spendTicket (q := quoteId)).pending,
      fun res hres => (keeps_spendTicket (q := quoteId)).gains res hres, ?_,
      fun _ _ _ => Option.some_ne_none _⟩
    rintro t ⟨⟩
    rfl
  | release quoteId =>
    have hreleased : ∀ res, (s.resumeSettle (.release quoteId)).1.Has quoteId res →
        (s.releaseCommitment quoteId).Has quoteId res :=
      keeps_settleNet.gains
    refine ⟨fun other hother => (keeps_releaseCommitment hother).trans keeps_settleNet, rfl, ?_,
      by rintro t ⟨⟩, ?_⟩
    · intro res hres
      cases res with
      | funds => exact absurd (hreleased _ hres) not_funds_releaseCommitment
      | net => exact hreleased _ hres
      | holding cid => exact hreleased _ hres
      | ticket e => exact hreleased _ hres
    · rintro res (rfl | rfl) hres
      · exact absurd (hreleased _ hres) not_funds_releaseCommitment
      · obtain ⟨t, ht, hmem⟩ := hres
        obtain ⟨t', -, rfl⟩ := Option.map_eq_some_iff.mp ht
        rw [NetPosition.Inner.pending_settle, AList.mem_erase] at hmem
        exact absurd rfl hmem.1

/-! ## The sweep -/

/-- What a stretch of a sweep leaves that had to release `l`. -/
structure Released (s : RfqV2State D K E) (l : List Release) (now : Instant)
    (r : SweepStretch D K E) : Prop where
  others : ∀ q, (∀ x ∈ l, x.quoteId ≠ q) → Keeps s r.1 q
  entry : ∀ q, r.1.pending.lookup q = s.pending.lookup q
  loses : ∀ q res, r.1.Has q res → s.Has q res
  task : ∀ t, r.2.task = some t → ∀ x ∈ t.releases, ∃ y ∈ l, y.quoteId = x.quoteId
  answers : ∀ q res, (∃ x ∈ l, x.Answers q res) ∨ res.Past now → r.1.Has q res →
    ∃ t, r.2.task = some t ∧ (Task.sweep (D := D) t).Answers q res

/-- The stretch up to the next release that waits touches tickets only. -/
theorem keeps_releaseAll {now : Instant} {order : NetOrder K} {b : SweepAnswers} {q : String}
    {l : List Release} : Keeps s (s.releaseAll cfg now order b l).1 q := by
  induction l generalizing s with
  | nil => exact keeps_endSweep
  | cons x rest ih =>
    unfold releaseAll
    split
    · exact .refl s q
    · split
      · exact .refl s q
      · exact keeps_unassignTicket.trans ih

theorem released_releaseAll {now : Instant} {order : NetOrder K} {b : SweepAnswers}
    {l : List Release} : Released s l now (s.releaseAll cfg now order b l) := by
  refine ⟨fun q _ => keeps_releaseAll, fun q => keeps_releaseAll.pending,
    fun q res hres => keeps_releaseAll.gains res hres, ?_, ?_⟩
  · induction l generalizing s with
    | nil => rintro t ⟨⟩
    | cons x rest ih =>
      unfold releaseAll
      split
      · rintro t ⟨⟩ y hy
        exact ⟨y, hy, rfl⟩
      · split
        · rintro t ⟨⟩ y hy
          rcases List.mem_cons.mp hy with rfl | hrest
          · exact ⟨x, List.mem_cons_self, rfl⟩
          · exact ⟨y, List.mem_cons_of_mem _ hrest, rfl⟩
        · intro t ht y hy
          obtain ⟨z, hz, hquote⟩ := ih t ht y hy
          exact ⟨z, List.mem_cons_of_mem _ hz, hquote⟩
  · intro q res
    induction l generalizing s with
    | nil =>
      rintro (⟨x, hx, -⟩ | hpast) hres
      · exact absurd hx List.not_mem_nil
      · cases res with
        | funds => exact hpast.elim
        | net => exact hpast.elim
        | holding cid => exact hpast.elim
        | ticket e => exact absurd hpast (not_le.mpr (lt_of_ticket_endSweep hres))
    | cons x rest ih =>
      unfold releaseAll
      by_cases hlm : x.lm = true
      · rw [if_pos hlm]
        exact fun hans _ => ⟨_, rfl, hans⟩
      · rw [if_neg hlm]
        have notFunds : x.Answers q res → ∃ cid, cid ∈ x.holdingCids := by
          rintro ⟨-, hres⟩
          cases res with
          | funds => exact absurd hres hlm
          | net => exact absurd hres hlm
          | holding cid => exact ⟨cid, hres⟩
          | ticket e => exact hres.elim
        split
        · intro hans _
          refine ⟨_, rfl, hans.imp_left fun ⟨y, hy, hyans⟩ => ?_⟩
          rcases List.mem_cons.mp hy with rfl | hrest
          · refine ⟨_, List.mem_cons_self, hyans.1, ?_⟩
            cases res with
            | funds => exact absurd hyans.2 hlm
            | net => exact absurd hyans.2 hlm
            | holding cid => exact hyans.2
            | ticket e => exact hyans.2
          · exact ⟨y, List.mem_cons_of_mem _ hrest, hyans⟩
        · rename_i hcids
          intro hans hres
          refine ih (hans.imp_left fun ⟨y, hy, hyans⟩ => ?_) hres
          rcases List.mem_cons.mp hy with rfl | hrest
          · obtain ⟨cid, hcid⟩ := notFunds hyans
            rw [not_not.mp hcids] at hcid
            exact absurd hcid List.not_mem_nil
          · exact ⟨y, hrest, hyans⟩

omit [Field K] [LinearOrder K] in
/-- After the first release's funds and holdings are given back, the rest of the sweep. -/
theorem Released.after {now : Instant} {x : Release} {rest : List Release} {s' : RfqV2State D K E}
    {r : SweepStretch D K E} (hothers : ∀ q, q ≠ x.quoteId → Keeps s s' q)
    (hentry : ∀ q, s'.pending.lookup q = s.pending.lookup q)
    (hloses : ∀ q res, s'.Has q res → s.Has q res)
    (hgiven : ∀ q res, x.Answers q res → ¬ s'.Has q res) (h : Released s' rest now r) :
    Released s (x :: rest) now r where
  others q hq :=
    (hothers q (Ne.symm (hq x List.mem_cons_self))).trans
      (h.others q fun y hy => hq y (List.mem_cons_of_mem _ hy))
  entry q := (h.entry q).trans (hentry q)
  loses q res hres := hloses q res (h.loses q res hres)
  task t ht y hy := by
    obtain ⟨z, hz, hquote⟩ := h.task t ht y hy
    exact ⟨z, List.mem_cons_of_mem _ hz, hquote⟩
  answers q res hans hres := by
    refine h.answers q res (hans.imp_left fun ⟨y, hy, hyans⟩ => ?_) hres
    rcases List.mem_cons.mp hy with rfl | hrest
    · exact absurd (h.loses q res hres) (hgiven q res hyans)
    · exact ⟨y, hrest, hyans⟩

theorem released_resume {t : SweepTask} {order : NetOrder K} {b : SweepAnswers} :
    Released s t.releases t.now (s.resumeSweep cfg order b t) := by
  cases t with
  | funds now x rest =>
    have hothers : ∀ q, q ≠ x.quoteId → Keeps s (s.releaseFunds cfg x.quoteId b.nowMs) q :=
      fun q hq => keeps_releaseFunds hq
    have hloses : ∀ q res, (s.releaseFunds cfg x.quoteId b.nowMs).Has q res → s.Has q res := by
      intro q res hres
      by_cases hq : q = x.quoteId
      · subst hq
        exact (has_releaseFunds hres).1
      · exact (hothers q hq).gains res hres
    unfold resumeSweep
    dsimp only
    split
    · refine ⟨fun q hq => hothers q (Ne.symm (hq x List.mem_cons_self)), fun q => rfl, hloses, ?_, ?_⟩
      · rintro t ⟨⟩ y hy
        rcases List.mem_cons.mp hy with rfl | hrest
        · exact ⟨x, List.mem_cons_self, rfl⟩
        · exact ⟨y, List.mem_cons_of_mem _ hrest, rfl⟩
      · intro q res hans hres
        refine ⟨_, rfl, hans.imp_left fun ⟨y, hy, hyans⟩ => ?_⟩
        rcases List.mem_cons.mp hy with rfl | hrest
        · obtain ⟨hquote, hwhat⟩ := hyans
          subst hquote
          obtain ⟨-, hfunds, hnet⟩ := has_releaseFunds hres
          refine ⟨_, List.mem_cons_self, rfl, ?_⟩
          cases res with
          | funds => exact absurd rfl hfunds
          | net => exact absurd rfl hnet
          | holding cid => exact hwhat
          | ticket e => exact hwhat
        · exact ⟨y, List.mem_cons_of_mem _ hrest, hyans⟩
    · rename_i hcids
      refine .after (fun q hq => (hothers q hq).trans keeps_unassignTicket)
        (fun q => keeps_unassignTicket.pending)
        (fun q res hres => hloses q res (keeps_unassignTicket.gains res hres)) ?_
        released_releaseAll
      rintro q res ⟨rfl, hwhat⟩ hres
      obtain ⟨-, hfunds, hnet⟩ := has_releaseFunds (keeps_unassignTicket.gains res hres)
      cases res with
      | funds => exact hfunds rfl
      | net => exact hnet rfl
      | holding cid =>
        dsimp only at hwhat
        rw [not_not.mp hcids] at hwhat
        exact absurd hwhat List.not_mem_nil
      | ticket e => exact hwhat
  | holdings now x rest =>
    refine .after (fun q _ => keeps_releaseReservations.trans keeps_unassignTicket)
      (fun q => keeps_unassignTicket.pending)
      (fun q res hres => keeps_releaseReservations.gains res (keeps_unassignTicket.gains res hres)) ?_
      released_releaseAll
    rintro q res ⟨rfl, hwhat⟩ hres
    cases res with
    | funds => cases hwhat
    | net => cases hwhat
    | holding cid =>
      exact (holding_releaseReservations (keeps_unassignTicket.gains _ hres)).2 hwhat
    | ticket e => exact hwhat

end Net

end RfqV2State

end BookAgent.CloudAgent
