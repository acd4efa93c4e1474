import BookAgent.CloudAgent.QuoteTasks

/-!
# What a quote holds

A quote may hold funds, a pending net position, holdings and a ticket, in four stores.
Each stretch of a handler changes what one quote holds and leaves the others' alone,
except that it may take holdings and tickets away.
-/

namespace BookAgent.CloudAgent

open BookAgent.Lib BookAgent.AgentLogic

variable {D K E : Type}

/-- Something a quote can hold. -/
inductive Resource
  | funds
  | net
  | holding (contractId : String)
  | ticket (expiresAt : Instant)

/-- The entry of a quote that is over: none, or a tombstone. -/
def Gone : Option (PendingV2 E) → Prop
  | none => True
  | some (.settled _) => True
  | some (.expired _) => True
  | _ => False

/-- A confirm has claimed the quote. -/
def InProgress (entry : Option (PendingV2 E)) : Prop := ∃ since, entry = some (.confirming since)

namespace RfqV2State

/-- The quote holds the resource. -/
def Has (s : RfqV2State D K E) (quoteId : String) : Resource → Prop
  | .funds => s.liquidityManager.hasCommitment (lmKey quoteId) = true
  | .net => ∃ t, s.netPositions = some t ∧ quoteId ∈ t.pending
  | .holding cid =>
    ∃ entry expiresAt, s.cache.reserved.lookup cid = some entry ∧
      entry.kind = .v2Quote quoteId expiresAt
  | .ticket expiresAt => ∃ pool, s.ticketPool = some pool ∧ TicketPool.Holds pool quoteId expiresAt

/-- The quote is confirmed and its entry stands for the resource. -/
def Backs (s : RfqV2State D K E) (quoteId : String) (r : Resource) : Prop :=
  ∃ c, s.pending.lookup quoteId = some (.confirmed c) ∧
    match r with
    | .funds => True
    | .net => True
    | .holding cid => cid ∈ c.holdingCids
    | .ticket expiresAt => c.expiresAt = expiresAt

/-- From `s` to `s'` the quote gains nothing, and keeps its entry and its funds. -/
structure Keeps (s s' : RfqV2State D K E) (quoteId : String) : Prop where
  pending : s'.pending.lookup quoteId = s.pending.lookup quoteId
  funds : s'.Has quoteId .funds ↔ s.Has quoteId .funds
  gains : ∀ r, s'.Has quoteId r → s.Has quoteId r

namespace Keeps

variable {s s' s'' : RfqV2State D K E} {q : String}

theorem refl (s : RfqV2State D K E) (q : String) : Keeps s s q := ⟨rfl, Iff.rfl, fun _ h => h⟩

theorem trans (h : Keeps s s' q) (h' : Keeps s' s'' q) : Keeps s s'' q :=
  ⟨h'.pending.trans h.pending, h'.funds.trans h.funds, fun r hr => h.gains r (h'.gains r hr)⟩

/-- A step that touches one store. -/
theorem of_stores (hpending : s'.pending.lookup q = s.pending.lookup q)
    (hfunds : s'.Has q .funds ↔ s.Has q .funds) (hnet : s'.Has q .net → s.Has q .net)
    (hholding : ∀ cid, s'.Has q (.holding cid) → s.Has q (.holding cid))
    (hticket : ∀ t, s'.Has q (.ticket t) → s.Has q (.ticket t)) : Keeps s s' q := by
  refine ⟨hpending, hfunds, ?_⟩
  intro r
  cases r with
  | funds => exact hfunds.mp
  | net => exact hnet
  | holding cid => exact hholding cid
  | ticket t => exact hticket t

end Keeps

/-! ## The operations -/

variable {s : RfqV2State D K E} {q other : String}

theorem lmKey_injective {a b : String} (h : lmKey a = lmKey b) : a = b := by
  unfold lmKey at h
  have hlist := congrArg String.toList h
  rw [String.toList_append, String.toList_append] at hlist
  exact String.toList_injective (List.append_cancel_left hlist)

theorem keeps_setPending {entry : PendingV2 E} (h : other ≠ q) :
    Keeps s (s.setPending q entry) other :=
  ⟨AList.lookup_insert_ne h, Iff.rfl, fun _ hr => hr⟩

theorem keeps_removePending (h : other ≠ q) : Keeps s (s.removePending q) other :=
  ⟨AList.lookup_erase_ne h, Iff.rfl, fun _ hr => hr⟩

/-- A new liquidity manager under which the quote's commitment is as before. -/
theorem keeps_liquidity {liquidityManager : LiquidityManager}
    (h : liquidityManager.hasCommitment (lmKey q) = s.liquidityManager.hasCommitment (lmKey q)) :
    Keeps s { s with liquidityManager } q := by
  refine Keeps.of_stores rfl ?_ (fun hr => hr) (fun _ hr => hr) fun _ hr => hr
  unfold Has
  dsimp only
  rw [h]

theorem keeps_releaseCommitment (h : other ≠ q) : Keeps s (s.releaseCommitment q) other :=
  keeps_liquidity (LiquidityManager.hasCommitment_release_ne fun heq => h (lmKey_injective heq))

theorem not_funds_releaseCommitment : ¬ (s.releaseCommitment q).Has q .funds := by
  unfold Has releaseCommitment
  dsimp only
  rw [LiquidityManager.hasCommitment_release]
  exact Bool.false_ne_true

/-- A new cache that reserves nothing for the quote that it did not reserve before. -/
theorem keeps_cache {cache : HoldingsCache D}
    (h : ∀ cid, Has { s with cache } q (.holding cid) → s.Has q (.holding cid)) :
    Keeps s { s with cache } q :=
  Keeps.of_stores rfl Iff.rfl (fun hr => hr) h fun _ hr => hr

theorem holding_releaseReservations {cids : List String} {cid : String}
    (h : (s.releaseReservations cids).Has q (.holding cid)) :
    s.Has q (.holding cid) ∧ cid ∉ cids := by
  obtain ⟨entry, expiresAt, hlookup, hkind⟩ := h
  unfold releaseReservations HoldingsCache.releaseReservations at hlookup
  dsimp only at hlookup
  by_cases hmem : cid ∈ cids
  · rw [Pool.lookup_eraseAll_of_mem hmem] at hlookup
    cases hlookup
  · rw [Pool.lookup_eraseAll_of_notMem hmem] at hlookup
    exact ⟨⟨entry, expiresAt, hlookup, hkind⟩, hmem⟩

theorem keeps_releaseReservations {cids : List String} : Keeps s (s.releaseReservations cids) q :=
  keeps_cache fun _ h => (holding_releaseReservations h).1

/-- A new ticket pool that assigns nothing to the quote that was not assigned before. -/
theorem keeps_tickets {ticketPool : Option TicketPool}
    (h : ∀ t, Has { s with ticketPool } q (.ticket t) → s.Has q (.ticket t)) :
    Keeps s { s with ticketPool } q :=
  Keeps.of_stores rfl Iff.rfl (fun hr => hr) (fun _ hr => hr) h

/-- Changing every pool by an operation that assigns nothing. -/
theorem keeps_mapTickets {f : TicketPool → TicketPool}
    (hf : ∀ pool t, TicketPool.Holds (f pool) q t → TicketPool.Holds pool q t) :
    Keeps s { s with ticketPool := s.ticketPool.map f } q := by
  refine keeps_tickets ?_
  rintro t ⟨pool, hpool, hholds⟩
  obtain ⟨pool', hpool', rfl⟩ := Option.map_eq_some_iff.mp hpool
  exact ⟨pool', hpool', hf pool' t hholds⟩

theorem keeps_unassignTicket {assigned : Bool} : Keeps s (s.unassignTicket other assigned) q := by
  unfold unassignTicket
  split
  · exact keeps_mapTickets fun pool t h => TicketPool.holds_of_setStatus (by rintro q t ⟨⟩) h
  · exact .refl s q

theorem not_ticket_unassignTicket {t : Instant} : ¬ (s.unassignTicket q true).Has q (.ticket t) := by
  rintro ⟨pool, hpool, hholds⟩
  obtain ⟨pool', -, rfl⟩ := Option.map_eq_some_iff.mp hpool
  exact TicketPool.not_holds_unassign hholds

section Net

variable [Field K] [LinearOrder K] {cfg : RfqV2Config K}

omit [Field K] [LinearOrder K] in
/-- Changing every tracker by an operation that adds no flow of the quote. -/
theorem keeps_mapNet {f : NetPosition.Inner K → NetPosition.Inner K}
    (hf : ∀ t, q ∈ (f t).pending → q ∈ t.pending) :
    Keeps s { s with netPositions := s.netPositions.map f } q := by
  refine Keeps.of_stores rfl Iff.rfl ?_ (fun _ hr => hr) fun _ hr => hr
  rintro ⟨t, ht, hmem⟩
  obtain ⟨t', ht', rfl⟩ := Option.map_eq_some_iff.mp ht
  exact ⟨t', ht', hf t' hmem⟩

theorem keeps_releaseNet {now : Int} : Keeps s (s.releaseNet cfg other now) q :=
  keeps_mapNet fun t h => by
    rw [NetPosition.Inner.pending_release, AList.mem_erase] at h
    exact h.2

theorem not_net_releaseNet {now : Int} : ¬ (s.releaseNet cfg q now).Has q .net := by
  rintro ⟨t, ht, hmem⟩
  obtain ⟨t', -, rfl⟩ := Option.map_eq_some_iff.mp ht
  rw [NetPosition.Inner.pending_release, AList.mem_erase] at hmem
  exact hmem.1 rfl

theorem keeps_releaseFunds {nowMs : Int} (h : other ≠ q) :
    Keeps s (s.releaseFunds cfg q nowMs) other :=
  (keeps_releaseCommitment h).trans keeps_releaseNet

/-- After the funds are released the quote holds neither funds nor a net position; the rest
it holds as before. -/
theorem has_releaseFunds {nowMs : Int} {r : Resource} (h : (s.releaseFunds cfg q nowMs).Has q r) :
    s.Has q r ∧ r ≠ .funds ∧ r ≠ .net := by
  cases r with
  | funds => exact absurd h not_funds_releaseCommitment
  | net => exact absurd h not_net_releaseNet
  | holding cid => exact ⟨h, by rintro ⟨⟩, by rintro ⟨⟩⟩
  | ticket t => exact ⟨h, by rintro ⟨⟩, by rintro ⟨⟩⟩

/-- A count adds a net position of its quote and nothing else. -/
theorem keeps_countConfirm {userParty : Option String} {token : String} {delta : K}
    {accept : K → Bool} {now applied : Int} (h : other ≠ q) :
    Keeps s (s.countConfirm cfg q userParty token delta accept now applied).2 other := by
  unfold countConfirm
  cases ht : s.netPositions with
  | none => exact .refl s other
  | some t =>
    refine Keeps.of_stores rfl Iff.rfl ?_ (fun _ hr => hr) fun _ hr => hr
    rintro ⟨t', ht', hmem⟩
    obtain rfl := Option.some.inj ht'
    exact ⟨t, ht, NetPosition.Inner.pending_of_checkAndRecord h hmem⟩

/-- What a count leaves of its own quote. -/
theorem countConfirm_own (cfg : RfqV2Config K) (s : RfqV2State D K E) (q : String)
    (userParty : Option String) (token : String) (delta : K) (accept : K → Bool) (now applied : Int) :
    let s' := (s.countConfirm cfg q userParty token delta accept now applied).2
    s'.pending = s.pending ∧ ∀ r, r ≠ .net → (s'.Has q r ↔ s.Has q r) := by
  unfold countConfirm
  cases ht : s.netPositions with
  | none => exact ⟨rfl, fun _ _ => Iff.rfl⟩
  | some t =>
    refine ⟨rfl, ?_⟩
    intro r hr
    cases r with
    | net => exact absurd rfl hr
    | funds => exact Iff.rfl
    | holding cid => exact Iff.rfl
    | ticket t => exact Iff.rfl

theorem keeps_endSweep {now : Instant} {order : NetOrder K} {a : SweepAnswers} :
    Keeps s (s.endSweep cfg now order a) q := by
  have htickets : Keeps s
      { s with ticketPool := s.ticketPool.map fun pool => pool.expireAssignments now } q :=
    keeps_mapTickets fun pool t h => TicketPool.holds_of_setStatus (by rintro q t ⟨⟩) h
  refine htickets.trans (keeps_mapNet fun t h => ?_)
  exact NetPosition.Inner.pending_of_releaseEach h

theorem lt_of_ticket_endSweep {now t : Instant} {order : NetOrder K} {a : SweepAnswers}
    (h : (s.endSweep cfg now order a).Has q (.ticket t)) : now < t := by
  obtain ⟨pool, hpool, hholds⟩ := h
  obtain ⟨pool', -, rfl⟩ := Option.map_eq_some_iff.mp hpool
  exact TicketPool.lt_of_holds_expireAssignments hholds

end Net

/-! ## What a confirm acquires -/

/-- From `s` to `s'` the quote keeps its entry and its funds and gains at most the holdings
`cids` and a ticket until `until`; other quotes gain nothing. -/
structure Acquires (s s' : RfqV2State D K E) (quoteId : String) (cids : List String)
    (ticketUntil : Option Instant) : Prop where
  others : ∀ other, other ≠ quoteId → Keeps s s' other
  pending : s'.pending.lookup quoteId = s.pending.lookup quoteId
  funds : s.Has quoteId .funds → s'.Has quoteId .funds
  holding : ∀ cid, s'.Has quoteId (.holding cid) → s.Has quoteId (.holding cid) ∨ cid ∈ cids
  ticket : ∀ t, s'.Has quoteId (.ticket t) → s.Has quoteId (.ticket t) ∨ ticketUntil = some t

namespace Acquires

variable {s s' s'' : RfqV2State D K E} {q : String} {cids : List String}
  {ticketUntil : Option Instant}

theorem refl (s : RfqV2State D K E) (q : String) : Acquires s s q [] none :=
  ⟨fun other _ => .refl s other, rfl, fun h => h, fun _ h => .inl h, fun _ h => .inl h⟩

/-- A step on another store that gains nothing more. -/
theorem trans_none (h : Acquires s s' q [] none) (h' : Acquires s' s'' q cids ticketUntil) :
    Acquires s s'' q cids ticketUntil where
  others other hother := (h.others other hother).trans (h'.others other hother)
  pending := h'.pending.trans h.pending
  funds hfunds := h'.funds (h.funds hfunds)
  holding cid hcid := by
    rcases h'.holding cid hcid with hold | hnew
    · exact .inl ((h.holding cid hold).resolve_right List.not_mem_nil)
    · exact .inr hnew
  ticket t ht := by
    rcases h'.ticket t ht with hold | hnew
    · exact .inl ((h.ticket t hold).resolve_right (by rintro ⟨⟩))
    · exact .inr hnew

/-- A ticket after the holdings. -/
theorem trans_ticket (h : Acquires s s' q cids none) (h' : Acquires s' s'' q [] ticketUntil) :
    Acquires s s'' q cids ticketUntil where
  others other hother := (h.others other hother).trans (h'.others other hother)
  pending := h'.pending.trans h.pending
  funds hfunds := h'.funds (h.funds hfunds)
  holding cid hcid := h.holding cid ((h'.holding cid hcid).resolve_right List.not_mem_nil)
  ticket t ht := by
    rcases h'.ticket t ht with hold | hnew
    · exact .inl ((h.ticket t hold).resolve_right (by rintro ⟨⟩))
    · exact .inr hnew

end Acquires

theorem acquires_liquidity {liquidityManager : LiquidityManager}
    (hothers : ∀ pid, pid ≠ lmKey q →
      liquidityManager.hasCommitment pid = s.liquidityManager.hasCommitment pid)
    (hown : liquidityManager.hasCommitment (lmKey q) = true) :
    Acquires s { s with liquidityManager } q [] none where
  others _ hother := keeps_liquidity (hothers _ fun heq => hother (lmKey_injective heq))
  pending := rfl
  funds _ := hown
  holding _ h := .inl h
  ticket _ h := .inl h

/-- A granted reservation. -/
theorem acquires_reserveV2 {cids : List String} {expiresAt now : Instant} {cache : HoldingsCache D}
    (h : s.cache.reserveV2 cids q expiresAt now = (true, cache)) :
    Acquires s { s with cache } q cids none := by
  have hcache : cache = s.cache.setReserved cids ⟨.v2Quote q expiresAt, now⟩ := by
    rcases HoldingsCache.reserveWithKind_eq s.cache cids (.v2Quote q expiresAt) now with hno | hyes
    · rw [HoldingsCache.reserveV2, hno] at h
      cases h
    · rw [HoldingsCache.reserveV2, hyes] at h
      exact (Prod.mk.inj h).2.symm
  have found : ∀ {other cid}, Has { s with cache } other (.holding cid) →
      s.Has other (.holding cid) ∨ other = q ∧ cid ∈ cids := by
    rintro other cid ⟨entry, t, hlookup, hkind⟩
    rw [hcache] at hlookup
    rcases Pool.lookup_insertAll hlookup with hmem | hold
    · obtain ⟨cid', hcid, heq⟩ := List.mem_map.mp hmem
      obtain ⟨rfl, rfl⟩ := Prod.mk.inj heq
      cases hkind
      exact .inr ⟨rfl, hcid⟩
    · exact .inl ⟨entry, t, hold, hkind⟩
  refine ⟨?_, rfl, fun hr => hr, ?_, fun _ hr => .inl hr⟩
  · intro other hother
    exact keeps_cache fun cid hcid => (found hcid).resolve_right fun hown => hother hown.1
  · intro cid hcid
    exact (found hcid).imp_right And.right

theorem acquires_assign {expiresAt : Instant} {prefer : String}
    {assigned : (String × TicketEntry) × TicketPool}
    (h : (s.ticketPool.bind fun pool => pool.assign q expiresAt prefer) = some assigned) :
    Acquires s { s with ticketPool := some assigned.2 } q [] (some expiresAt) := by
  obtain ⟨pool, hpool, hassign⟩ := Option.bind_eq_some_iff.mp h
  have found : ∀ {other t}, Has { s with ticketPool := some assigned.2 } other (.ticket t) →
      s.Has other (.ticket t) ∨ other = q ∧ t = expiresAt := by
    rintro other t ⟨pool', hpool', hholds⟩
    obtain rfl := Option.some.inj hpool'
    rcases TicketPool.holds_assign hassign hholds with hown | hold
    · exact .inr hown
    · exact .inl ⟨pool, hpool, hold⟩
  refine ⟨?_, rfl, fun hr => hr, fun _ hr => .inl hr, ?_⟩
  · intro other hother
    exact keeps_tickets fun t ht => (found ht).resolve_right fun hown => hother hown.1
  · intro t ht
    exact (found ht).imp_right fun hown => congrArg some hown.2.symm

theorem acquires_countConfirm [Field K] [LinearOrder K] {cfg : RfqV2Config K}
    {userParty : Option String} {token : String} {delta : K} {accept : K → Bool}
    {now applied : Int} :
    Acquires s (s.countConfirm cfg q userParty token delta accept now applied).2 q [] none := by
  obtain ⟨hpending, hown⟩ := countConfirm_own cfg s q userParty token delta accept now applied
  refine ⟨fun other hother => keeps_countConfirm hother, by rw [hpending], ?_, ?_, ?_⟩
  · exact (hown .funds (by rintro ⟨⟩)).mpr
  · exact fun cid h => .inl ((hown (.holding cid) (by rintro ⟨⟩)).mp h)
  · exact fun t h => .inl ((hown (.ticket t) (by rintro ⟨⟩)).mp h)

end RfqV2State

end BookAgent.CloudAgent
