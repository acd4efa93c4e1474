import BookAgent.Lib.Replay
import BookAgent.CloudAgent.RungCounts
import BookAgent.CloudAgent.UpdatesWorker

/-!
# Updates that are applied again

An event that was handled stays absorbed while other tasks add, reserve, release and consume
holdings and use tickets, until the next ACS refresh: what it created is available, what it
consumed is consumed and not reserved, the tickets it archived are spent. Handling an absorbed
event again leaves the caches as they are, but for the entries of what it created, which are
blob-pending again.
-/

namespace BookAgent.CloudAgent.UpdatesWorker

open BookAgent.Lib BookAgent.AtomicQuote

/-! ## What an event does to the caches -/

/-- The contract that an event consumes, with its template. -/
def consumes : LedgerEvent → Option (String × String)
  | .archived archived => some (archived.contractId, archived.templateId)
  | .exercised exercised =>
    if exercised.consuming then some (exercised.contractId, exercised.templateId) else none
  | .created _ | .unset => none

/-- The Amulet or Holding that an event consumes. -/
def consumedHolding (event : LedgerEvent) : Option String :=
  (consumes event).bind fun c =>
    if classify c.2 = .amulet ∨ classify c.2 = .holding then some c.1 else none

/-- The ticket that an event archives. -/
def archivedTicket (event : LedgerEvent) : Option String :=
  (consumes event).bind fun c => if classify c.2 = .ticket then some c.1 else none

section Steps

variable {D : Type} [EnvelopeCrates D] {partyId : String} {tx : LedgerTransaction}
  {event : LedgerEvent} {now : Instant} {s s' : Shared D} {o : Observed}

/-- The entry that an event enters. -/
def createdEntry (partyId : String) (tx : LedgerTransaction) (event : LedgerEvent)
    (now : Instant) : Option (CachedHolding D) :=
  match event with
  | .created created => parseCreatedHolding created partyId tx.synchronizerId now
  | _ => none

/-- The caches before and after an event was handled. -/
structure HandledBy (partyId : String) (tx : LedgerTransaction) (event : LedgerEvent)
    (now : Instant) (s s' : Shared D) : Prop where
  available : s'.cache.available = (createdEntry partyId tx event now).elim s.cache.available
    fun h => s.cache.available.insert h.contractId h
  consumed : s'.cache.consumed = (consumedHolding event).elim s.cache.consumed
    fun cid => s.cache.consumed.insert cid ⟨tx.updateId, now⟩
  reserved : s'.cache.reserved = (consumedHolding event).elim s.cache.reserved
    fun cid => s.cache.reserved.erase cid
  splitterReserve : s'.cache.splitterReserveEnabled = s.cache.splitterReserveEnabled
  dustBelow : s'.cache.dustBelow = s.cache.dustBelow
  tickets : s'.ticketPool = (archivedTicket event).elim s.ticketPool
    fun cid => s.ticketPool.map (·.onArchived cid)

/-- The entry made of a created event at a later instant. -/
theorem parseCreatedHolding_at {created : LedgerCreatedEvent} {synchronizerId : String}
    {h : CachedHolding D} (at_ : Instant)
    (hparse : parseCreatedHolding created partyId synchronizerId now = some h) :
    parseCreatedHolding created partyId synchronizerId at_
      = some { h with discoveredAt := at_ } := by
  unfold parseCreatedHolding at hparse ⊢
  obtain ⟨json, hjson, hparse⟩ := Option.bind_eq_some_iff.mp hparse
  obtain ⟨terms, hterms, hparse⟩ := Option.bind_eq_some_iff.mp hparse
  obtain rfl := Option.some.inj hparse
  refine Option.bind_eq_some_iff.mpr ⟨json, hjson, ?_⟩
  exact Option.bind_eq_some_iff.mpr ⟨terms, hterms, rfl⟩

theorem parseCreatedHolding_blob {created : LedgerCreatedEvent} {synchronizerId : String}
    {h : CachedHolding D}
    (hparse : parseCreatedHolding created partyId synchronizerId now = some h) :
    h.createdEventBlob = none := by
  unfold parseCreatedHolding at hparse
  obtain ⟨json, -, hparse⟩ := Option.bind_eq_some_iff.mp hparse
  obtain ⟨terms, -, hparse⟩ := Option.bind_eq_some_iff.mp hparse
  obtain rfl := Option.some.inj hparse
  rfl

/-- Only Amulets and Holdings become entries. -/
theorem parseCreatedHolding_kind {created : LedgerCreatedEvent} {synchronizerId : String}
    {h : CachedHolding D}
    (hparse : parseCreatedHolding created partyId synchronizerId now = some h) :
    classify created.templateId = .amulet ∨ classify created.templateId = .holding := by
  unfold parseCreatedHolding at hparse
  obtain ⟨json, -, hparse⟩ := Option.bind_eq_some_iff.mp hparse
  obtain ⟨terms, hterms, -⟩ := Option.bind_eq_some_iff.mp hparse
  unfold instrumentAndAmount at hterms
  cases hkind : classify created.templateId with
  | amulet => exact .inl rfl
  | holding => exact .inr rfl
  | ticket | venue | other =>
    rw [hkind] at hterms
    cases hterms

/-- The entry is the same at another instant, but for the instant. -/
theorem createdEntry_at {h : CachedHolding D} (at_ : Instant)
    (hentry : createdEntry partyId tx event now = some h) :
    createdEntry partyId tx event at_ = some { h with discoveredAt := at_ } := by
  cases event with
  | created created => exact parseCreatedHolding_at at_ hentry
  | exercised | archived | unset => cases hentry

theorem createdEntry_none {at_ : Instant}
    (hnone : createdEntry (D := D) partyId tx event now = none) :
    createdEntry (D := D) partyId tx event at_ = none := by
  by_contra hsome
  obtain ⟨h, hentry⟩ := Option.ne_none_iff_exists'.mp hsome
  rw [createdEntry_at now hentry] at hnone
  cases hnone

theorem createdEntry_blob {h : CachedHolding D}
    (hentry : createdEntry partyId tx event now = some h) : h.createdEventBlob = none := by
  cases event with
  | created created => exact parseCreatedHolding_blob hentry
  | exercised | archived | unset => cases hentry

omit [EnvelopeCrates D] in
theorem observeSettle_caches (v2Quote : Option String) :
    (observeSettle tx v2Quote s o).1.cache = s.cache ∧
      (observeSettle tx v2Quote s o).1.ticketPool = s.ticketPool := by
  unfold observeSettle
  split
  · split
    · exact ⟨rfl, rfl⟩
    · exact ⟨rfl, rfl⟩
  · exact ⟨rfl, rfl⟩

/-- Nothing is entered, consumed or archived. -/
theorem HandledBy.idle (hentry : createdEntry (D := D) partyId tx event now = none)
    (hconsumed : consumedHolding event = none) (harchived : archivedTicket event = none) :
    HandledBy partyId tx event now s s := by
  constructor
  · rw [hentry]; rfl
  · rw [hconsumed]; rfl
  · rw [hconsumed]; rfl
  · rfl
  · rfl
  · rw [harchived]; rfl

theorem handledBy_handleConsumed {cid templateId : String}
    (hevent : consumes event = some (cid, templateId)) :
    HandledBy partyId tx event now s (handleConsumed tx now cid templateId s o).1 := by
  have hentry : createdEntry (D := D) partyId tx event now = none := by
    cases event with
    | created created => cases hevent
    | exercised | archived | unset => rfl
  have holding (hkind : classify templateId = .amulet ∨ classify templateId = .holding) :
      HandledBy partyId tx event now s (observeSettle tx (Quotes.v2ReservationQuote s.cache cid now)
        { s with cache := s.cache.markConsumed [cid] tx.updateId now } o).1 := by
    have hconsumed : consumedHolding event = some cid := by
      rw [consumedHolding, hevent]
      exact if_pos hkind
    have harchived : archivedTicket event = none := by
      rw [archivedTicket, hevent]
      refine if_neg fun hticket => ?_
      rcases hkind with h | h
      · rw [h] at hticket
        cases hticket
      · rw [h] at hticket
        cases hticket
    obtain ⟨hcache, htickets⟩ := @observeSettle_caches D tx
      { s with cache := s.cache.markConsumed [cid] tx.updateId now } o
      (Quotes.v2ReservationQuote s.cache cid now)
    constructor
    · rw [hcache, hentry]; rfl
    · rw [hcache, hconsumed]; rfl
    · rw [hcache, hconsumed]; rfl
    · rw [hcache]; rfl
    · rw [hcache]; rfl
    · rw [htickets, harchived]; rfl
  have notHolding (hkind : classify templateId ≠ .amulet ∧ classify templateId ≠ .holding) :
      consumedHolding event = none := by
    rw [consumedHolding, hevent]
    exact if_neg (not_or.mpr hkind)
  unfold handleConsumed
  cases hkind : classify templateId with
  | amulet => exact holding (.inl hkind)
  | holding => exact holding (.inr hkind)
  | ticket =>
    have hconsumed := notHolding (by rw [hkind]; decide)
    have harchived : archivedTicket event = some cid := by
      rw [archivedTicket, hevent]
      exact if_pos hkind
    constructor
    · rw [hentry]; rfl
    · rw [hconsumed]; rfl
    · rw [hconsumed]; rfl
    · rfl
    · rfl
    · rw [harchived]; rfl
  | venue | other =>
    refine .idle hentry (notHolding (by rw [hkind]; decide)) ?_
    rw [archivedTicket, hevent]
    exact if_neg (by rw [hkind]; decide)

/-- **What handling an event does.** -/
theorem handledBy_processEvent :
    HandledBy partyId tx event now s (processEvent partyId tx now s o event).1 := by
  cases event with
  | archived archived => exact handledBy_handleConsumed rfl
  | unset => exact .idle rfl rfl rfl
  | exercised exercised =>
    rw [processEvent]
    by_cases hconsuming : exercised.consuming = true
    · rw [if_pos hconsuming]
      exact handledBy_handleConsumed (if_pos hconsuming)
    · rw [if_neg hconsuming]
      have hnone : consumes (.exercised exercised) = none := if_neg hconsuming
      refine .idle rfl ?_ ?_
      · rw [consumedHolding, hnone]; rfl
      · rw [archivedTicket, hnone]; rfl
  | created created =>
    have skipped (hkind : classify created.templateId ≠ .amulet ∧
        classify created.templateId ≠ .holding) : HandledBy partyId tx (.created created) now s s := by
      refine .idle ?_ rfl rfl
      by_contra hsome
      obtain ⟨h, hparse⟩ := Option.ne_none_iff_exists'.mp hsome
      exact (parseCreatedHolding_kind hparse).elim hkind.1 hkind.2
    rw [processEvent]
    cases hkind : classify created.templateId with
    | amulet | holding =>
      dsimp only
      cases hparse : parseCreatedHolding (D := D) created partyId tx.synchronizerId now with
      | some h =>
        have hentry : createdEntry partyId tx (.created created) now = some h := hparse
        constructor
        · rw [hentry]; rfl
        · rfl
        · rfl
        · rfl
        · rfl
        · rfl
      | none => exact .idle hparse rfl rfl
    | ticket | venue | other => exact skipped (by rw [hkind]; decide)

end Steps

/-! ## Absorbed events -/

section Absorbed

variable {D : Type} {s s' s'' : Shared D}

/-- What events have left in the caches stays in them. -/
structure Keeps (s s' : Shared D) : Prop where
  available : ∀ cid ∈ s.cache.available, cid ∈ s'.cache.available
  consumed : ∀ cid ∈ s.cache.consumed, cid ∈ s'.cache.consumed
  unreserved : ∀ cid ∈ s.cache.consumed, s.cache.reserved.lookup cid = none →
    s'.cache.reserved.lookup cid = none
  tickets : ∀ pool' ∈ s'.ticketPool, ∀ tid t', pool'.lookup tid = some t' →
    ∃ pool ∈ s.ticketPool, ∃ t, pool.lookup tid = some t ∧ t.contractId = t'.contractId ∧
      (t.status = .spent → t'.status = .spent)

theorem Keeps.ofTickets (hcache : s'.cache = s.cache)
    (tickets : ∀ pool' ∈ s'.ticketPool, ∀ tid t', pool'.lookup tid = some t' →
      ∃ pool ∈ s.ticketPool, ∃ t, pool.lookup tid = some t ∧ t.contractId = t'.contractId ∧
        (t.status = .spent → t'.status = .spent)) : Keeps s s' where
  available cid h := by rwa [hcache]
  consumed cid h := by rwa [hcache]
  unreserved cid _ h := by rwa [hcache]
  tickets := tickets

theorem Keeps.ofCache (htickets : s'.ticketPool = s.ticketPool)
    (available : ∀ cid ∈ s.cache.available, cid ∈ s'.cache.available)
    (consumed : ∀ cid ∈ s.cache.consumed, cid ∈ s'.cache.consumed)
    (unreserved : ∀ cid ∈ s.cache.consumed, s.cache.reserved.lookup cid = none →
      s'.cache.reserved.lookup cid = none) : Keeps s s' where
  available := available
  consumed := consumed
  unreserved := unreserved
  tickets pool' hpool' _ t' ht' := ⟨pool', htickets ▸ hpool', t', ht', rfl, id⟩

/-- The holdings of what the event created are there, and what it consumed is gone. -/
structure Absorbed [EnvelopeCrates D] (partyId : String) (s : Shared D)
    (x : LedgerTransaction × LedgerEvent) : Prop where
  created : ∀ now (h : CachedHolding D), createdEntry partyId x.1 x.2 now = some h →
    h.contractId ∈ s.cache.available
  consumed : ∀ cid, consumedHolding x.2 = some cid →
    cid ∈ s.cache.consumed ∧ s.cache.reserved.lookup cid = none
  archived : ∀ cid, archivedTicket x.2 = some cid → ∀ pool ∈ s.ticketPool, ∀ tid t,
    pool.lookup tid = some t → t.contractId = cid → t.status = .spent

theorem Absorbed.mono [EnvelopeCrates D] {partyId : String} {x : LedgerTransaction × LedgerEvent}
    (h : Absorbed partyId s x) (hkeeps : Keeps s s') : Absorbed partyId s' x where
  created now held hentry := hkeeps.available _ (h.created now held hentry)
  consumed cid hcid := by
    obtain ⟨hconsumed, hfree⟩ := h.consumed cid hcid
    exact ⟨hkeeps.consumed cid hconsumed, hkeeps.unreserved cid hconsumed hfree⟩
  archived cid hcid pool' hpool' _ t' ht' hsame' := by
    obtain ⟨pool, hpool, t, ht, hsame, hspent⟩ := hkeeps.tickets pool' hpool' _ t' ht'
    exact hspent (h.archived cid hcid pool hpool _ t ht (hsame.trans hsame'))

end Absorbed

/-! ## What the other tasks keep -/

section Others

variable {D : Type} {s : Shared D}

/-- Marking holdings consumed leaves none of the marked ones reserved. -/
theorem keeps_markConsumed {s' : Shared D} {cids : List String} {reason : String} {now : Instant}
    (hcache : s'.cache = s.cache.markConsumed cids reason now)
    (htickets : s'.ticketPool = s.ticketPool) : Keeps s s' := by
  refine .ofCache htickets ?_ ?_ ?_
  · rw [hcache]
    exact fun cid h => h
  · intro cid h
    rw [hcache]
    exact HoldingsCache.mem_consumed_markConsumed.mpr (.inr h)
  · intro cid _ hfree
    rw [hcache]
    exact Pool.lookup_eraseAll_of_none hfree

theorem keeps_addCreated {s' : Shared D} {holdings : List (CachedHolding D)}
    (hcache : s'.cache = s.cache.addCreated holdings) (htickets : s'.ticketPool = s.ticketPool) :
    Keeps s s' := by
  refine .ofCache htickets ?_ ?_ ?_
  · intro cid h
    rw [hcache]
    exact HoldingsCache.mem_available_addCreated.mpr (.inr h)
  · rw [hcache]
    exact fun cid h => h
  · rw [hcache]
    exact fun cid _ h => h

/-- Only holdings that are not consumed are reserved. -/
theorem keeps_reserveWithKind {cids : List String} {kind : ReservationKind} {now : Instant} :
    Keeps s { s with cache := (s.cache.reserveWithKind cids kind now).2 } := by
  obtain ⟨havailable, hconsumed⟩ := CacheRun.reserve_pools s.cache cids kind now
  refine .ofCache rfl ?_ ?_ ?_
  · intro cid h
    exact havailable ▸ h
  · intro cid h
    exact hconsumed ▸ h
  · intro cid hcid hfree
    dsimp only
    unfold HoldingsCache.reserveWithKind
    split
    · rename_i hall
      refine (Pool.lookup_insertAll_of_notMem ?_).trans hfree
      rw [List.map_map]
      intro hmem
      obtain ⟨cid', hcid', rfl⟩ := List.mem_map.mp hmem
      have hcan := List.all_eq_true.mp hall cid' hcid'
      unfold HoldingsCache.canReserve at hcan
      exact of_decide_eq_true (Bool.and_eq_true_iff.mp hcan).1 hcid
    · exact hfree

theorem keeps_unreserve {reserved : Pool String ReservedEntry}
    (hnone : ∀ cid, s.cache.reserved.lookup cid = none → reserved.lookup cid = none) :
    Keeps s { s with cache := { s.cache with reserved } } :=
  .ofCache rfl (fun _ h => h) (fun _ h => h) fun cid _ hfree => hnone cid hfree

/-- Not a refresh, nor what comes before the watcher starts. -/
def Later : CacheEvent D → Prop
  | .refresh _ _ | .restore _ _ _ _ => False
  | _ => True

theorem keeps_cacheEvent {event : CacheEvent D} (h : Later event) :
    Keeps s { s with cache := s.cache.apply event } := by
  cases event with
  | addCreated => exact keeps_addCreated rfl rfl
  | markConsumed => exact keeps_markConsumed rfl rfl
  | reserve => exact keeps_reserveWithKind
  | release => exact keeps_unreserve fun _ => Pool.lookup_eraseAll_of_none
  | cleanup => exact keeps_unreserve fun _ => Pool.lookup_retain_of_none
  | refresh | restore => cases h

/-- A status change that spends, or that leaves the spent ones out. -/
theorem spent_setStatus {pool : TicketPool} {which : TicketEntry → Bool} {status : TicketStatus}
    (hspent : ∀ t, which t = true → t.status = .spent → status = .spent) {tid : String}
    {t' : TicketEntry} (h : (pool.setStatus which status).lookup tid = some t') :
    ∃ t, pool.lookup tid = some t ∧ t.contractId = t'.contractId ∧
      (t.status = .spent → t'.status = .spent) := by
  rw [TicketPool.lookup_setStatus, Option.map_eq_some_iff] at h
  obtain ⟨t, ht, rfl⟩ := h
  refine ⟨t, ht, ?_⟩
  cases hwhich : which t with
  | true => exact ⟨rfl, fun h => hspent t hwhich h⟩
  | false => exact ⟨rfl, id⟩

/-- A spent ticket is neither free nor assigned. -/
theorem spent_poolAfter {d : TicketDesk} {step : TicketStep}
    (hop : ∀ offset onLedger, step.op ≠ .reconcile offset onLedger)
    (hrun : ∀ ttl, step.op ≠ .restore ttl)
    {tid : String} {t' : TicketEntry} (h : (d.poolAfter step).lookup tid = some t') :
    ∃ t, d.pool.lookup tid = some t ∧ t.contractId = t'.contractId ∧
      (t.status = .spent → t'.status = .spent) := by
  unfold TicketDesk.poolAfter at h
  cases hstep : step.op with
  | assign quoteId expiresAt prefer =>
    rw [hstep] at h
    dsimp only at h
    cases hassign : d.pool.assign quoteId expiresAt prefer with
    | none =>
      rw [hassign] at h
      exact ⟨t', h, rfl, id⟩
    | some assigned =>
      rw [hassign] at h
      obtain ⟨key, entry, hentry, hfree, -, hpool⟩ := TicketPool.of_assign hassign
      dsimp only at h
      rw [hpool] at h
      by_cases htid : tid = key
      · subst htid
        rw [AList.lookup_insert] at h
        obtain rfl := Option.some.inj h
        refine ⟨entry, hentry, rfl, fun hspent => ?_⟩
        rw [hfree] at hspent
        cases hspent
      · rw [AList.lookup_insert_ne htid] at h
        exact ⟨t', h, rfl, id⟩
  | unassign quoteId =>
    rw [hstep] at h
    refine spent_setStatus (fun t hwhich hspent => ?_) h
    rw [TicketPool.isAssignedTo, hspent] at hwhich
    cases hwhich
  | expireAssignments =>
    rw [hstep] at h
    refine spent_setStatus (fun t hwhich hspent => ?_) h
    rw [TicketPool.hasExpired, hspent] at hwhich
    cases hwhich
  | onArchived contractId =>
    rw [hstep] at h
    exact spent_setStatus (fun _ _ _ => rfl) h
  | markSpent quoteId =>
    rw [hstep] at h
    exact spent_setStatus (fun _ _ _ => rfl) h
  | snapshot =>
    rw [hstep] at h
    exact ⟨t', h, rfl, id⟩
  | reconcile offset onLedger => exact absurd hstep (hop offset onLedger)
  | restore ttl => exact absurd hstep (hrun ttl)

theorem keeps_tickets {step : TicketStep}
    (hop : ∀ offset onLedger, step.op ≠ .reconcile offset onLedger)
    (hrun : ∀ ttl, step.op ≠ .restore ttl) :
    Keeps s { s with ticketPool := Watcher.ticketsAfter s step } := by
  refine .ofTickets rfl ?_
  intro pool' hpool' tid t' ht'
  obtain ⟨pool, hpool, rfl⟩ := Option.map_eq_some_iff.mp hpool'
  obtain ⟨t, ht, hsame⟩ := spent_poolAfter hop hrun ht'
  exact ⟨pool, hpool, t, ht, hsame⟩

end Others

/-! ## Handling an event once more -/

/-- An event as it is handled: at an instant, after what was observed of the transaction. -/
structure Handling where
  tx : LedgerTransaction
  event : LedgerEvent
  now : Instant
  observed : Observed

/-- The same event, handled at some other time. -/
def Handling.Like (x y : Handling) : Prop := x.tx = y.tx ∧ x.event = y.event

def handle {D : Type} [EnvelopeCrates D] (partyId : String) (s : Shared D) (x : Handling) :
    Shared D :=
  (processEvent partyId x.tx x.now s x.observed x.event).1

section Replay

variable {D : Type} [EnvelopeCrates D] {partyId : String} {data : Contracts}
  {tx : LedgerTransaction} {event : LedgerEvent} {now : Instant} {s s' s'' : Shared D}

/-- Every available entry has the data of its contract. -/
def Carried (data : Contracts) (s : Shared D) : Prop :=
  ∀ cid h, s.cache.available.lookup cid = some h → Carries data h

/-- The arguments of a created contract give its data. -/
def Describes (D : Type) [EnvelopeCrates D] (partyId : String) (data : Contracts)
    (x : LedgerTransaction × LedgerEvent) : Prop :=
  ∀ now (h : CachedHolding D), createdEntry partyId x.1 x.2 now = some h → Carries data h

theorem HandledBy.keeps (h : HandledBy partyId tx event now s s') : Keeps s s' where
  available cid hcid := by
    rw [h.available]
    cases createdEntry (D := D) partyId tx event now with
    | none => exact hcid
    | some g => exact (AList.mem_insert _).mpr (.inr hcid)
  consumed cid hcid := by
    rw [h.consumed]
    cases consumedHolding event with
    | none => exact hcid
    | some c => exact (AList.mem_insert _).mpr (.inr hcid)
  unreserved cid _ hfree := by
    rw [h.reserved]
    cases consumedHolding event with
    | none => exact hfree
    | some c => exact @Pool.lookup_eraseAll_of_none _ _ _ [c] _ _ hfree
  tickets pool' hpool' tid t' ht' := by
    rw [h.tickets] at hpool'
    cases harchived : archivedTicket event with
    | none =>
      rw [harchived] at hpool'
      exact ⟨pool', hpool', t', ht', rfl, id⟩
    | some c =>
      rw [harchived] at hpool'
      obtain ⟨pool, hpool, rfl⟩ := Option.map_eq_some_iff.mp hpool'
      obtain ⟨t, ht, hsame⟩ := spent_setStatus (fun _ _ _ => rfl) ht'
      exact ⟨pool, hpool, t, ht, hsame⟩

theorem HandledBy.carried (h : HandledBy partyId tx event now s s') (hcarried : Carried data s)
    (hdata : Describes D partyId data (tx, event)) : Carried data s' := by
  unfold Carried
  rw [h.available]
  cases hentry : createdEntry (D := D) partyId tx event now with
  | none => exact hcarried
  | some g =>
    have new : ∀ g' ∈ [g], Carries data g' := List.forall_mem_singleton.mpr (hdata now g hentry)
    exact carries_insertAll hcarried new

/-- **A handled event is absorbed.** -/
theorem HandledBy.absorbed (h : HandledBy partyId tx event now s s') :
    Absorbed partyId s' (tx, event) where
  created at_ g hentry := by
    rw [h.available, createdEntry_at now hentry]
    exact (AList.mem_insert _).mpr (.inl rfl)
  consumed cid hcid := by
    rw [h.consumed, h.reserved, hcid]
    exact ⟨(AList.mem_insert _).mpr (.inl rfl), AList.lookup_erase _ _⟩
  archived cid hcid pool' hpool' tid t' ht' hsame := by
    rw [h.tickets, hcid] at hpool'
    obtain ⟨pool, -, rfl⟩ := Option.map_eq_some_iff.mp hpool'
    rw [TicketPool.onArchived, TicketPool.lookup_setStatus, Option.map_eq_some_iff] at ht'
    obtain ⟨t, -, rfl⟩ := ht'
    split
    · rfl
    · rename_i hother
      rw [if_neg hother] at hsame
      exact absurd (decide_eq_true hsame) hother

/-- The entry is the same one, or a blob-pending one for the same instrument and amount. -/
inductive SameEntry : Option (CachedHolding D) → Option (CachedHolding D) → Prop
  | same (g : Option (CachedHolding D)) : SameEntry g g
  | renewed {g h : CachedHolding D} (hinstrument : h.instrument = g.instrument)
      (hamount : Decimal.value h.amount = Decimal.value g.amount)
      (hblob : h.createdEventBlob = none) : SameEntry (some g) (some h)

theorem SameEntry.trans {a b c : Option (CachedHolding D)} (h : SameEntry a b)
    (h' : SameEntry b c) : SameEntry a c := by
  cases h with
  | same => exact h'
  | renewed hinstrument hamount hblob =>
    cases h' with
    | same => exact .renewed hinstrument hamount hblob
    | renewed hinstrument' hamount' hblob' =>
      exact .renewed (hinstrument'.trans hinstrument) (hamount'.trans hamount) hblob'

/-- The caches agree but for when and why holdings were entered or consumed, and for blobs. -/
structure Same (s s' : Shared D) : Prop where
  available : ∀ cid, SameEntry (s.cache.available.lookup cid) (s'.cache.available.lookup cid)
  consumed : ∀ cid, cid ∈ s'.cache.consumed ↔ cid ∈ s.cache.consumed
  reserved : ∀ cid, s'.cache.reserved.lookup cid = s.cache.reserved.lookup cid
  splitterReserve : s'.cache.splitterReserveEnabled = s.cache.splitterReserveEnabled
  dustBelow : s'.cache.dustBelow = s.cache.dustBelow
  tickets : ∀ tid, s'.ticketPool.map (·.lookup tid) = s.ticketPool.map (·.lookup tid)

theorem Same.refl (s : Shared D) : Same s s :=
  ⟨fun _ => .same _, fun _ => Iff.rfl, fun _ => rfl, rfl, rfl, fun _ => rfl⟩

theorem Same.trans (h : Same s s') (h' : Same s' s'') : Same s s'' where
  available cid := (h.available cid).trans (h'.available cid)
  consumed cid := (h'.consumed cid).trans (h.consumed cid)
  reserved cid := (h'.reserved cid).trans (h.reserved cid)
  splitterReserve := h'.splitterReserve.trans h.splitterReserve
  dustBelow := h'.dustBelow.trans h.dustBelow
  tickets tid := (h'.tickets tid).trans (h.tickets tid)

theorem HandledBy.sameEntry (h : HandledBy partyId tx event now s s')
    (habsorbed : Absorbed partyId s (tx, event)) (hcarried : Carried data s)
    (hdata : Describes D partyId data (tx, event)) (cid : String) :
    SameEntry (s.cache.available.lookup cid) (s'.cache.available.lookup cid) := by
  rw [h.available]
  cases hentry : createdEntry (D := D) partyId tx event now with
  | none => exact .same _
  | some g =>
    change SameEntry _ ((AList.insert g.contractId g s.cache.available).lookup cid)
    by_cases hcid : cid = g.contractId
    · subst hcid
      obtain ⟨old, hold⟩ := Pool.mem_iff_lookup.mp (habsorbed.created now g hentry)
      have hkey : old.contractId = g.contractId := s.cache.keyed _ old hold
      have terms : (g.instrument, Decimal.value g.amount)
          = (old.instrument, Decimal.value old.amount) := by
        rw [← hdata now g hentry, ← hcarried _ old hold, hkey]
      obtain ⟨hinstrument, hamount⟩ := Prod.mk.inj terms
      rw [AList.lookup_insert, hold]
      exact .renewed hinstrument hamount (createdEntry_blob hentry)
    · rw [AList.lookup_insert_ne hcid]
      exact .same _

/-- **An absorbed event changes nothing when it is handled again.** -/
theorem HandledBy.same (h : HandledBy partyId tx event now s s')
    (habsorbed : Absorbed partyId s (tx, event)) (hcarried : Carried data s)
    (hdata : Describes D partyId data (tx, event)) : Same s s' where
  available := h.sameEntry habsorbed hcarried hdata
  consumed cid := by
    rw [h.consumed]
    cases hconsumed : consumedHolding event with
    | none => exact Iff.rfl
    | some c =>
      refine (AList.mem_insert _).trans (or_iff_right_of_imp ?_)
      rintro rfl
      exact (habsorbed.consumed cid hconsumed).1
  reserved cid := by
    rw [h.reserved]
    cases hconsumed : consumedHolding event with
    | none => rfl
    | some c => exact congrArg _ (Pool.erase_of_lookup (habsorbed.consumed c hconsumed).2)
  splitterReserve := h.splitterReserve
  dustBelow := h.dustBelow
  tickets tid := by
    rw [h.tickets]
    cases harchived : archivedTicket event with
    | none => rfl
    | some c =>
      change (s.ticketPool.map (·.onArchived c)).map (·.lookup tid) = _
      rw [Option.map_map]
      refine Option.map_congr fun pool hpool => ?_
      change (pool.onArchived c).lookup tid = pool.lookup tid
      rw [TicketPool.onArchived, TicketPool.lookup_setStatus]
      cases ht : pool.lookup tid with
      | none => rfl
      | some t =>
        rw [Option.map_some]
        split
        · rename_i hcid
          rw [← habsorbed.archived c harchived pool hpool tid t ht (of_decide_eq_true hcid)]
        · rfl

/-- **Absorbed events can be handled again**, in any order and as often as one likes. -/
theorem same_handle {xs : List Handling} (habsorbed : ∀ x ∈ xs, Absorbed partyId s (x.tx, x.event))
    (hcarried : Carried data s) (hdata : ∀ x ∈ xs, Describes D partyId data (x.tx, x.event)) :
    Same s (xs.foldl (handle partyId) s) := by
  induction xs generalizing s with
  | nil => exact .refl s
  | cons x xs ih =>
    rw [List.forall_mem_cons] at habsorbed hdata
    have hstep : HandledBy partyId x.tx x.event x.now s (handle partyId s x) :=
      handledBy_processEvent
    have first := hstep.same habsorbed.1 hcarried hdata.1
    have rest := ih (fun y hy => (habsorbed.2 y hy).mono hstep.keeps)
      (hstep.carried hcarried hdata.1) hdata.2
    exact first.trans rest

end Replay

/-! ## A prefix and then the whole -/

section Exactly

variable {D : Type} [EnvelopeCrates D] {partyId : String}

/-- Whatever is looked up in the caches is the same. -/
structure Identical (s s' : Shared D) : Prop where
  available : ∀ cid, s'.cache.available.lookup cid = s.cache.available.lookup cid
  consumed : ∀ cid, s'.cache.consumed.lookup cid = s.cache.consumed.lookup cid
  reserved : ∀ cid, s'.cache.reserved.lookup cid = s.cache.reserved.lookup cid
  splitterReserve : s'.cache.splitterReserveEnabled = s.cache.splitterReserveEnabled
  dustBelow : s'.cache.dustBelow = s.cache.dustBelow
  tickets : ∀ tid, s'.ticketPool.map (·.lookup tid) = s.ticketPool.map (·.lookup tid)

theorem handledBy_handle (partyId : String) (s : Shared D) (x : Handling) :
    HandledBy partyId x.tx x.event x.now s (handle partyId s x) :=
  handledBy_processEvent

/-- What an event does to a ticket. -/
def spendTicket (x : Handling) (ticket : Option TicketEntry) : Option TicketEntry :=
  (archivedTicket x.event).elim ticket fun cid =>
    ticket.map fun t => if decide (t.contractId = cid) then { t with status := .spent } else t

theorem lookup_available_handle (cid : String) (s : Shared D) (x : Handling) :
    (handle partyId s x).cache.available.lookup cid
      = written cid ((createdEntry partyId x.tx x.event x.now).map fun h => (h.contractId, some h))
          (s.cache.available.lookup cid) := by
  rw [(handledBy_handle partyId s x).available]
  cases createdEntry (D := D) partyId x.tx x.event x.now with
  | none => rfl
  | some h => exact Pool.lookup_insert_eq_ite _ _ _ _

theorem lookup_consumed_handle (cid : String) (s : Shared D) (x : Handling) :
    (handle partyId s x).cache.consumed.lookup cid
      = written cid ((consumedHolding x.event).map fun c => (c, some ⟨x.tx.updateId, x.now⟩))
          (s.cache.consumed.lookup cid) := by
  rw [(handledBy_handle partyId s x).consumed]
  cases consumedHolding x.event with
  | none => rfl
  | some c => exact Pool.lookup_insert_eq_ite _ _ _ _

theorem lookup_reserved_handle (cid : String) (s : Shared D) (x : Handling) :
    (handle partyId s x).cache.reserved.lookup cid
      = written cid ((consumedHolding x.event).map fun c => (c, none))
          (s.cache.reserved.lookup cid) := by
  rw [(handledBy_handle partyId s x).reserved]
  cases consumedHolding x.event with
  | none => rfl
  | some c => exact Pool.lookup_erase_eq_ite _ _ _

theorem lookup_tickets_handle (tid : String) (s : Shared D) (x : Handling) :
    (handle partyId s x).ticketPool.map (·.lookup tid)
      = (s.ticketPool.map (·.lookup tid)).map (spendTicket x) := by
  rw [(handledBy_handle partyId s x).tickets]
  unfold spendTicket
  cases archivedTicket x.event with
  | none => exact Option.map_id_apply.symm
  | some c =>
    change (s.ticketPool.map (·.onArchived c)).map (·.lookup tid) = _
    rw [Option.map_map, Option.map_map]
    refine Option.map_congr fun pool _ => ?_
    exact TicketPool.lookup_setStatus

theorem spendTicket_comm (x y : Handling) (ticket : Option TicketEntry) :
    spendTicket x (spendTicket y ticket) = spendTicket y (spendTicket x ticket) := by
  unfold spendTicket
  cases archivedTicket x.event with
  | none => rfl
  | some c =>
    cases archivedTicket y.event with
    | none => rfl
    | some c' =>
      cases ticket with
      | none => rfl
      | some t =>
        dsimp only [Option.elim, Option.map]
        split_ifs <;> rfl

theorem spendTicket_twice {x y : Handling} (hlike : x.Like y) (ticket : Option TicketEntry) :
    spendTicket y (spendTicket x ticket) = spendTicket y ticket := by
  unfold spendTicket
  rw [hlike.2]
  cases archivedTicket y.event with
  | none => rfl
  | some c =>
    cases ticket with
    | none => rfl
    | some t =>
      dsimp only [Option.elim, Option.map]
      split_ifs <;> rfl

theorem outdoes_spendTicket :
    Outdoes (fun (x : Handling) (ticket : Option (Option TicketEntry)) => ticket.map (spendTicket x))
      Handling.Like := by
  refine .of_commutes (fun x y ticket => ?_) fun x y hlike ticket => ?_
  · rw [Option.map_map, Option.map_map]
    exact Option.map_congr fun t _ => spendTicket_comm x y t
  · rw [Option.map_map]
    exact Option.map_congr fun t _ => spendTicket_twice hlike t

/-- Like events enter an entry under the same id, or none. -/
theorem createdEntry_key {x y : Handling} (hlike : x.Like y) :
    (createdEntry (D := D) partyId x.tx x.event x.now).map CachedHolding.contractId
      = (createdEntry (D := D) partyId y.tx y.event y.now).map CachedHolding.contractId := by
  rw [hlike.1, hlike.2]
  cases hentry : createdEntry (D := D) partyId y.tx y.event x.now with
  | none => rw [createdEntry_none hentry]
  | some h => rw [createdEntry_at y.now hentry]; rfl

/-- **Events that are handled again as part of a longer sequence** leave the caches as the
sequence alone does. -/
theorem identical_handle {first events : List Handling}
    (hagain : ∀ x ∈ first, ∃ y ∈ events, x.Like y) (s : Shared D) :
    Identical (events.foldl (handle partyId) s) ((first ++ events).foldl (handle partyId) s) where
  available cid := by
    refine read_replay (fun s : Shared D => s.cache.available.lookup cid)
      (lookup_available_handle cid) (outdoes_written (fun x y hlike => ?_) cid) hagain s
    rw [Option.map_map, Option.map_map]
    exact createdEntry_key hlike
  consumed cid := by
    refine read_replay (fun s : Shared D => s.cache.consumed.lookup cid)
      (lookup_consumed_handle cid) (outdoes_written (fun x y hlike => ?_) cid) hagain s
    rw [hlike.2, Option.map_map, Option.map_map]
    rfl
  reserved cid := by
    refine read_replay (fun s : Shared D => s.cache.reserved.lookup cid)
      (lookup_reserved_handle cid) (outdoes_written (fun x y hlike => ?_) cid) hagain s
    rw [hlike.2]
  splitterReserve := by
    have kept := read_kept (fun s : Shared D => s.cache.splitterReserveEnabled)
      (fun s x => (handledBy_handle partyId s x).splitterReserve)
    exact (kept (first ++ events) s).trans (kept events s).symm
  dustBelow := by
    have kept := read_kept (fun s : Shared D => s.cache.dustBelow)
      (fun s x => (handledBy_handle partyId s x).dustBelow)
    exact (kept (first ++ events) s).trans (kept events s).symm
  tickets tid :=
    read_replay (fun s : Shared D => s.ticketPool.map (·.lookup tid)) (lookup_tickets_handle tid)
      outdoes_spendTicket hagain s

end Exactly

end BookAgent.CloudAgent.UpdatesWorker
