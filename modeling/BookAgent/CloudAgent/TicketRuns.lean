import BookAgent.CloudAgent.QuoteRestart

/-!
# Runs of the ticket pool

The pool's operations in any order, with snapshots of the ledger, saves and restarts.
Every ticket of the pool was once seen on the ledger, and one that has left the ledger
does not come back.
-/

namespace BookAgent.CloudAgent

open BookAgent.Lib

/-! ## The ledger's tickets -/

/-- The ledger offsets at which a ticket was created and archived. -/
structure TicketLife where
  created : Nat
  archived : Option Nat

/-- The tickets that the ledger ever has, by their ids. -/
abbrev TicketLedger := String → Option TicketLife

/-- The ticket is on the ledger at an offset. -/
def TicketLedger.Active (ledger : TicketLedger) (offset : Nat) (tid : String) : Prop :=
  ∃ life, ledger tid = some life ∧ life.created ≤ offset ∧
    ∀ archived, life.archived = some archived → offset < archived

/-- The ticket was on the ledger by an offset. -/
def TicketLedger.Seen (ledger : TicketLedger) (offset : Nat) (tid : String) : Prop :=
  ∃ m, m ≤ offset ∧ ledger.Active m tid

theorem TicketLedger.Seen.mono {ledger : TicketLedger} {m n : Nat} {tid : String} (hmn : m ≤ n)
    (h : ledger.Seen m tid) : ledger.Seen n tid := by
  obtain ⟨k, hk, hactive⟩ := h
  exact ⟨k, by omega, hactive⟩

/-- A ticket that left the ledger never comes back. -/
theorem TicketLedger.not_active_of_left {ledger : TicketLedger} {n k : Nat} {tid : String}
    (hseen : ledger.Seen n tid) (hleft : ¬ ledger.Active n tid) (hk : n ≤ k) :
    ¬ ledger.Active k tid := by
  obtain ⟨m, hm, life, hlife, hcreated, -⟩ := hseen
  rintro ⟨life', hlife', -, hafter⟩
  obtain rfl : life' = life := Option.some.inj (hlife'.symm.trans hlife)
  refine hleft ⟨life', hlife, by omega, fun archived harchived => ?_⟩
  have := hafter archived harchived
  omega

/-! ## Runs -/

/-- The clocks an operation may read. -/
structure Reading where
  now : Instant
  /-- Epoch milliseconds of the wall clock. -/
  nowMs : Nat

inductive TicketOp
  | assign (quoteId : String) (expiresAt : Instant) (prefer : String)
  | unassign (quoteId : String)
  | onArchived (contractId : String)
  | markSpent (quoteId : String)
  | expireAssignments
  /-- With what the ledger lists at an offset. -/
  | reconcile (offset : Nat) (onLedger : List TicketAcsInfo)
  | snapshot
  /-- Into a fresh pool, from the last snapshot. -/
  | restore (maxTtl : Nat)

structure TicketStep where
  clocks : Reading
  op : TicketOp

/-- The pool, what was last saved of it, and how far the clock and the ledger have been read. -/
structure TicketDesk where
  pool : TicketPool
  saved : Option (List SavedTicket)
  now : Instant
  offset : Nat

namespace TicketDesk

def fresh : TicketDesk := ⟨∅, none, 0, 0⟩

/-- The pool after an operation. -/
def poolAfter (d : TicketDesk) (s : TicketStep) : TicketPool :=
  match s.op with
  | .assign quoteId expiresAt prefer =>
    match d.pool.assign quoteId expiresAt prefer with
    | none => d.pool
    | some (_, pool) => pool
  | .unassign quoteId => d.pool.unassign quoteId
  | .onArchived contractId => d.pool.onArchived contractId
  | .markSpent quoteId => d.pool.markSpent quoteId
  | .expireAssignments => d.pool.expireAssignments s.clocks.now
  | .reconcile _ onLedger => d.pool.reconcileFromAcs onLedger
  | .snapshot => d.pool
  | .restore maxTtl =>
    .restore ∅ (d.saved.getD []) maxTtl s.clocks.now s.clocks.nowMs

def apply (d : TicketDesk) (s : TicketStep) : TicketDesk where
  pool := d.poolAfter s
  saved := match s.op with
    | .snapshot => some (d.pool.snapshot s.clocks.now s.clocks.nowMs)
    | _ => d.saved
  now := s.clocks.now
  offset := match s.op with
    | .reconcile offset _ => offset
    | _ => d.offset

def run (d : TicketDesk) (steps : List TicketStep) : TicketDesk := steps.foldl apply d

/-- Time passes, and each ledger snapshot is taken after the one before it. -/
def Allows (ledger : TicketLedger) (d : TicketDesk) (s : TicketStep) : Prop :=
  d.now ≤ s.clocks.now ∧
    match s.op with
    | .reconcile offset onLedger =>
      d.offset ≤ offset ∧
        ∀ tid, tid ∈ onLedger.map TicketAcsInfo.ticketId ↔ ledger.Active offset tid
    | _ => True

def AllowsAll (ledger : TicketLedger) : TicketDesk → List TicketStep → Prop
  | _, [] => True
  | d, s :: steps => d.Allows ledger s ∧ AllowsAll ledger (d.apply s) steps

end TicketDesk

namespace TicketPool

variable {pool : TicketPool} {tid : String}

/-! ## Tickets under their own ids -/

theorem lookup_setStatus {which : TicketEntry → Bool} {status : TicketStatus} :
    (pool.setStatus which status).lookup tid
      = (pool.lookup tid).map fun e => if which e then { e with status } else e :=
  Pool.lookup_mapVal

/-- The status after a change of the accepted entries. -/
theorem of_lookup_setStatus {which : TicketEntry → Bool} {status : TicketStatus} {e : TicketEntry}
    (h : (pool.setStatus which status).lookup tid = some e) :
    ∃ old, pool.lookup tid = some old ∧ e.ticketId = old.ticketId ∧
      (which old = true ∧ e.status = status ∨ which old = false ∧ e.status = old.status) := by
  rw [lookup_setStatus, Option.map_eq_some_iff] at h
  obtain ⟨old, hold, rfl⟩ := h
  refine ⟨old, hold, ?_⟩
  cases hwhich : which old with
  | true => simp
  | false => simp

/-- What an assignment does: it takes an assignable ticket, and touches no other. -/
theorem of_assign {quoteId : String} {expiresAt : Instant} {prefer : String}
    {assigned : (String × TicketEntry) × TicketPool}
    (h : pool.assign quoteId expiresAt prefer = some assigned) :
    ∃ key entry, pool.lookup key = some entry ∧ entry.status = .free ∧
      assigned.1 = (entry.ticketId, { entry with status := .assigned quoteId expiresAt }) ∧
      assigned.2 = pool.insert key { entry with status := .assigned quoteId expiresAt } := by
  unfold assign at h
  dsimp only at h
  split at h
  · cases h
  · rename_i key entry hpick
    obtain rfl := Option.some.inj h
    have hmem : (key, entry) ∈ pool.toPairs.filter fun e => assignable e.2 := by
      cases hfound : (pool.toPairs.filter fun e => assignable e.2).find?
          fun e => decide (e.1 = prefer) with
      | some found =>
        rw [hfound] at hpick
        obtain rfl : found = (key, entry) := Option.some.inj hpick
        exact List.mem_of_find?_eq_some hfound
      | none =>
        rw [hfound] at hpick
        exact List.mem_of_mem_head? hpick
    obtain ⟨hpair, hassignable⟩ := List.mem_filter.mp hmem
    have hfree : entry.status = .free := by
      simp only [assignable, Bool.and_eq_true, decide_eq_true_eq] at hassignable
      exact hassignable.1
    exact ⟨key, entry, Pool.mem_toPairs.mp hpair, hfree, rfl, rfl⟩

/-- A known ticket of the ledger keeps its status, an unknown one comes in free. -/
theorem of_lookup_reconcileOne {t : TicketAcsInfo} {e : TicketEntry} (hkeyed : pool.KeyedTickets)
    (h : (pool.reconcileOne t).lookup tid = some e) :
    e.ticketId = tid ∧ (pool.lookup tid = none ∧ t.ticketId = tid ∧ e.status = .free ∨
      ∃ old, pool.lookup tid = some old ∧ e.status = old.status) := by
  unfold reconcileOne at h
  by_cases htid : tid = t.ticketId
  · subst htid
    cases hold : pool.lookup t.ticketId with
    | none =>
      rw [hold] at h
      dsimp only at h
      rw [AList.lookup_insert] at h
      obtain rfl := Option.some.inj h
      exact ⟨rfl, .inl ⟨rfl, rfl, rfl⟩⟩
    | some old =>
      rw [hold] at h
      dsimp only at h
      rw [AList.lookup_insert] at h
      obtain rfl := Option.some.inj h
      have hid : old.ticketId = t.ticketId := hkeyed _ _ hold
      exact ⟨hid, .inr ⟨old, rfl, rfl⟩⟩
  · have hsame : pool.lookup tid = some e := by
      split at h
      · rwa [AList.lookup_insert_ne htid] at h
      · rwa [AList.lookup_insert_ne htid] at h
    exact ⟨hkeyed _ _ hsame, .inr ⟨e, hsame, rfl⟩⟩

theorem mem_reconcileOne {t : TicketAcsInfo} :
    tid ∈ pool.reconcileOne t ↔ tid = t.ticketId ∨ tid ∈ pool := by
  unfold reconcileOne
  split
  · exact AList.mem_insert _
  · exact AList.mem_insert _

theorem keyedTickets_reconcileOne {t : TicketAcsInfo} (hkeyed : pool.KeyedTickets) :
    (pool.reconcileOne t).KeyedTickets :=
  fun _ _ h => (of_lookup_reconcileOne hkeyed h).1

/-- After a reconciliation the pool has the ledger's tickets, and no status but of new ones has
changed. -/
theorem of_lookup_reconcileFromAcs {onLedger : List TicketAcsInfo} {e : TicketEntry}
    (hkeyed : pool.KeyedTickets) (h : (pool.reconcileFromAcs onLedger).lookup tid = some e) :
    e.ticketId = tid ∧ tid ∈ onLedger.map TicketAcsInfo.ticketId ∧
      (pool.lookup tid = none ∧ e.status = .free ∨
        ∃ old, pool.lookup tid = some old ∧ e.status = old.status) := by
  have folded : ∀ (ts : List TicketAcsInfo) (p : TicketPool), p.KeyedTickets →
      (ts.foldl reconcileOne p).lookup tid = some e →
      e.ticketId = tid ∧
        (p.lookup tid = none ∧ tid ∈ ts.map TicketAcsInfo.ticketId ∧ e.status = .free ∨
          ∃ old, p.lookup tid = some old ∧ e.status = old.status) := by
    intro ts
    induction ts with
    | nil => exact fun p hp he => ⟨hp _ _ he, .inr ⟨e, he, rfl⟩⟩
    | cons t ts ih =>
      intro p hp he
      obtain ⟨hid, hcase⟩ := ih _ (keyedTickets_reconcileOne hp) he
      refine ⟨hid, ?_⟩
      rcases hcase with ⟨hnone, hmem, hfree⟩ | ⟨mid, hmid, hstatus⟩
      · have hnotin : tid ∉ p.reconcileOne t := AList.lookup_eq_none.mp hnone
        rw [mem_reconcileOne, not_or] at hnotin
        refine .inl ⟨AList.lookup_eq_none.mpr hnotin.2, ?_, hfree⟩
        rw [List.map_cons]
        exact List.mem_cons_of_mem _ hmem
      · obtain ⟨-, ⟨hnone, hnew, hfree⟩ | ⟨old, hold, hsame⟩⟩ := of_lookup_reconcileOne hp hmid
        · refine .inl ⟨hnone, ?_, hstatus.trans hfree⟩
          rw [List.map_cons, hnew]
          exact List.mem_cons_self
        · exact .inr ⟨old, hold, hstatus.trans hsame⟩
  have hretained : TicketPool.KeyedTickets (pool.retain fun tid _ =>
      decide (tid ∈ onLedger.map TicketAcsInfo.ticketId)) :=
    fun _ _ hk => hkeyed _ _ (Pool.lookup_retain_eq_some.mp hk).1
  obtain ⟨hid, ⟨hnone, hmem, hfree⟩ | ⟨old, hold, hstatus⟩⟩ := folded _ _ hretained h
  · refine ⟨hid, hmem, .inl ⟨?_, hfree⟩⟩
    rw [Option.eq_none_iff_forall_ne_some]
    intro old hold
    have hkept : (pool.retain fun tid _ =>
        decide (tid ∈ onLedger.map TicketAcsInfo.ticketId)).lookup tid = some old :=
      Pool.lookup_retain_eq_some.mpr ⟨hold, decide_eq_true hmem⟩
    rw [hnone] at hkept
    cases hkept
  · obtain ⟨hold, hmem⟩ := Pool.lookup_retain_eq_some.mp hold
    exact ⟨hid, of_decide_eq_true hmem, .inr ⟨old, hold, hstatus⟩⟩

theorem mem_reconcileFromAcs {onLedger : List TicketAcsInfo}
    (h : tid ∈ onLedger.map TicketAcsInfo.ticketId) : tid ∈ pool.reconcileFromAcs onLedger := by
  have folded : ∀ (ts : List TicketAcsInfo) (p : TicketPool),
      tid ∈ ts.map TicketAcsInfo.ticketId ∨ tid ∈ p → tid ∈ ts.foldl reconcileOne p := by
    intro ts
    induction ts with
    | nil =>
      rintro p (hmem | hmem)
      · cases hmem
      · exact hmem
    | cons t ts ih =>
      intro p hmem
      refine ih _ ?_
      rw [mem_reconcileOne]
      rw [List.map_cons, List.mem_cons] at hmem
      rcases hmem with (rfl | hmem) | hmem
      · exact .inr (.inl rfl)
      · exact .inl hmem
      · exact .inr (.inr hmem)
  exact folded _ _ (.inl h)

end TicketPool

/-! ## Every run -/

variable {ledger : TicketLedger} {tid : String}

/-- The clocks of a restart between two readings. -/
def Reading.restart (taken back : Reading) : RestartClock :=
  ⟨taken.now, taken.nowMs, back.now, back.nowMs, 0, fun _ => back.now⟩

/-- Facts of the desk alone: tickets are under their own ids and were seen on the ledger, and what
is saved was the snapshot of such a pool. -/
structure TicketDesk.Sound (ledger : TicketLedger) (d : TicketDesk) : Prop where
  keyed : d.pool.KeyedTickets
  seen : ∀ tid ∈ d.pool, ledger.Seen d.offset tid
  saved : ∀ saved, d.saved = some saved → ∃ pool : TicketPool, ∃ taken : Reading,
    saved = pool.snapshot taken.now taken.nowMs ∧ pool.KeyedTickets ∧
      ∀ tid ∈ pool, ledger.Seen d.offset tid

namespace TicketDesk

variable {d : TicketDesk} {s : TicketStep}

theorem keyedTickets_setStatus {pool : TicketPool} {which : TicketEntry → Bool}
    {status : TicketStatus} (hkeyed : pool.KeyedTickets) :
    (pool.setStatus which status).KeyedTickets := by
  intro tid e he
  obtain ⟨old, hold, hid, -⟩ := TicketPool.of_lookup_setStatus he
  exact hid.trans (hkeyed _ _ hold)

theorem mem_setStatus {pool : TicketPool} {which : TicketEntry → Bool} {status : TicketStatus} :
    tid ∈ pool.setStatus which status ↔ tid ∈ pool := by
  rw [← AList.lookup_isSome, ← AList.lookup_isSome, TicketPool.lookup_setStatus, Option.isSome_map]

/-- The offset never goes back. -/
theorem offset_le_apply (hallowed : d.Allows ledger s) : d.offset ≤ (d.apply s).offset := by
  obtain ⟨-, hop⟩ := hallowed
  unfold apply
  cases hs : s.op with
  | reconcile offset onLedger =>
    rw [hs] at hop
    exact hop.1
  | _ => exact le_rfl

theorem Sound.poolAfter (hsound : d.Sound ledger) (hallowed : d.Allows ledger s) :
    (d.poolAfter s).KeyedTickets ∧ ∀ tid ∈ d.poolAfter s, ledger.Seen (d.apply s).offset tid := by
  have hseen : ∀ tid ∈ d.pool, ledger.Seen (d.apply s).offset tid :=
    fun tid htid => (hsound.seen tid htid).mono (offset_le_apply hallowed)
  have changed : ∀ {which : TicketEntry → Bool} {status : TicketStatus},
      (d.pool.setStatus which status).KeyedTickets ∧
        ∀ tid ∈ d.pool.setStatus which status, ledger.Seen (d.apply s).offset tid :=
    ⟨keyedTickets_setStatus hsound.keyed, fun tid htid => hseen tid (mem_setStatus.mp htid)⟩
  unfold TicketDesk.poolAfter
  cases hs : s.op with
  | assign quoteId expiresAt prefer =>
    dsimp only
    split
    · exact ⟨hsound.keyed, hseen⟩
    · next returned pool hassign =>
      obtain ⟨key, entry, hentry, -, -, hpool⟩ := TicketPool.of_assign hassign
      dsimp only at hpool
      subst hpool
      constructor
      · intro tid e he
        by_cases htid : tid = key
        · subst htid
          rw [AList.lookup_insert] at he
          obtain rfl := Option.some.inj he
          have hid : entry.ticketId = tid := hsound.keyed _ _ hentry
          exact hid
        · rw [AList.lookup_insert_ne htid] at he
          exact hsound.keyed _ _ he
      · intro tid htid
        rcases (AList.mem_insert _).mp htid with rfl | hold
        · exact hseen _ (Pool.mem_iff_lookup.mpr ⟨entry, hentry⟩)
        · exact hseen tid hold
  | unassign quoteId => exact changed
  | onArchived contractId => exact changed
  | markSpent quoteId => exact changed
  | expireAssignments => exact changed
  | reconcile offset onLedger =>
    have hlisted : ∀ tid, tid ∈ onLedger.map TicketAcsInfo.ticketId ↔ ledger.Active offset tid := by
      have hop := hallowed.2
      rw [hs] at hop
      exact hop.2
    have hoffset : (d.apply s).offset = offset := by
      unfold apply
      rw [hs]
    constructor
    · exact fun tid e he => (TicketPool.of_lookup_reconcileFromAcs hsound.keyed he).1
    · intro tid htid
      obtain ⟨e, he⟩ := Pool.mem_iff_lookup.mp htid
      have hmem := (TicketPool.of_lookup_reconcileFromAcs hsound.keyed he).2.1
      rw [hoffset]
      exact ⟨offset, le_rfl, (hlisted tid).mp hmem⟩
  | snapshot => exact ⟨hsound.keyed, hseen⟩
  | restore maxTtl =>
    dsimp only
    cases hsaved : d.saved with
    | none =>
      refine ⟨fun tid e he => ?_, fun tid htid => ?_⟩
      · cases he
      · cases htid
    | some saved =>
      obtain ⟨pool, taken, rfl, hkeyed, hpool⟩ := hsound.saved saved hsaved
      have hlookup : ∀ tid, (TicketPool.restore ∅ (pool.snapshot taken.now taken.nowMs) maxTtl
          s.clocks.now s.clocks.nowMs).lookup tid
            = (pool.lookup tid).map (TicketPool.restoredEntry (taken.restart s.clocks) maxTtl) :=
        fun tid => TicketPool.lookup_restore_snapshot hkeyed (taken.restart s.clocks)
      constructor
      · intro tid e he
        have he' := (hlookup tid).symm.trans he
        obtain ⟨old, hold, rfl⟩ := Option.map_eq_some_iff.mp he'
        have hid : old.ticketId = tid := hkeyed _ _ hold
        exact hid
      · intro tid htid
        obtain ⟨e, he⟩ := Pool.mem_iff_lookup.mp htid
        obtain ⟨old, hold, -⟩ := Option.map_eq_some_iff.mp ((hlookup tid).symm.trans he)
        exact (hpool tid (Pool.mem_iff_lookup.mpr ⟨old, hold⟩)).mono (offset_le_apply hallowed)

theorem Sound.apply (hsound : d.Sound ledger) (hallowed : d.Allows ledger s) :
    (d.apply s).Sound ledger where
  keyed := (hsound.poolAfter hallowed).1
  seen := (hsound.poolAfter hallowed).2
  saved := by
    intro saved hsaved
    have hkept : ∀ saved, d.saved = some saved → ∃ pool : TicketPool, ∃ taken : Reading,
        saved = pool.snapshot taken.now taken.nowMs ∧ pool.KeyedTickets ∧
          ∀ tid ∈ pool, ledger.Seen (d.apply s).offset tid := by
      intro saved hsaved
      obtain ⟨pool, taken, hpool, hkeyed, hseen⟩ := hsound.saved saved hsaved
      exact ⟨pool, taken, hpool, hkeyed,
        fun tid htid => (hseen tid htid).mono (offset_le_apply hallowed)⟩
    unfold TicketDesk.apply at hsaved
    cases hs : s.op with
    | snapshot =>
      rw [hs] at hsaved
      obtain rfl := Option.some.inj hsaved
      exact ⟨d.pool, s.clocks, rfl, hsound.keyed,
        fun tid htid => (hsound.seen tid htid).mono (offset_le_apply hallowed)⟩
    | _ =>
      rw [hs] at hsaved
      exact hkept saved hsaved

theorem run_append (d : TicketDesk) (before after : List TicketStep) :
    d.run (before ++ after) = (d.run before).run after :=
  List.foldl_append

theorem allowsAll_append {before after : List TicketStep} :
    d.AllowsAll ledger (before ++ after) ↔
      d.AllowsAll ledger before ∧ (d.run before).AllowsAll ledger after := by
  induction before generalizing d with
  | nil => simp [AllowsAll, run]
  | cons s steps ih =>
    rw [List.cons_append, AllowsAll, ih, AllowsAll, and_assoc]
    rfl

theorem sound_fresh : fresh.Sound ledger where
  keyed := by rintro tid e ⟨⟩
  seen := by rintro tid ⟨⟩
  saved := by rintro saved ⟨⟩

theorem Sound.run {steps : List TicketStep} (hsound : d.Sound ledger)
    (hallowed : d.AllowsAll ledger steps) : (d.run steps).Sound ledger := by
  induction steps generalizing d with
  | nil => exact hsound
  | cons s steps ih => exact ih (hsound.apply hallowed.1) hallowed.2

end TicketDesk

end BookAgent.CloudAgent
