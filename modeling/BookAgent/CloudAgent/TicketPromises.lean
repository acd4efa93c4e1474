import BookAgent.CloudAgent.TicketRuns

/-!
# One live quote for a ticket

A ticket assigned to a quote goes to no other quote while the pool promises it: until it is
unassigned or its expiry passes, where a restart re-times the expiry by the wall clock in
whole milliseconds and under a cap. A spent ticket goes to nobody. What a restart loses is
what came after the snapshot it restores.
-/

namespace BookAgent.CloudAgent

open BookAgent.Lib

/-! ## What the pool promises -/

/-- How a ticket is kept from other quotes. -/
inductive Hold
  | heldFor (quoteId : String) (deadline : Instant)
  | spent
  deriving DecidableEq

/-- How much earlier a restored deadline may be: the saved one is in whole milliseconds, and what
the wall clock gained since is lost. -/
def lostTime (taken back : Reading) : Nat :=
  millis (back.nowMs + 1) - (millis taken.nowMs + (back.now - taken.now))

/-- A hold after a restart; no assignment is restored for longer than `maxTtl`. -/
def Hold.retimed (taken back : Reading) (maxTtl : Nat) : Hold → Hold
  | .heldFor quoteId deadline => .heldFor quoteId (min (deadline - lostTime taken back)
      (back.now + min (millis (u64Max - back.nowMs)) maxTtl))
  | .spent => .spent

/-- What is promised of a ticket now, and what of it was saved. -/
structure Promise where
  current : Option Hold
  saved : Option (Hold × Reading)

/-- A promise ends with the quote's `unassign`, and a restart goes back to the saved one. -/
def Promise.follow (p : Promise) (s : TicketStep) : Promise :=
  match s.op with
  | .unassign quoteId =>
    { p with current := p.current.filter fun
        | .heldFor q _ => decide (q ≠ quoteId)
        | .spent => true }
  | .snapshot => { p with saved := p.current.map (·, s.clocks) }
  | .restore maxTtl =>
    { p with current := p.saved.map fun saved => saved.1.retimed saved.2 s.clocks maxTtl }
  | _ => p

/-- What is left of a promise made before some steps. -/
def Hold.promisedAfter (h : Hold) (steps : List TicketStep) : Option Hold :=
  (steps.foldl Promise.follow ⟨some h, none⟩).current

/-- What a status promises. -/
def TicketStatus.hold : TicketStatus → Option Hold
  | .free => none
  | .assigned quoteId expiresAt => some (.heldFor quoteId expiresAt)
  | .spent => some .spent

/-- A status agrees with the hold, which has no force once its deadline has passed. -/
def Hold.Agrees (h : Hold) (now : Instant) (status : TicketStatus) : Prop :=
  match h with
  | .heldFor quoteId deadline =>
    deadline ≤ now ∨ status = .spent ∨
      ∃ expiresAt, status = .assigned quoteId expiresAt ∧ deadline ≤ expiresAt
  | .spent => status = .spent

/-! ## What every run keeps -/

variable {ledger : TicketLedger} {tid : String} {h : Hold} {now : Instant}

theorem Hold.Agrees.mono {later : Instant} {status : TicketStatus} (hlater : now ≤ later)
    (hagrees : h.Agrees now status) : h.Agrees later status := by
  cases h with
  | heldFor q d => exact hagrees.imp_left fun hd => hd.trans hlater
  | spent => exact hagrees

/-- Only a lapsed hold agrees with a free ticket. -/
theorem Hold.lapsed_of_agrees_free (hagrees : h.Agrees now .free) :
    ∃ q d, h = .heldFor q d ∧ d ≤ now := by
  cases h with
  | heldFor q d =>
    rcases hagrees with hd | hspent | ⟨t, hassigned, -⟩
    · exact ⟨q, d, rfl, hd⟩
    · cases hspent
    · cases hassigned
  | spent => cases hagrees

/-- The pool keeps to the hold: the ticket's status agrees with it, or the ticket has left the
ledger and the pool. -/
def Hold.Kept (ledger : TicketLedger) (tid : String) (h : Hold) (now : Instant) (offset : Nat)
    (pool : TicketPool) : Prop :=
  (∃ e, pool.lookup tid = some e ∧ h.Agrees now e.status) ∨
    (pool.lookup tid = none ∧ ∀ n, offset ≤ n → ¬ ledger.Active n tid)

theorem Hold.Kept.mono {later : Instant} {m n : Nat} {pool : TicketPool} (hlater : now ≤ later)
    (hmn : m ≤ n) (hkept : h.Kept ledger tid now m pool) : h.Kept ledger tid later n pool := by
  refine hkept.imp ?_ ?_
  · rintro ⟨e, he, hagrees⟩
    exact ⟨e, he, hagrees.mono hlater⟩
  · rintro ⟨hnone, hgone⟩
    exact ⟨hnone, fun k hk => hgone k (by omega)⟩

theorem Hold.Kept.setStatus {offset : Nat} {pool : TicketPool} {which : TicketEntry → Bool}
    {status : TicketStatus} (hkept : h.Kept ledger tid now offset pool)
    (hstatus : ∀ e, which e = true → h.Agrees now e.status → h.Agrees now status) :
    h.Kept ledger tid now offset (pool.setStatus which status) := by
  rcases hkept with ⟨e, he, hagrees⟩ | ⟨hnone, hgone⟩
  · refine .inl ⟨_, by rw [TicketPool.lookup_setStatus, he]; rfl, ?_⟩
    dsimp only
    by_cases hwhich : which e = true
    · rw [if_pos hwhich]
      exact hstatus e hwhich hagrees
    · rw [if_neg hwhich]
      exact hagrees
  · exact .inr ⟨by rw [TicketPool.lookup_setStatus, hnone]; rfl, hgone⟩

theorem lt_millis_asMillis (span : Nat) : span < millis (asMillis span + 1) := by
  unfold millis asMillis
  omega

/-- Saved in whole milliseconds and read back on the wall clock, a deadline loses less than a
millisecond and what that clock gained. -/
theorem sub_lostTime_le {deadline now back nowMs backMs savedMs span : Nat}
    (hround : span - now < millis (savedMs + 1)) (hle : deadline ≤ span) (hback : now ≤ back) :
    deadline - (millis (backMs + 1) - (millis nowMs + (back - now)))
      ≤ back + millis (nowMs + savedMs - backMs) := by
  unfold millis at *
  omega

theorem min_le_saturated {deadline back nowMs backMs savedMs top maxTtl : Nat}
    (h : deadline ≤ back + millis (nowMs + savedMs - backMs)) :
    min deadline (back + min (millis (top - backMs)) maxTtl)
      ≤ back + min (millis (min (nowMs + min savedMs top) top - backMs)) maxTtl := by
  by_cases hfits : nowMs + savedMs ≤ top
  · rw [min_eq_left (by omega : savedMs ≤ top), min_eq_left hfits]
    omega
  · have hfull : min (nowMs + min savedMs top) top = top := by omega
    rw [hfull]
    exact min_le_right _ _

/-- A saved deadline comes back no earlier than it was retimed. -/
theorem retimed_le_restored {taken back : Reading} {maxTtl : Nat} {deadline expiresAt : Instant}
    (hback : taken.now ≤ back.now) (hle : deadline ≤ expiresAt) :
    min (deadline - lostTime taken back) (back.now + min (millis (u64Max - back.nowMs)) maxTtl)
      ≤ back.now + min (millis (min (taken.nowMs + min (asMillis (expiresAt - taken.now)) u64Max)
          u64Max - back.nowMs)) maxTtl :=
  min_le_saturated (sub_lostTime_le (lt_millis_asMillis _) hle hback)

/-- A restored assignment runs to its retimed deadline, or that has passed. -/
theorem Hold.Agrees.restored {taken back : Reading} {maxTtl : Nat} {e : TicketEntry}
    (hback : taken.now ≤ back.now) (hagrees : h.Agrees taken.now e.status) :
    (h.retimed taken back maxTtl).Agrees back.now
      (TicketPool.restoredStatus maxTtl back.now back.nowMs
        (TicketPool.save taken.now taken.nowMs e)) := by
  cases h with
  | spent =>
    have hspent : e.status = .spent := hagrees
    unfold TicketPool.save
    rw [hspent]
    rfl
  | heldFor q d =>
    rcases hagrees with hd | hspent | ⟨t, hassigned, hdt⟩
    · exact .inl ((min_le_left _ _).trans ((Nat.sub_le _ _).trans (hd.trans hback)))
    · refine .inr (.inl ?_)
      unfold TicketPool.save
      rw [hspent]
      rfl
    · unfold TicketPool.save TicketPool.restoredStatus
      rw [hassigned]
      dsimp only
      rw [if_pos rfl]
      have hdeadline : min (d - lostTime taken back)
          (back.now + min (millis (u64Max - back.nowMs)) maxTtl) ≤ _ :=
        retimed_le_restored hback hdt
      split
      · exact .inr (.inr ⟨_, rfl, hdeadline⟩)
      · next hover =>
        refine .inl (hdeadline.trans ?_)
        rw [Nat.sub_eq_zero_of_le (not_lt.mp hover)]
        simp [millis]

/-- What was promised at the save is kept after the restart, as retimed. -/
theorem Hold.Kept.restored {pool : TicketPool} {taken back : Reading} {offset maxTtl : Nat}
    (hback : taken.now ≤ back.now) (hkeyed : pool.KeyedTickets)
    (hkept : h.Kept ledger tid taken.now offset pool) :
    (h.retimed taken back maxTtl).Kept ledger tid back.now offset
      (TicketPool.restore ∅ (pool.snapshot taken.now taken.nowMs) maxTtl back.now back.nowMs) := by
  have hlookup : (TicketPool.restore ∅ (pool.snapshot taken.now taken.nowMs) maxTtl
      back.now back.nowMs).lookup tid
        = (pool.lookup tid).map (TicketPool.restoredEntry (taken.restart back) maxTtl) :=
    TicketPool.lookup_restore_snapshot hkeyed (taken.restart back)
  rcases hkept with ⟨e, he, hagrees⟩ | ⟨hnone, hgone⟩
  · refine .inl ⟨TicketPool.restoredEntry (taken.restart back) maxTtl e, ?_, hagrees.restored hback⟩
    rw [hlookup, he]
    rfl
  · refine .inr ⟨?_, hgone⟩
    rw [hlookup, hnone]
    rfl

/-! ## One step -/

namespace TicketDesk

variable {d : TicketDesk} {s : TicketStep}

/-- The steps a hold survives as it is. -/
def SparesHold (h : Hold) (op : TicketOp) : Prop :=
  (∀ maxTtl, op ≠ .restore maxTtl) ∧ ∀ q deadline, h = .heldFor q deadline → op ≠ .unassign q

/-- No step but the quote's `unassign` and a restart loosens a hold. -/
theorem kept_poolAfter (hsound : d.Sound ledger) (hallowed : d.Allows ledger s)
    (hspares : SparesHold h s.op) (hkept : h.Kept ledger tid d.now d.offset d.pool) :
    h.Kept ledger tid s.clocks.now (d.apply s).offset (d.poolAfter s) := by
  have hlater : h.Kept ledger tid s.clocks.now (d.apply s).offset d.pool :=
    hkept.mono hallowed.1 (offset_le_apply hallowed)
  unfold TicketDesk.poolAfter
  cases hs : s.op with
  | assign quoteId expiresAt prefer =>
    dsimp only
    split
    · exact hlater
    · next returned pool hassign =>
      obtain ⟨key, entry, hentry, hfree, -, hpool⟩ := TicketPool.of_assign hassign
      dsimp only at hpool
      subst hpool
      by_cases htid : tid = key
      · subst htid
        rcases hlater with ⟨e, he, hagrees⟩ | ⟨hnone, -⟩
        · obtain rfl : e = entry := Option.some.inj (he.symm.trans hentry)
          -- a free ticket: the hold has lapsed
          rw [hfree] at hagrees
          obtain ⟨q, deadline, rfl, hlapsed⟩ := Hold.lapsed_of_agrees_free hagrees
          exact .inl ⟨_, AList.lookup_insert _, .inl hlapsed⟩
        · rw [hentry] at hnone
          cases hnone
      · unfold Hold.Kept
        rw [AList.lookup_insert_ne htid]
        exact hlater
  | unassign quoteId =>
    refine hlater.setStatus fun e hwhich hagrees => ?_
    cases hstatus : e.status with
    | assigned q expiresAt =>
      rw [hstatus] at hagrees
      simp only [TicketPool.isAssignedTo, hstatus, decide_eq_true_eq] at hwhich
      cases h with
      | spent => cases hagrees
      | heldFor q' deadline =>
        rcases hagrees with hlapsed | hspent | ⟨t, hassigned, -⟩
        · exact .inl hlapsed
        · cases hspent
        · cases hassigned
          exact absurd (hs.trans (congrArg TicketOp.unassign hwhich.symm))
            (hspares.2 q deadline rfl)
    | free => simp [TicketPool.isAssignedTo, hstatus] at hwhich
    | spent => simp [TicketPool.isAssignedTo, hstatus] at hwhich
  | onArchived contractId =>
    refine hlater.setStatus fun e _ _ => ?_
    cases h with
    | spent => rfl
    | heldFor q deadline => exact .inr (.inl rfl)
  | markSpent quoteId =>
    refine hlater.setStatus fun e _ _ => ?_
    cases h with
    | spent => rfl
    | heldFor q deadline => exact .inr (.inl rfl)
  | expireAssignments =>
    refine hlater.setStatus fun e hwhich hagrees => ?_
    cases hstatus : e.status with
    | assigned q expiresAt =>
      rw [hstatus] at hagrees
      simp only [TicketPool.hasExpired, hstatus, ge_iff_le, decide_eq_true_eq] at hwhich
      cases h with
      | spent => cases hagrees
      | heldFor q' deadline =>
        rcases hagrees with hlapsed | hspent | ⟨t, hassigned, hle⟩
        · exact .inl hlapsed
        · cases hspent
        · cases hassigned
          exact .inl (hle.trans hwhich)
    | free => simp [TicketPool.hasExpired, hstatus] at hwhich
    | spent => simp [TicketPool.hasExpired, hstatus] at hwhich
  | reconcile offset onLedger =>
    obtain ⟨hoffset, hlisted⟩ : d.offset ≤ offset ∧
        ∀ tid, tid ∈ onLedger.map TicketAcsInfo.ticketId ↔ ledger.Active offset tid := by
      have hop := hallowed.2
      rwa [hs] at hop
    have hnow : (d.apply s).offset = offset := by
      unfold TicketDesk.apply
      rw [hs]
    rw [hnow] at hlater ⊢
    dsimp only
    cases hfound : (d.pool.reconcileFromAcs onLedger).lookup tid with
    | some e =>
      obtain ⟨-, hmem, hcase⟩ := TicketPool.of_lookup_reconcileFromAcs hsound.keyed hfound
      rcases hlater with ⟨old, hold, hagrees⟩ | ⟨hnone, hgone⟩
      · rcases hcase with ⟨hnone, -⟩ | ⟨old', hold', hstatus⟩
        · rw [hold] at hnone
          cases hnone
        · obtain rfl : old' = old := Option.some.inj (hold'.symm.trans hold)
          exact .inl ⟨e, hfound, hstatus ▸ hagrees⟩
      · exact absurd ((hlisted tid).mp hmem) (hgone offset le_rfl)
    | none =>
      -- dropped: it was on the ledger before and is not now
      have hleft : ¬ ledger.Active offset tid := fun hactive =>
        AList.lookup_eq_none.mp hfound (TicketPool.mem_reconcileFromAcs ((hlisted tid).mpr hactive))
      rcases hlater with ⟨old, hold, -⟩ | ⟨-, hgone⟩
      · have hseen : ledger.Seen offset tid :=
          (hsound.seen tid (Pool.mem_iff_lookup.mpr ⟨old, hold⟩)).mono hoffset
        exact .inr ⟨hfound, fun n hn => TicketLedger.not_active_of_left hseen hleft hn⟩
      · exact .inr ⟨hfound, hgone⟩
  | snapshot => exact hlater
  | restore maxTtl => exact absurd hs (hspares.1 maxTtl)

/-- The desk keeps what is promised now, and its save keeps what was promised then. -/
structure Honours (ledger : TicketLedger) (tid : String) (p : Promise) (d : TicketDesk) : Prop where
  current : ∀ h, p.current = some h → h.Kept ledger tid d.now d.offset d.pool
  saved : ∀ h taken, p.saved = some (h, taken) → taken.now ≤ d.now ∧
    ∃ pool : TicketPool, d.saved = some (pool.snapshot taken.now taken.nowMs) ∧
      pool.KeyedTickets ∧ h.Kept ledger tid taken.now d.offset pool

theorem Honours.apply {p : Promise} (hsound : d.Sound ledger) (hallowed : d.Allows ledger s)
    (hhonours : Honours ledger tid p d) : Honours ledger tid (p.follow s) (d.apply s) := by
  have hoffset := offset_le_apply hallowed
  have hpromised : ∀ h, p.current = some h → SparesHold h s.op →
      h.Kept ledger tid (d.apply s).now (d.apply s).offset (d.apply s).pool :=
    fun h hp hspares => kept_poolAfter hsound hallowed hspares (hhonours.current h hp)
  -- what was saved stays saved, and the ledger and the clock only move on
  have hsaved : ∀ h taken, p.saved = some (h, taken) → taken.now ≤ s.clocks.now ∧
      ∃ pool : TicketPool, d.saved = some (pool.snapshot taken.now taken.nowMs) ∧
        pool.KeyedTickets ∧ h.Kept ledger tid taken.now (d.apply s).offset pool := by
    intro h taken hp
    obtain ⟨hle, pool, hpool, hkeyed, hkept⟩ := hhonours.saved h taken hp
    exact ⟨hle.trans hallowed.1, pool, hpool, hkeyed, hkept.mono le_rfl hoffset⟩
  cases hs : s.op with
  | unassign quoteId =>
    constructor
    · intro h hp
      simp only [Promise.follow, hs] at hp
      obtain ⟨hcurrent, hother⟩ := Option.filter_eq_some_iff.mp hp
      refine hpromised h hcurrent ⟨?_, ?_⟩
      · rw [hs]
        rintro maxTtl ⟨⟩
      · rintro q deadline rfl
        rw [hs]
        rintro ⟨⟩
        exact absurd rfl (of_decide_eq_true hother)
    · intro h taken hp
      simp only [Promise.follow, hs] at hp
      unfold TicketDesk.apply
      rw [hs]
      simpa only [TicketDesk.apply, hs] using hsaved h taken hp
  | snapshot =>
    constructor
    · intro h hp
      simp only [Promise.follow, hs] at hp
      refine hpromised h hp ⟨?_, ?_⟩
      · rw [hs]
        rintro maxTtl ⟨⟩
      · rintro q deadline rfl
        rw [hs]
        rintro ⟨⟩
    · intro h taken hp
      simp only [Promise.follow, hs] at hp
      obtain ⟨h', hcurrent, heq⟩ := Option.map_eq_some_iff.mp hp
      obtain ⟨rfl, rfl⟩ := Prod.mk.inj heq
      refine ⟨le_rfl, d.pool, ?_, hsound.keyed, ?_⟩
      · simp only [TicketDesk.apply, hs]
      · exact (hhonours.current h' hcurrent).mono hallowed.1 hoffset
  | restore maxTtl =>
    constructor
    · intro h hp
      simp only [Promise.follow, hs] at hp
      obtain ⟨⟨h', taken⟩, hmem, rfl⟩ := Option.map_eq_some_iff.mp hp
      obtain ⟨hle, pool, hpool, hkeyed, hkept⟩ := hsaved h' taken hmem
      have hrestored : (h'.retimed taken s.clocks maxTtl).Kept ledger tid s.clocks.now
          (d.apply s).offset (.restore ∅ (pool.snapshot taken.now taken.nowMs) maxTtl
            s.clocks.now s.clocks.nowMs) :=
        hkept.restored hle hkeyed
      simpa only [TicketDesk.apply, TicketDesk.poolAfter, hs, hpool, Option.getD_some]
        using hrestored
    · intro h taken hp
      simp only [Promise.follow, hs] at hp
      simpa only [TicketDesk.apply, hs] using hsaved h taken hp
  | _ =>
    constructor
    · intro h hp
      simp only [Promise.follow, hs] at hp
      refine hpromised h hp ⟨?_, ?_⟩
      · rw [hs]
        rintro maxTtl ⟨⟩
      · rintro q deadline rfl
        rw [hs]
        rintro ⟨⟩
    · intro h taken hp
      simp only [Promise.follow, hs] at hp
      simpa only [TicketDesk.apply, hs] using hsaved h taken hp

/-! ## Runs -/

theorem Honours.run {p : Promise} {steps : List TicketStep} (hsound : d.Sound ledger)
    (hallowed : d.AllowsAll ledger steps) (hhonours : Honours ledger tid p d) :
    Honours ledger tid (steps.foldl Promise.follow p) (d.run steps) := by
  induction steps generalizing d p with
  | nil => exact hhonours
  | cons s steps ih =>
    exact ih (hsound.apply hallowed.1) hallowed.2 (hhonours.apply hsound hallowed.1)

/-- A ticket that was assigned or spent goes to no quote against what the pool promises of it: only
an assignment whose deadline has passed lets it go. -/
theorem promised_ticket_kept {before after : List TicketStep} {e : TicketEntry} {hold kept : Hold}
    {quoteId prefer : String} {expiresAt : Instant} {assigned : (String × TicketEntry) × TicketPool}
    (hrun : fresh.AllowsAll ledger (before ++ after))
    (hticket : (fresh.run before).pool.lookup tid = some e) (hhold : e.status.hold = some hold)
    (hkept : hold.promisedAfter after = some kept)
    (hnow : (fresh.run (before ++ after)).now ≤ now)
    (hassign : (fresh.run (before ++ after)).pool.assign quoteId expiresAt prefer = some assigned)
    (hreturned : assigned.1.1 = tid) :
    ∃ q deadline, kept = .heldFor q deadline ∧ deadline ≤ now := by
  obtain ⟨hbefore, hafter⟩ := allowsAll_append.mp hrun
  have hsound : (fresh.run before).Sound ledger := sound_fresh.run hbefore
  have hagrees : hold.Agrees (fresh.run before).now e.status := by
    cases hstatus : e.status with
    | free => rw [hstatus] at hhold; cases hhold
    | assigned q deadline =>
      rw [hstatus] at hhold
      obtain rfl := Option.some.inj hhold
      exact .inr (.inr ⟨deadline, rfl, le_rfl⟩)
    | spent =>
      rw [hstatus] at hhold
      obtain rfl := Option.some.inj hhold
      rfl
  have hstart : Honours ledger tid ⟨some hold, none⟩ (fresh.run before) := by
    constructor
    · rintro h ⟨⟩
      exact .inl ⟨e, hticket, hagrees⟩
    · rintro h taken ⟨⟩
  have hend := (hstart.run hsound hafter).current kept hkept
  rw [run_append] at hnow hassign
  obtain ⟨key, entry, hentry, hfree, hresult, -⟩ := TicketPool.of_assign hassign
  have hkeyed : entry.ticketId = key := (hsound.run hafter).keyed _ _ hentry
  obtain rfl : key = tid := by
    rw [← hkeyed, ← hreturned, hresult]
  rcases hend with ⟨e', he', hagrees'⟩ | ⟨hnone, -⟩
  · obtain rfl : e' = entry := Option.some.inj (he'.symm.trans hentry)
    rw [hfree] at hagrees'
    obtain ⟨q, deadline, rfl, hlapsed⟩ := Hold.lapsed_of_agrees_free hagrees'
    exact ⟨q, deadline, rfl, hlapsed.trans hnow⟩
  · rw [hentry] at hnone
    cases hnone

/-! ## What a restart costs -/

/-- A ledger with one ticket, archived at offset 5. -/
def oneTicket : TicketLedger := fun tid => if tid = "tk" then some ⟨0, some 5⟩ else none

/-- A step on clocks that agree. -/
def stepAt (now : Instant) (op : TicketOp) : TicketStep := ⟨⟨now, asMillis now⟩, op⟩

def listed : TicketStep :=
  stepAt 0 (.reconcile 0 [⟨"tk", "00tk", some "SettlementTicket", some "blob", some "{}"⟩])

theorem listed_iff :
    tid ∈ ([⟨"tk", "00tk", some "SettlementTicket", some "blob", some "{}"⟩] :
      List TicketAcsInfo).map TicketAcsInfo.ticketId ↔ oneTicket.Active 0 tid := by
  simp only [List.map_cons, List.map_nil, List.mem_singleton, TicketLedger.Active, oneTicket]
  constructor
  · rintro rfl
    refine ⟨⟨0, some 5⟩, rfl, le_rfl, ?_⟩
    rintro archived ⟨⟩
    decide
  · rintro ⟨life, hlife, -⟩
    by_contra htid
    rw [if_neg htid] at hlife
    cases hlife

theorem allows_listed (hnow : d.now = 0) (hoffset : d.offset = 0) : d.Allows oneTicket listed := by
  refine ⟨hnow.le, hoffset.le, fun _ => listed_iff⟩

/-- The ticket goes to another quote, although the assignment to `q` was not given up and its expiry
has not passed. -/
def Reassigned (ledger : TicketLedger) (before after : List TicketStep) (tid q : String)
    (deadline now : Instant) (other : String) : Prop :=
  fresh.AllowsAll ledger (before ++ after) ∧
  ((fresh.run before).pool.lookup tid).map TicketEntry.status = some (.assigned q deadline) ∧
  (∀ s ∈ after, s.op ≠ .unassign q) ∧
  (fresh.run (before ++ after)).now ≤ now ∧ now < deadline ∧ other ≠ q ∧
  ((fresh.run (before ++ after)).pool.assign other (now + 1) tid).map (·.1.1) = some tid

/-- The ticket goes to a quote although it was spent. -/
def SpentAssigned (ledger : TicketLedger) (before after : List TicketStep) (tid other : String) :
    Prop :=
  fresh.AllowsAll ledger (before ++ after) ∧
  ((fresh.run before).pool.lookup tid).map TicketEntry.status = some .spent ∧
  ((fresh.run (before ++ after)).pool.assign other 1 tid).map (·.1.1) = some tid

/-- A restart frees a ticket before its quote has expired, by the part of a millisecond it rounds
off, by the cap, by what the wall clock gained; and it loses an assignment and a mark that came
after the snapshot. -/
theorem restart_frees_tickets :
    Reassigned oneTicket [listed, stepAt 0 (.assign "q1" 1900000 "tk")]
      [stepAt 0 .snapshot, stepAt 0 (.restore restoreTtlCap), listed,
        stepAt 1000000 .expireAssignments] "tk" "q1" 1900000 1000000 "q2" ∧
    Reassigned oneTicket [listed, stepAt 0 (.assign "q1" (restoreTtlCap + 1) "tk")]
      [stepAt 0 .snapshot, stepAt 0 (.restore restoreTtlCap), listed,
        stepAt restoreTtlCap .expireAssignments]
      "tk" "q1" (restoreTtlCap + 1) restoreTtlCap "q2" ∧
    Reassigned oneTicket [listed, stepAt 0 (.assign "q1" (seconds 10) "tk")]
      [stepAt 0 .snapshot, ⟨⟨0, 10000⟩, .restore restoreTtlCap⟩, listed]
      "tk" "q1" (seconds 10) 0 "q2" ∧
    Reassigned oneTicket
      [listed, stepAt 0 .snapshot, stepAt 0 (.assign "q1" (seconds 10) "tk")]
      [stepAt 0 (.restore restoreTtlCap), listed] "tk" "q1" (seconds 10) 0 "q2" ∧
    SpentAssigned oneTicket [listed, stepAt 0 .snapshot, stepAt 0 (.onArchived "00tk")]
      [stepAt 0 (.restore restoreTtlCap), listed] "tk" "q2" := by
  refine ⟨⟨?_, by decide +kernel, ?_, by decide +kernel, by decide, by decide, by decide +kernel⟩,
    ⟨?_, by decide +kernel, ?_, by decide +kernel, by decide, by decide, by decide +kernel⟩,
    ⟨?_, by decide +kernel, ?_, by decide +kernel, by decide, by decide, by decide +kernel⟩,
    ⟨?_, by decide +kernel, ?_, by decide +kernel, by decide, by decide, by decide +kernel⟩,
    ⟨?_, by decide +kernel, by decide +kernel⟩⟩
  · exact ⟨allows_listed rfl rfl, ⟨le_rfl, True.intro⟩, ⟨le_rfl, True.intro⟩, ⟨le_rfl, True.intro⟩,
      allows_listed rfl rfl, ⟨Nat.zero_le _, True.intro⟩, True.intro⟩
  · simp [stepAt, listed]
  · exact ⟨allows_listed rfl rfl, ⟨le_rfl, True.intro⟩, ⟨le_rfl, True.intro⟩, ⟨le_rfl, True.intro⟩,
      allows_listed rfl rfl, ⟨Nat.zero_le _, True.intro⟩, True.intro⟩
  · simp [stepAt, listed]
  · exact ⟨allows_listed rfl rfl, ⟨le_rfl, True.intro⟩, ⟨le_rfl, True.intro⟩, ⟨le_rfl, True.intro⟩,
      allows_listed rfl rfl, True.intro⟩
  · simp [stepAt, listed]
  · exact ⟨allows_listed rfl rfl, ⟨le_rfl, True.intro⟩, ⟨le_rfl, True.intro⟩, ⟨le_rfl, True.intro⟩,
      allows_listed rfl rfl, True.intro⟩
  · simp [stepAt, listed]
  · exact ⟨allows_listed rfl rfl, ⟨le_rfl, True.intro⟩, ⟨le_rfl, True.intro⟩, ⟨le_rfl, True.intro⟩,
      allows_listed rfl rfl, True.intro⟩

/-- Saved and restored, an assignment of five seconds keeps the ticket for all but a millisecond of
them. -/
theorem promised_ticket_kept_over_restart :
    ∃ q deadline, Hold.heldFor "q1" 4999000000 = .heldFor q deadline ∧ deadline ≤ seconds 5 := by
  let before := [listed, stepAt 0 (.assign "q1" (seconds 5) "tk")]
  let after := [stepAt 0 .snapshot, stepAt 0 (.restore restoreTtlCap), listed,
    stepAt (seconds 5) .expireAssignments]
  have hassign : ((fresh.run (before ++ after)).pool.assign "q2" (seconds 10) "tk").isSome := by
    decide +kernel
  have hrun : fresh.AllowsAll oneTicket (before ++ after) :=
    ⟨allows_listed rfl rfl, ⟨le_rfl, True.intro⟩, ⟨le_rfl, True.intro⟩, ⟨le_rfl, True.intro⟩,
      allows_listed rfl rfl, ⟨Nat.zero_le _, True.intro⟩, True.intro⟩
  exact promised_ticket_kept (e := ⟨"tk", "00tk", some "SettlementTicket", some "blob", some "{}",
      .assigned "q1" (seconds 5)⟩)
    hrun rfl rfl (by decide +kernel) le_rfl (Option.some_get hassign).symm rfl

end TicketDesk

end BookAgent.CloudAgent
