import BookAgent.CloudAgent.PaymentRuns
import BookAgent.CloudAgent.SubmitterInputs

/-!
# What the payment queue has reserved

Whatever the cache holds under a payment's id was reserved for the payment in hand or for a
dispatched one, and has not been let go of. It stays there until it is, unless another user
of the cache takes it or its time runs out.
-/

namespace BookAgent.CloudAgent

open BookAgent.Lib

variable {D : Type}

theorem paymentId_injective {m n : Nat} (h : paymentId m = paymentId n) : m = n :=
  natText_injective (String.append_right_inj _ |>.mp h)

namespace PaymentWorld

variable (w : PaymentWorld D)

/-! ## Owners -/

/-- The payment in hand has the number, or a worker has. -/
def Owns (n : Nat) : Prop :=
  (∃ h, w.hand = some h ∧ h.number = some n) ∨ ∃ worker ∈ w.workers, worker.number = n

/-- The payment that an event lets go of. -/
def lettingGo : PaymentEvent D → Option Nat
  | .step _ =>
    match w.hand with
    | some (.poolFull _ n) => some n
    | _ => none
  | .submitEnds i _ _ | .guardReleases i _ => w.workers[i]?.map PaymentWorker.number
  | _ => none

/-- What an event does to the reservations. -/
inductive Books (w : PaymentWorld D) (e : PaymentEvent D) (w' : PaymentWorld D) : Prop
  | keeps (hreservations : w'.reservations = w.reservations) (hcache : w'.cache = w.cache)
      (hnext : w.nextPayment ≤ w'.nextPayment)
      (howns : ∀ m ∈ w.reservations, w.Owns m → w'.Owns m)
  | reserves {p : QueuedPayment D} {cids : List String} {now : Instant} (he : e = .step now)
      (hhand : w.hand = some (.selected p cids))
      (hfree : ∀ cid ∈ cids, w.cache.holdings.canReserve cid now = true)
      (heq : w' = { w with
        nextPayment := w.nextPayment + 1
        hand := some (.reserved p w.nextPayment)
        reservations := w.reservations.insert w.nextPayment ⟨cids, now⟩
        cache := { w.cache with
          holdings := w.cache.holdings.setReserved cids
            ⟨.v1Payment (paymentId w.nextPayment), now⟩ } })
  | letsGo {n : Nat} {r : AmuletReservation} (hletting : w.lettingGo e = some n)
      (hlookup : w.reservations.lookup n = some r)
      (hreservations : w'.reservations = w.reservations.erase n)
      (hcache : w'.cache.holdings.reserved = w.cache.holdings.reserved.eraseAll r.cids)
      (hnext : w'.nextPayment = w.nextPayment) (howns : ∀ m, m ≠ n → w.Owns m → w'.Owns m)
  | uses {c : CacheEvent D} (he : e = .cache c)
      (heq : w' = { w with cache := { w.cache with holdings := w.cache.holdings.apply c } })

section Books

variable {w} {w' : PaymentWorld D} {e : PaymentEvent D}

/-- An event that leaves the reservations, the hand and the workers as they are. -/
theorem Books.of_eq (hreservations : w'.reservations = w.reservations) (hcache : w'.cache = w.cache)
    (hnext : w'.nextPayment = w.nextPayment) (hhand : w'.hand = w.hand)
    (hworkers : w'.workers = w.workers) : w.Books e w' := by
  refine .keeps hreservations hcache hnext.ge fun m _ howns => ?_
  unfold Owns at howns ⊢
  rwa [hhand, hworkers]

/-- The reservations as they are, and a hand that had none of them. -/
theorem Books.of_hand (hreservations : w'.reservations = w.reservations)
    (hcache : w'.cache = w.cache) (hnext : w.nextPayment ≤ w'.nextPayment)
    (hworkers : w'.workers = w.workers) (hhand : ∀ h, w.hand = some h → h.number = none) :
    w.Books e w' := by
  refine .keeps hreservations hcache hnext fun m _ howns => ?_
  rcases howns with ⟨h, hh, hnumber⟩ | hworker
  · rw [hhand h hh] at hnumber
    cases hnumber
  · exact .inr (hworkers ▸ hworker)

variable [Decimal D]

theorem reserved_processTxResult (c : HoldingsCache D) (cids : List String)
    (response : ExecuteTransactionResponse) (created : List (CreatedContract D)) (now : Instant) :
    (processTxResult c cids response created now).reserved = c.reserved.eraseAll cids := by
  have marked : (if cids.isEmpty then c else c.markConsumed cids response.updateId now).reserved =
      c.reserved.eraseAll cids := by
    cases cids <;> rfl
  unfold processTxResult
  dsimp only
  split
  · exact marked
  · exact marked

/-- However a submit ends, nothing is left reserved under its amulets. -/
theorem reserved_executeAllocate (c : SplitCache D) (cids : List String) (ended : SubmitterEnd D)
    (now : Instant) :
    (executeAllocate c cids ended now).holdings.reserved =
      c.holdings.reserved.eraseAll cids := by
  unfold executeAllocate
  split
  · rfl
  · rfl
  · exact reserved_processTxResult _ _ _ _ _
  · split
    · unfold handleInactiveContracts
      cases cids <;> rfl
    · rfl

theorem workerLetsGo_books {i : Nat} (ended : SubmitterEnd D) (now : Instant)
    (hletting : w.lettingGo e = w.workers[i]?.map PaymentWorker.number) :
    w.Books e (w.workerLetsGo i ended now) := by
  unfold workerLetsGo letGo
  split
  · next worker hworker =>
    split
    · next r hlookup =>
      refine .letsGo (hletting.trans ?_) hlookup rfl (reserved_executeAllocate _ _ _ _) rfl
        fun m _ howns => howns
      rw [hworker]
      rfl
    · exact .of_eq rfl rfl rfl rfl rfl
  · exact .of_eq rfl rfl rfl rfl rfl

theorem pop_books (hnone : w.hand = none) : w.Books e w.pop := by
  have nothing : ∀ h, w.hand = some h → h.number = none := by
    intro h hh
    rw [hnone] at hh
    cases hh
  unfold pop
  split
  · exact .of_eq rfl rfl rfl rfl rfl
  · dsimp only
    split
    · exact .of_eq rfl rfl rfl rfl rfl
    · split
      · exact .of_eq rfl rfl rfl rfl rfl
      · exact .of_hand rfl rfl le_rfl rfl nothing

theorem choose_books {h : InHand D} (hhand : w.hand = some h) (hnumber : h.number = none)
    (p : QueuedPayment D) (target : D) (selected : List (CachedHolding D)) :
    w.Books e (w.choose p target selected) := by
  have nothing : ∀ h', w.hand = some h' → h'.number = none := by
    intro h' hh'
    obtain rfl := Option.some.inj (hhand.symm.trans hh')
    exact hnumber
  unfold choose
  dsimp only
  split
  · exact .of_hand rfl rfl le_rfl rfl nothing
  · exact .of_hand rfl rfl le_rfl rfl nothing

omit [Decimal D] in
theorem reserve_books {p : QueuedPayment D} {cids : List String} {now : Instant}
    (hhand : w.hand = some (.selected p cids)) (he : e = .step now) :
    w.Books e (w.reserve p cids now) := by
  have nothing : ∀ h, w.hand = some h → h.number = none := by
    intro h hh
    obtain rfl := Option.some.inj (hhand.symm.trans hh)
    rfl
  unfold reserve
  dsimp only
  split
  · exact .of_hand rfl rfl (Nat.le_succ _) rfl nothing
  · next holdings hreserved =>
    split at hreserved
    · next hempty =>
      obtain rfl := List.isEmpty_iff.mp hempty
      obtain rfl := (Prod.mk.inj hreserved).2
      exact .reserves he hhand (fun cid hcid => by cases hcid) rfl
    · rcases w.cache.holdings.reserveWithKind_eq cids (.v1Payment (paymentId w.nextPayment)) now
        with hfails | hgrants
      · cases hreserved.symm.trans hfails
      · have hfree := HoldingsCache.reserveWithKind_fst.mp (congrArg Prod.fst hgrants)
        obtain rfl := (Prod.mk.inj (hreserved.symm.trans hgrants)).2
        exact .reserves he hhand hfree rfl

omit [Decimal D] in
theorem acquire_books {p : QueuedPayment D} {n : Nat} (hhand : w.hand = some (.reserved p n)) :
    w.Books e (w.acquire p n) := by
  unfold acquire
  split
  · refine .keeps rfl rfl le_rfl fun m _ howns => ?_
    rcases howns with ⟨h, hh, hnumber⟩ | hworker
    · obtain rfl := Option.some.inj (hhand.symm.trans hh)
      exact .inl ⟨_, rfl, hnumber⟩
    · exact .inr hworker
  · refine .keeps rfl rfl le_rfl fun m _ howns => ?_
    rcases howns with ⟨h, hh, hnumber⟩ | ⟨worker, hworker, hnumber⟩
    · obtain rfl := Option.some.inj (hhand.symm.trans hh)
      -- the number goes from the hand to the new worker
      exact .inr ⟨_, List.mem_append_right _ List.mem_cons_self, Option.some.inj hnumber⟩
    · exact .inr ⟨worker, List.mem_append_left _ hworker, hnumber⟩

omit [Decimal D] in
theorem putBack_books {p : QueuedPayment D} {n : Nat} (hhand : w.hand = some (.poolFull p n))
    (hletting : w.lettingGo e = some n) :
    w.Books e ((w.letGo n fun c cids =>
      { c with holdings := c.holdings.releaseReservations cids }).defer p) := by
  unfold letGo
  split
  · next r hlookup =>
    refine .letsGo hletting hlookup rfl rfl rfl fun m hne howns => ?_
    rcases howns with ⟨h, hh, hnumber⟩ | hworker
    · obtain rfl := Option.some.inj (hhand.symm.trans hh)
      exact absurd (Option.some.inj hnumber).symm hne
    · exact .inr hworker
  · next hlookup =>
    refine .keeps rfl rfl le_rfl fun m hm howns => ?_
    rcases howns with ⟨h, hh, hnumber⟩ | hworker
    · obtain rfl := Option.some.inj (hhand.symm.trans hh)
      obtain rfl := Option.some.inj hnumber
      exact absurd hm (AList.lookup_eq_none.mp hlookup)
    · exact .inr hworker

theorem step_books (now : Instant) : w.Books (.step now) (w.step now) := by
  unfold step
  split
  · next hnone => exact pop_books hnone
  · next p target hhand =>
    dsimp only
    generalize (if p.request.isAllocation = true then w.selectAt true target now else []) = selected
    split
    · refine .of_hand rfl rfl le_rfl rfl fun h hh => ?_
      obtain rfl := Option.some.inj (hhand.symm.trans hh)
      rfl
    · exact choose_books hhand rfl p target selected
  · next p target hhand => exact choose_books hhand rfl p target _
  · next p cids hhand => exact reserve_books hhand rfl
  · next p n hhand => exact acquire_books hhand
  · next p n hhand =>
    refine putBack_books hhand ?_
    unfold lettingGo
    rw [hhand]

omit [Decimal D] in
theorem workerEnds_books (i : Nat) : w.Books e (w.workerEnds i) := by
  unfold workerEnds
  split
  · next worker hworker =>
    refine .keeps rfl rfl le_rfl fun m _ howns => ?_
    rcases howns with hhand | ⟨other, hother, hnumber⟩
    · exact .inl hhand
    · obtain ⟨j, hj⟩ := List.getElem?_of_mem hother
      by_cases hji : j = i
      · subst hji
        obtain rfl := Option.some.inj (hworker.symm.trans hj)
        have hlt := (List.getElem?_eq_some_iff.mp hworker).1
        exact .inr ⟨_, List.mem_set hlt _, hnumber⟩
      · have hkept : (w.workers.set i { worker with running := false })[j]? = some other :=
          (List.getElem?_set_ne (Ne.symm hji)).trans hj
        exact .inr ⟨other, List.mem_of_getElem? hkept, hnumber⟩
  · exact .of_eq rfl rfl rfl rfl rfl

variable (w) in
theorem apply_books (e : PaymentEvent D) : w.Books e (w.apply e) := by
  cases e with
  | number request => exact .of_eq rfl rfl rfl rfl rfl
  | send i =>
    unfold apply send
    dsimp only
    split <;> exact .of_eq rfl rfl rfl rfl rfl
  | giveUp sequence => exact .of_eq rfl rfl rfl rfl rfl
  | receive =>
    unfold apply receive
    dsimp only
    split <;> exact .of_eq rfl rfl rfl rfl rfl
  | begin connected => cases connected <;> exact .of_eq rfl rfl rfl rfl rfl
  | step now => exact step_books now
  | submitEnds i result now => exact workerLetsGo_books (submitEnd result) now rfl
  | guardReleases i now => exact workerLetsGo_books .early now rfl
  | workerEnds i => exact workerEnds_books i
  | cache c => exact .uses rfl rfl

end Books

/-! ## Entries of payments -/

/-- Every reservation has an owner and a number of its own, and the entries under payments' ids
are those of the reservations. -/
structure Reserves : Prop where
  below : ∀ n ∈ w.reservations, n < w.nextPayment
  owned : ∀ n ∈ w.reservations, w.Owns n
  entries : ∀ cid n t, w.cache.holdings.reserved.lookup cid = some ⟨.v1Payment (paymentId n), t⟩ →
    ∃ r, w.reservations.lookup n = some r ∧ cid ∈ r.cids ∧ r.reservedAt = t

/-- An event takes an amulet from a payment that reserved it: it is consumed or released, another
reservation or a cleanup comes once its time has run out, or another payment that reserved it too
lets go of it. -/
inductive Takes (n : Nat) (r : AmuletReservation) (cid : String) : PaymentEvent D → Prop
  | consumed {cids : List String} {reason : String} {now : Instant} (hmem : cid ∈ cids) :
      Takes n r cid (.cache (.markConsumed cids reason now))
  | released {cids : List String} (hmem : cid ∈ cids) : Takes n r cid (.cache (.release cids))
  | restored {cids : List String} {quoteId : String} {expiresAt now : Instant} (hmem : cid ∈ cids) :
      Takes n r cid (.cache (.restore cids quoteId expiresAt now))
  | reserved {cids : List String} {kind : ReservationKind} {now : Instant} (hmem : cid ∈ cids)
      (hexpired : (r.entry n).isExpired now = true) :
      Takes n r cid (.cache (.reserve cids kind now))
  | cleaned {now : Instant} (hexpired : (r.entry n).isExpired now = true) :
      Takes n r cid (.cache (.cleanup now))
  | scheduled {p : QueuedPayment D} {cids : List String} {now : Instant}
      (hhand : w.hand = some (.selected p cids)) (hmem : cid ∈ cids)
      (hexpired : (r.entry n).isExpired now = true) : Takes n r cid (.step now)
  | letGo {e : PaymentEvent D} {m : Nat} {r' : AmuletReservation} (hne : m ≠ n)
      (hletting : w.lettingGo e = some m) (hlookup : w.reservations.lookup m = some r')
      (hmem : cid ∈ r'.cids) : Takes n r cid e

section Reserves

variable {w} {e : PaymentEvent D}

/-- An entry of a payment was there before another user's event. -/
theorem lookup_of_uses {c : HoldingsCache D} {event : CacheEvent D} {cid : String} {n : Nat}
    {t : Instant} (hallows : w.Allows (.cache event))
    (h : (c.apply event).reserved.lookup cid = some ⟨.v1Payment (paymentId n), t⟩) :
    c.reserved.lookup cid = some ⟨.v1Payment (paymentId n), t⟩ := by
  cases event with
  | addCreated holdings => exact h
  | markConsumed cids reason now =>
    by_cases hmem : cid ∈ cids
    · cases (Pool.lookup_eraseAll_of_mem hmem).symm.trans h
    · exact (Pool.lookup_eraseAll_of_notMem hmem).symm.trans h
  | reserve cids kind now =>
    have hkind : ∀ number, kind ≠ .v1Payment (paymentId number) := hallows
    have hafter : (c.reserveWithKind cids kind now).2.reserved.lookup cid = _ := h
    rcases c.reserveWithKind_eq cids kind now with heq | heq
    · rwa [heq] at hafter
    · rw [heq] at hafter
      rcases Pool.lookup_insertAll hafter with hnew | hold
      · obtain ⟨cid', hcid, hentry⟩ := List.mem_map.mp hnew
        exact absurd (congrArg ReservedEntry.kind (Prod.mk.inj hentry).2) (hkind n)
      · exact hold
  | release cids =>
    by_cases hmem : cid ∈ cids
    · cases (Pool.lookup_eraseAll_of_mem hmem).symm.trans h
    · exact (Pool.lookup_eraseAll_of_notMem hmem).symm.trans h
  | restore cids quoteId expiresAt now =>
    rcases Pool.lookup_insertAll h with hnew | hold
    · obtain ⟨cid', hcid, hentry⟩ := List.mem_map.mp hnew
      cases congrArg ReservedEntry.kind (Prod.mk.inj hentry).2
    · exact hold
  | cleanup now => exact (Pool.lookup_retain_eq_some.mp h).1
  | refresh holdings snapshotStart => exact h

/-- An id that is reserved can be reserved again when its entry has expired. -/
theorem isExpired_of_canReserve {c : HoldingsCache D} {cid : String} {entry : ReservedEntry}
    {now : Instant} (hentry : c.reserved.lookup cid = some entry)
    (hfree : c.canReserve cid now = true) : entry.isExpired now = true := by
  unfold HoldingsCache.canReserve HoldingsCache.isReserved at hfree
  rw [hentry, Option.any_some, Bool.not_not, Bool.and_eq_true] at hfree
  exact hfree.2

variable [Decimal D]

theorem Reserves.apply (h : w.Reserves) (hallows : w.Allows e) : (w.apply e).Reserves := by
  cases w.apply_books e with
  | keeps hreservations hcache hnext howns =>
    refine ⟨?_, ?_, ?_⟩
    · rw [hreservations]
      exact fun n hn => (h.below n hn).trans_le hnext
    · rw [hreservations]
      exact fun n hn => howns n hn (h.owned n hn)
    · rw [hreservations, hcache]
      exact h.entries
  | @reserves p cids now he hhand hfree heq =>
    rw [heq]
    refine ⟨fun n hn => ?_, fun n hn => ?_, fun cid n t hentry => ?_⟩
    · rcases (AList.mem_insert _).mp hn with rfl | hold
      · exact Nat.lt_succ_self _
      · exact Nat.lt_succ_of_lt (h.below n hold)
    · rcases (AList.mem_insert _).mp hn with rfl | hold
      · exact .inl ⟨_, rfl, rfl⟩
      · rcases h.owned n hold with ⟨h', hh', hnumber⟩ | hworker
        · obtain rfl := Option.some.inj (hhand.symm.trans hh')
          cases hnumber
        · exact .inr hworker
    · rcases Pool.lookup_insertAll hentry with hnew | hold
      · obtain ⟨cid', hcid, heq⟩ := List.mem_map.mp hnew
        obtain ⟨rfl, hsame⟩ := Prod.mk.inj heq
        obtain ⟨hkind, rfl⟩ := ReservedEntry.mk.inj hsame
        obtain rfl := paymentId_injective (ReservationKind.v1Payment.inj hkind)
        exact ⟨_, AList.lookup_insert _, hcid, rfl⟩
      · obtain ⟨r, hlookup, hcid, htime⟩ := h.entries cid n t hold
        have hne : n ≠ w.nextPayment := (h.below n (Pool.mem_iff_lookup.mpr ⟨r, hlookup⟩)).ne
        exact ⟨r, (AList.lookup_insert_ne hne).trans hlookup, hcid, htime⟩
  | @letsGo n r hletting hlookup hreservations hcache hnext howns =>
    refine ⟨fun m hm => ?_, fun m hm => ?_, fun cid m t hentry => ?_⟩
    · rw [hreservations, AList.mem_erase] at hm
      exact hnext ▸ h.below m hm.2
    · rw [hreservations, AList.mem_erase] at hm
      exact howns m hm.1 (h.owned m hm.2)
    · rw [hcache] at hentry
      by_cases hcid : cid ∈ r.cids
      · cases (Pool.lookup_eraseAll_of_mem hcid).symm.trans hentry
      · rw [Pool.lookup_eraseAll_of_notMem hcid] at hentry
        obtain ⟨r', hlookup', hcid', htime⟩ := h.entries cid m t hentry
        have hne : m ≠ n := by
          rintro rfl
          obtain rfl := Option.some.inj (hlookup.symm.trans hlookup')
          exact hcid hcid'
        rw [hreservations]
        exact ⟨r', (AList.lookup_erase_ne hne).trans hlookup', hcid', htime⟩
  | uses he heq =>
    subst he
    rw [heq]
    exact ⟨h.below, h.owned, fun cid n t hentry => h.entries cid n t (lookup_of_uses hallows hentry)⟩

variable (w e) in
theorem nextPayment_le : w.nextPayment ≤ (w.apply e).nextPayment := by
  cases w.apply_books e with
  | keeps hreservations hcache hnext howns => exact hnext
  | reserves he hhand hfree heq => exact heq ▸ Nat.le_succ _
  | letsGo hletting hlookup hreservations hcache hnext howns => exact hnext.ge
  | uses he heq => exact heq ▸ le_rfl

/-- What is reserved under a number of the past was reserved before. -/
theorem lookup_of_apply {n : Nat} {r : AmuletReservation} (hn : n < w.nextPayment)
    (h : (w.apply e).reservations.lookup n = some r) : w.reservations.lookup n = some r := by
  cases w.apply_books e with
  | keeps hreservations hcache hnext howns => exact hreservations ▸ h
  | reserves he hhand hfree heq =>
    rw [heq] at h
    exact (AList.lookup_insert_ne hn.ne).symm.trans h
  | letsGo hletting hlookup hreservations hcache hnext howns =>
    rw [hreservations] at h
    exact Pool.lookup_of_erase h
  | uses he heq =>
    rw [heq] at h
    exact h

omit [Decimal D] in
/-- Another user's event leaves an entry that it does not take. -/
theorem lookup_uses_of_not_takes {event : CacheEvent D} {n : Nat} {r : AmuletReservation}
    {cid : String} (hkept : ¬ w.Takes n r cid (.cache event))
    (hentry : w.cache.holdings.reserved.lookup cid = some (r.entry n)) :
    (w.cache.holdings.apply event).reserved.lookup cid = some (r.entry n) := by
  cases event with
  | addCreated holdings => exact hentry
  | markConsumed cids reason now =>
    exact (Pool.lookup_eraseAll_of_notMem fun hmem => hkept (.consumed hmem)).trans hentry
  | reserve cids kind now =>
    change (w.cache.holdings.reserveWithKind cids kind now).2.reserved.lookup cid = _
    rcases w.cache.holdings.reserveWithKind_eq cids kind now with heq | heq
    · rwa [heq]
    · have hfree := HoldingsCache.reserveWithKind_fst.mp (congrArg Prod.fst heq)
      have hother : cid ∉ cids := fun hmem =>
        hkept (.reserved hmem (isExpired_of_canReserve hentry (hfree cid hmem)))
      rw [heq]
      exact (SharedRun.lookup_setReserved_of_notMem hother).trans hentry
  | release cids =>
    exact (Pool.lookup_eraseAll_of_notMem fun hmem => hkept (.released hmem)).trans hentry
  | restore cids quoteId expiresAt now =>
    exact (SharedRun.lookup_setReserved_of_notMem fun hmem => hkept (.restored hmem)).trans hentry
  | cleanup now =>
    refine Pool.lookup_retain_eq_some.mpr ⟨hentry, ?_⟩
    rw [Bool.not_eq_true']
    exact Bool.eq_false_iff.mpr fun hexpired => hkept (.cleaned hexpired)
  | refresh holdings snapshotStart => exact hentry

/-- A payment that has not let go keeps an amulet that no event takes. -/
theorem lookup_apply_of_not_takes {n : Nat} {r : AmuletReservation} {cid : String}
    (hkept : ¬ w.Takes n r cid e) (h : (w.apply e).reservations.lookup n = some r)
    (hentry : w.cache.holdings.reserved.lookup cid = some (r.entry n)) :
    (w.apply e).cache.holdings.reserved.lookup cid = some (r.entry n) := by
  cases w.apply_books e with
  | keeps hreservations hcache hnext howns => exact hcache ▸ hentry
  | reserves he hhand hfree heq =>
    have hother : cid ∉ _ := fun hmem =>
      hkept (he ▸ .scheduled hhand hmem (isExpired_of_canReserve hentry (hfree cid hmem)))
    rw [heq]
    exact (SharedRun.lookup_setReserved_of_notMem hother).trans hentry
  | @letsGo m r' hletting hlookup hreservations hcache hnext howns =>
    have hne : m ≠ n := by
      rintro rfl
      rw [hreservations, AList.lookup_erase] at h
      cases h
    rw [hcache]
    exact (Pool.lookup_eraseAll_of_notMem fun hmem =>
      hkept (.letGo hne hletting hlookup hmem)).trans hentry
  | uses he heq =>
    subst he
    rw [heq]
    exact lookup_uses_of_not_takes hkept hentry

/-- What a payment reserves is all under its id. -/
theorem granted {n : Nat} {r : AmuletReservation} (hnone : w.reservations.lookup n = none)
    (h : (w.apply e).reservations.lookup n = some r) :
    n < (w.apply e).nextPayment ∧
      ∀ cid ∈ r.cids, (w.apply e).cache.holdings.reserved.lookup cid = some (r.entry n) := by
  cases w.apply_books e with
  | keeps hreservations hcache hnext howns =>
    rw [hreservations, hnone] at h
    cases h
  | reserves he hhand hfree heq =>
    rw [heq] at h ⊢
    obtain rfl : n = w.nextPayment := by
      by_contra hne
      rw [AList.lookup_insert_ne hne, hnone] at h
      cases h
    obtain rfl := Option.some.inj ((AList.lookup_insert _).symm.trans h)
    exact ⟨Nat.lt_succ_self _, fun cid hcid => SharedRun.lookup_setReserved_of_mem hcid⟩
  | letsGo hletting hlookup hreservations hcache hnext howns =>
    rw [hreservations] at h
    cases hnone.symm.trans (Pool.lookup_of_erase h)
  | uses he heq =>
    rw [heq] at h
    cases hnone.symm.trans h

/-- It stays so until the payment lets go or an event takes it. -/
theorem lookup_of_reachable {w' : PaymentWorld D} {n : Nat} {r : AmuletReservation} {cid : String}
    (hn : n < w.nextPayment) (hentry : w.cache.holdings.reserved.lookup cid = some (r.entry n))
    (run : Reachable (fun s e => s.Allows e ∧ ¬ s.Takes n r cid e) (fun s e => s.apply e) w w')
    (h : w'.reservations.lookup n = some r) :
    w'.cache.holdings.reserved.lookup cid = some (r.entry n) := by
  suffices held : n < w'.nextPayment ∧ (w'.reservations.lookup n = some r →
      w'.cache.holdings.reserved.lookup cid = some (r.entry n)) from held.2 h
  refine Reachable.invariant (fun s => n < s.nextPayment ∧ (s.reservations.lookup n = some r →
    s.cache.holdings.reserved.lookup cid = some (r.entry n))) ⟨hn, fun _ => hentry⟩ ?_ run
  rintro s e ⟨hbelow, hheld⟩ ⟨-, hkept⟩
  refine ⟨hbelow.trans_le (s.nextPayment_le e), fun hafter => ?_⟩
  exact lookup_apply_of_not_takes hkept hafter (hheld (lookup_of_apply hbelow hafter))

end Reserves

/-! ## The guarantees -/

section Start

variable {cache : SplitCache D} {limits : WorkerPool → Nat}

theorem numbered_start : (start cache limits).Numbered :=
  ⟨List.nodup_nil, fun p hp => (by cases hp), fun _ => ⟨rfl, rfl⟩⟩

theorem accounted_start [Decimal D] : (start cache limits).Accounted :=
  ⟨List.nodup_nil, .refl _, fun p hp => (by cases hp), fun p hp => (by cases hp)⟩

theorem ranked_start : (start cache limits).Ranked := by
  refine ⟨fun h hh => (by cases hh), fun hpassing => (by cases hpassing),
    fun h hh => (by cases hh), ?_, ?_⟩
  · exact fun newer q older heq => by cases newer <;> cases heq
  · exact fun newer p before heq => by cases newer <;> cases heq

theorem reserves_start
    (hcache : ∀ cid n t, cache.holdings.reserved.lookup cid ≠ some ⟨.v1Payment (paymentId n), t⟩) :
    (start cache limits).Reserves :=
  ⟨fun n hn => absurd hn (AList.notMem_empty n), fun n hn => absurd hn (AList.notMem_empty n),
    fun cid n t hentry => absurd hentry (hcache cid n t)⟩

end Start

variable [Decimal D]

/-- What holds of the queue in any state of a run. Between passes, what is under a payment's id
was reserved for a dispatched payment that has not let go of it; and whatever a payment reserves
stays under its id until it lets go, or an event takes it. -/
structure LosesNoPayment : Prop where
  accounted : w.Accounted
  inOrder : InOrder w.passHeap w.passLog
  reserved : w.passing = false → ∀ cid n t,
    w.cache.holdings.reserved.lookup cid = some ⟨.v1Payment (paymentId n), t⟩ →
    (∃ worker ∈ w.workers, worker.number = n) ∧
      ∃ r, w.reservations.lookup n = some r ∧ cid ∈ r.cids ∧ r.reservedAt = t
  kept : ∀ e, w.Allows e → ∀ n r, w.reservations.lookup n = none →
    (w.apply e).reservations.lookup n = some r → ∀ cid ∈ r.cids, ∀ w',
    Reachable (fun s e => s.Allows e ∧ ¬ s.Takes n r cid e) (fun s e => s.apply e) (w.apply e) w' →
    w'.reservations.lookup n = some r →
    w'.cache.holdings.reserved.lookup cid = some (r.entry n)

/-- **The queue loses no payment and dispatches none twice.** -/
theorem losesNoPayment {cache : SplitCache D} {limits : WorkerPool → Nat} {w : PaymentWorld D}
    (hcache : ∀ cid n t, cache.holdings.reserved.lookup cid ≠ some ⟨.v1Payment (paymentId n), t⟩)
    (run : Reachable Allows (fun s e => s.apply e) (start cache limits) w) : w.LosesNoPayment := by
  obtain ⟨hnumbered, haccounted, hranked, hreserves⟩ :
      w.Numbered ∧ w.Accounted ∧ w.Ranked ∧ w.Reserves := by
    refine Reachable.invariant
      (fun w => w.Numbered ∧ w.Accounted ∧ w.Ranked ∧ w.Reserves) ?_ ?_ run
    · exact ⟨numbered_start, accounted_start, ranked_start, reserves_start hcache⟩
    · rintro s e ⟨hnumbered, haccounted, hranked, hreserves⟩ hallows
      have hafter := hnumbered.apply hallows
      exact ⟨hafter, haccounted.apply hafter, hranked.apply hnumbered hallows,
        hreserves.apply hallows⟩
  refine ⟨haccounted, hranked.inOrder, fun hidle cid n t hentry => ?_, ?_⟩
  · obtain ⟨r, hlookup, hcid, htime⟩ := hreserves.entries cid n t hentry
    rcases hreserves.owned n (Pool.mem_iff_lookup.mpr ⟨r, hlookup⟩) with ⟨h, hh, -⟩ | hworker
    · -- between passes nothing is in hand
      rw [(hnumbered.idle hidle).1] at hh
      cases hh
    · exact ⟨hworker, r, hlookup, hcid, htime⟩
  · intro e hallows n r hnone hlookup cid hcid w' run hstill
    obtain ⟨hbelow, hgranted⟩ := granted hnone hlookup
    exact lookup_of_reachable hbelow (hgranted cid hcid) run hstill

/-! ## A full pool, and a watcher that is first -/

/-- Whatever outranks a dispatched payment of its pool was dispatched before, left the queue, or
could not be funded or reserved. -/
def DispatchedInOrder : Prop :=
  ∀ newer p before, w.passLog = newer ++ .handled p .dispatched :: before →
    ∀ q ∈ w.passHeap, q.request.pool = p.request.pool → q.outranks p = true →
      ∃ how, how ≠ .poolFull ∧ .handled q how ∈ before

/-- Between passes, the amulets under payments' ids are those of the workers that run. -/
def ReservedByRunning : Prop :=
  w.passing = false → ∀ cid,
    (∃ n t, w.cache.holdings.reserved.lookup cid = some ⟨.v1Payment (paymentId n), t⟩) ↔
      ∃ worker ∈ w.workers, worker.running = true ∧
        ∃ r, w.reservations.lookup worker.number = some r ∧ cid ∈ r.cids

section Sample

/-- An amulet of twenty. -/
def stockedCache : SplitCache ScaledInt where
  holdings := (HoldingsCache.new false).addCreated
    [⟨"00aa", templateAmulet, ccInstrument, ⟨20, 0⟩, none, "", 0⟩]
  pendingSplits := []
  splitOpTimes := ∅

theorem stockedCache_noPayments (cid : String) (n : Nat) (t : Instant) :
    stockedCache.holdings.reserved.lookup cid ≠ some ⟨.v1Payment (paymentId n), t⟩ := by
  intro h
  have empty : AList.lookup cid (∅ : Pool String ReservedEntry) = _ := h
  rw [AList.lookup_empty] at empty
  cases empty

def allocation (proposalId : String) (allocationCc : Option ScaledInt) :
    PaymentRequest ScaledInt :=
  .allocate proposalId "d" allocationCc

def runOf (events : List (PaymentEvent ScaledInt)) : PaymentWorld ScaledInt :=
  events.foldl (fun s e => s.apply e) (start stockedCache fun _ => 1)

/-- The scheduler receives a payment and goes five steps of a pass. -/
def fiveSteps : List (PaymentEvent ScaledInt) :=
  .receive :: .begin true :: List.replicate 5 (.step 0)

/-- Two allocations find the only worker busy; it ends between them. -/
def busyEvents : List (PaymentEvent ScaledInt) :=
  .number (allocation "p1" none) :: .number (allocation "p2" none) :: .send 0 :: .send 0 ::
    fiveSteps ++ .workerEnds 0 :: List.replicate 4 (.step 0)

/-- An allocation is dispatched before them, and its pass ends. -/
def overtakingEvents : List (PaymentEvent ScaledInt) :=
  .number (allocation "p0" none) :: .send 0 :: fiveSteps ++ busyEvents

/-- An allocation of ten is dispatched, and its pass ends. -/
def dispatchEvents : List (PaymentEvent ScaledInt) :=
  .number (allocation "p0" (some ⟨10, 0⟩)) :: .send 0 :: fiveSteps

/-- The watcher sees the amulet consumed while the worker waits for its answer. -/
def watchedEvents : List (PaymentEvent ScaledInt) :=
  dispatchEvents ++ [.cache (.markConsumed ["00aa"] "u1" 0)]

/-- The events of these runs, where they may come. -/
def admitted (s : PaymentWorld ScaledInt) : PaymentEvent ScaledInt → Bool
  | .number _ | .send _ | .cache (.markConsumed _ _ _) => true
  | .receive => !s.passing
  | .begin _ => !s.passing && !s.heap.isEmpty
  | .step _ => s.passing
  | .workerEnds i => s.workers[i]?.any PaymentWorker.running
  | _ => false

theorem allows_of_admitted (s : PaymentWorld ScaledInt) (e : PaymentEvent ScaledInt)
    (h : admitted s e = true) : s.Allows e := by
  unfold admitted at h
  split at h
  · trivial
  · trivial
  · trivial
  · exact (Bool.not_eq_true' _).mp h
  · rw [Bool.and_eq_true, Bool.not_eq_true', Bool.not_eq_true', List.isEmpty_eq_false_iff] at h
    exact h
  · exact h
  · exact (Option.any_eq_true _ _).mp h
  · cases h

theorem runOf_reachable {events : List (PaymentEvent ScaledInt)}
    (h : Admits (fun s e => admitted s e = true) (fun s e => s.apply e)
      (start stockedCache fun _ => 1) events) :
    Reachable Allows (fun s e => s.apply e) (start stockedCache fun _ => 1) (runOf events) :=
  (Reachable.start.foldl h).mono allows_of_admitted

/-- What the queue guarantees once an allocation is dispatched. -/
theorem losesNoPayment_dispatched :
    (runOf dispatchEvents).workers.length = 1 ∧ (runOf dispatchEvents).LosesNoPayment :=
  ⟨by decide +kernel, losesNoPayment stockedCache_noPayments (runOf_reachable (by decide +kernel))⟩

/-- An allocation that found the pool full is behind one that it outranks. -/
theorem not_dispatchedInOrder_overtaking : ¬ (runOf overtakingEvents).DispatchedInOrder := by
  intro hinOrder
  obtain ⟨how, hhow, hmem⟩ := hinOrder [] ⟨.high, 2, allocation "p2" none⟩
    [.workerEnded .allocation, .handled ⟨.high, 1, allocation "p1" none⟩ .poolFull]
    (by decide +kernel) ⟨.high, 1, allocation "p1" none⟩ (by decide +kernel) rfl rfl
  rcases List.mem_cons.mp hmem with heq | hmem
  · cases heq
  · exact hhow (PassEntry.handled.inj (List.mem_singleton.mp hmem)).2

/-- A worker waits for its answer, and its amulet is consumed. -/
theorem not_reservedByRunning_watched : ¬ (runOf watchedEvents).ReservedByRunning := by
  intro hreserved
  obtain ⟨n, t, hentry⟩ := (hreserved (by decide +kernel) "00aa").mpr
    ⟨⟨⟨.high, 0, allocation "p0" (some ⟨10, 0⟩)⟩, 2 ^ 63 - 1, true⟩, by decide +kernel, rfl,
      ⟨["00aa"], 0⟩, by decide +kernel, List.mem_cons_self⟩
  have hnone : (runOf watchedEvents).cache.holdings.reserved.lookup "00aa" = none := by
    decide +kernel
  rw [hnone] at hentry
  cases hentry

/-- A pass can dispatch a payment before one that it is behind, and a running worker's amulets
need not be reserved. -/
theorem overtakes_and_unreserved :
    (¬ ∀ (cache : SplitCache ScaledInt) (limits : WorkerPool → Nat) (w : PaymentWorld ScaledInt),
      (∀ cid n t, cache.holdings.reserved.lookup cid ≠ some ⟨.v1Payment (paymentId n), t⟩) →
      Reachable Allows (fun s e => s.apply e) (start cache limits) w → w.DispatchedInOrder) ∧
    ¬ ∀ (cache : SplitCache ScaledInt) (limits : WorkerPool → Nat) (w : PaymentWorld ScaledInt),
      (∀ cid n t, cache.holdings.reserved.lookup cid ≠ some ⟨.v1Payment (paymentId n), t⟩) →
      Reachable Allows (fun s e => s.apply e) (start cache limits) w → w.ReservedByRunning := by
  constructor
  · intro claim
    exact not_dispatchedInOrder_overtaking
      (claim _ _ _ stockedCache_noPayments (runOf_reachable (by decide +kernel)))
  · intro claim
    exact not_reservedByRunning_watched
      (claim _ _ _ stockedCache_noPayments (runOf_reachable (by decide +kernel)))

end Sample

end PaymentWorld

end BookAgent.CloudAgent
