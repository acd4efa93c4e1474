import BookAgent.CloudAgent.PaymentQueue

/-!
# Runs of the payment queue

* Every payment that was sent is in one place: queued, with one worker, answered or dropped.
* A payment that outranks another of its pool is only behind it in a pass when it left the
  queue, could not be funded or reserved, or found its pool full before a worker of that
  pool ended.
-/

namespace BookAgent.CloudAgent

open BookAgent.Lib

variable {D : Type}

/-! ## Ranks -/

namespace QueuedPayment

theorem outranks_iff {a b : QueuedPayment D} :
    a.outranks b = true ↔ a.priority.toNat < b.priority.toNat ∨
      a.priority.toNat = b.priority.toNat ∧ a.sequence < b.sequence := by
  have heq : a.priority = b.priority ↔ a.priority.toNat = b.priority.toNat := by
    cases a.priority <;> cases b.priority <;> decide
  simp [outranks, heq]

theorem outranks_irrefl (a : QueuedPayment D) : a.outranks a = false := by
  rw [← Bool.not_eq_true, outranks_iff]
  omega

theorem outranks_asymm (a b : QueuedPayment D) (h : a.outranks b = true) :
    b.outranks a = false := by
  rw [← Bool.not_eq_true, outranks_iff]
  rw [outranks_iff] at h
  omega

theorem not_outranks_trans (a b c : QueuedPayment D) (hab : a.outranks b = false)
    (hbc : b.outranks c = false) : a.outranks c = false := by
  rw [← Bool.not_eq_true, outranks_iff] at *
  omega

end QueuedPayment

namespace PaymentWorld

variable (w : PaymentWorld D)

/-! ## What a pass does next -/

/-- What one step of a pass does to the payments. -/
inductive Moves [Decimal D] (w : PaymentWorld D) : PaymentWorld D → Prop
  | ends (hnone : w.hand = none) (hempty : w.heap = []) :
      Moves w { w with passing := false, heap := w.deferred, deferred := [] }
  | drops {p : QueuedPayment D} {rest : List (QueuedPayment D)} (hnone : w.hand = none)
      (hbest : takeBest QueuedPayment.outranks w.heap = some (p, rest))
      (hgone : p.sequence ∈ w.gaveUp ∧ p.request.isAllocate = true) :
      Moves w ({ w with heap := rest, dropped := w.dropped ++ [p] }.log p .dropped)
  | answers {p : QueuedPayment D} {rest : List (QueuedPayment D)} (hnone : w.hand = none)
      (hbest : takeBest QueuedPayment.outranks w.heap = some (p, rest))
      (hrange : paymentTarget p.request = none) :
      Moves w ({ w with heap := rest, answered := w.answered ++ [p] }.log p .answered)
  | takes {p : QueuedPayment D} {rest : List (QueuedPayment D)} (hnone : w.hand = none)
      (hbest : takeBest QueuedPayment.outranks w.heap = some (p, rest)) (target : D) :
      Moves w { w with heap := rest, hand := some (.screened p target) }
  | goesOn {h : InHand D} (h' : InHand D) (hhand : w.hand = some h) (hsame : h'.payment = h.payment)
      (hroom : h'.isFull = false) (n : Nat) (r : Pool Nat AmuletReservation) (c : SplitCache D) :
      Moves w { w with hand := some h', nextPayment := n, reservations := r, cache := c }
  | findsFull {h : InHand D} (hhand : w.hand = some h) (number : Nat)
      (hfree : w.free h.payment.request.pool = 0) :
      Moves w ({ w with hand := some (.poolFull h.payment number) }.log h.payment .poolFull)
  | defers {h : InHand D} {how : Handling} (hhand : w.hand = some h)
      (hhow : how = .unfunded ∨ how = .unreserved) (n : Nat) :
      Moves w ({ w.defer h.payment with nextPayment := n }.log h.payment how)
  | putsBack {h : InHand D} (hhand : w.hand = some h) (hfull : h.isFull = true)
      (r : Pool Nat AmuletReservation) (c : SplitCache D) :
      Moves w { w.defer h.payment with reservations := r, cache := c }
  | dispatches {h : InHand D} {number : Nat} (hhand : w.hand = some h)
      (hfree : w.free h.payment.request.pool ≠ 0) :
      Moves w ({ w with
        hand := none
        free := Function.update w.free h.payment.request.pool
          (w.free h.payment.request.pool - 1)
        workers := w.workers ++ [PaymentWorker.mk h.payment number true] }.log h.payment .dispatched)

section Step

variable [Decimal D] {w}

theorem pop_moves (hnone : w.hand = none) : w.Moves w.pop := by
  unfold pop
  split
  · next hempty => exact .ends hnone (takeBest_eq_none hempty)
  · next p rest hbest =>
    dsimp only
    split
    · next hgone =>
      rw [Bool.and_eq_true, decide_eq_true_eq] at hgone
      exact .drops hnone hbest hgone
    · split
      · next hrange => exact .answers hnone hbest hrange
      · next target htarget => exact .takes hnone hbest target

theorem choose_moves {h : InHand D} (hhand : w.hand = some h) (target : D)
    (selected : List (CachedHolding D)) : w.Moves (w.choose h.payment target selected) := by
  unfold choose
  dsimp only
  split
  · exact .defers hhand (.inl rfl) w.nextPayment
  · exact .goesOn (.selected h.payment _) hhand rfl rfl w.nextPayment w.reservations w.cache

omit [Decimal D] in
theorem letGo_eq (number : Nat) (ended : SplitCache D → List String → SplitCache D) :
    ∃ r c, w.letGo number ended = { w with reservations := r, cache := c } := by
  unfold letGo
  split
  · exact ⟨_, _, rfl⟩
  · exact ⟨_, _, rfl⟩

variable (w) in
theorem step_moves (now : Instant) : w.Moves (w.step now) := by
  unfold step
  split
  · next hnone => exact pop_moves hnone
  · next p target hhand =>
    dsimp only
    generalize (if p.request.isAllocation = true then w.selectAt true target now else []) = selected
    split
    · exact .goesOn (.retrying p target) hhand rfl rfl w.nextPayment w.reservations w.cache
    · exact choose_moves hhand target selected
  · next p target hhand => exact choose_moves hhand target _
  · next p cids hhand =>
    unfold reserve
    dsimp only
    split
    · exact .defers hhand (.inr rfl) _
    · exact .goesOn (.reserved p w.nextPayment) hhand rfl rfl _ _ _
  · next p number hhand =>
    unfold acquire
    split
    · next hfree => exact .findsFull hhand number hfree
    · next hfree => exact .dispatches hhand hfree
  · next p number hhand =>
    obtain ⟨r, c, heq⟩ := w.letGo_eq number fun c cids =>
      { c with holdings := c.holdings.releaseReservations cids }
    rw [heq]
    exact .putsBack hhand rfl r c

end Step

/-! ## Every payment is accounted for -/

/-- Where the payments are: queued, dispatched, answered or dropped. -/
def places : List (QueuedPayment D) :=
  w.channel ++ w.heap ++ w.deferred ++ w.hand.toList.map InHand.payment ++
    w.workers.map PaymentWorker.payment ++ w.answered ++ w.dropped

/-- Each payment sent is in exactly one place; it was answered with a range error, or dropped as
an allocation whose caller stopped waiting. -/
structure Accounted [Decimal D] : Prop where
  once : (w.submitted.map QueuedPayment.sequence).Nodup
  placed : w.places.Perm w.submitted
  answered : ∀ p ∈ w.answered, paymentTarget p.request = none
  dropped : ∀ p ∈ w.dropped, p.sequence ∈ w.gaveUp ∧ p.request.isAllocate = true

/-- The sequences taken so far differ, and between passes nothing is deferred or in hand. -/
structure Numbered : Prop where
  once : ((w.submitted ++ w.numbered).map QueuedPayment.sequence).Nodup
  below : ∀ p ∈ w.submitted ++ w.numbered, p.sequence < w.nextSequence
  idle : w.passing = false → w.hand = none ∧ w.deferred = []

section Accounted

variable [Decimal D] {w} {w' : PaymentWorld D}

theorem Moves.keeps (h : w.Moves w') :
    w'.submitted = w.submitted ∧ w'.numbered = w.numbered ∧ w'.nextSequence = w.nextSequence ∧
      w'.gaveUp = w.gaveUp := by
  cases h <;> exact ⟨rfl, rfl, rfl, rfl⟩

theorem Moves.placed (h : w.Moves w') : w'.places.Perm w.places := by
  classical
  rw [List.perm_iff_count]
  intro q
  cases h with
  | ends hnone hempty =>
    simp [places, hnone, hempty, List.count_append]
  | drops hnone hbest hgone =>
    have hheap := (takeBest_perm hbest).count_eq q
    simp only [places, log, List.count_append, List.count_cons] at hheap ⊢
    simp only [List.count_nil] at hheap ⊢
    omega
  | answers hnone hbest hrange =>
    have hheap := (takeBest_perm hbest).count_eq q
    simp only [places, log, List.count_append, List.count_cons] at hheap ⊢
    simp only [List.count_nil] at hheap ⊢
    omega
  | takes hnone hbest target =>
    have hheap := (takeBest_perm hbest).count_eq q
    simp [places, hnone, InHand.payment, List.count_append, List.count_cons] at hheap ⊢
    omega
  | goesOn next hhand hsame hroom n r c => simp [places, hhand, hsame]
  | findsFull hhand number hfree => simp [places, log, hhand, InHand.payment]
  | defers hhand hhow n =>
    simp [places, log, defer, hhand, List.count_append]
  | putsBack hhand hfull r c =>
    simp [places, defer, hhand, List.count_append]
  | dispatches hhand hfree =>
    simp [places, log, hhand, List.count_append, List.count_cons]
    omega

omit [Decimal D] in
theorem map_payment_workerEnds (i : Nat) :
    (w.workerEnds i).workers.map PaymentWorker.payment = w.workers.map PaymentWorker.payment := by
  unfold workerEnds
  split
  · next worker hworker =>
    have hpayment : (w.workers.map PaymentWorker.payment)[i]? = some worker.payment := by
      rw [List.getElem?_map, hworker, Option.map_some]
    obtain ⟨hlt, hget⟩ := List.getElem?_eq_some_iff.mp hpayment
    rw [List.map_set, ← hget, List.set_getElem_self]
  · rfl

omit [Decimal D] in
theorem count_places [DecidableEq (QueuedPayment D)] (q : QueuedPayment D) :
    w.places.count q = w.channel.count q + w.heap.count q + w.deferred.count q +
      (w.hand.toList.map InHand.payment).count q +
      (w.workers.map PaymentWorker.payment).count q + w.answered.count q + w.dropped.count q := by
  simp only [places, List.count_append]

theorem workerLetsGo_eq (i : Nat) (e : SubmitterEnd D) (now : Instant) :
    ∃ r c, w.workerLetsGo i e now = { w with reservations := r, cache := c } := by
  unfold workerLetsGo
  split
  · exact letGo_eq _ _
  · exact ⟨w.reservations, w.cache, rfl⟩

theorem places_apply {e : PaymentEvent D} (hplaced : w.places.Perm w.submitted) :
    (w.apply e).places.Perm (w.apply e).submitted := by
  classical
  cases e with
  | number request => exact hplaced
  | send i =>
    unfold apply send
    dsimp only
    split
    · rw [List.perm_iff_count] at hplaced ⊢
      intro q
      have hq := hplaced q
      simp only [count_places, List.count_append] at hq ⊢
      omega
    · exact hplaced
  | giveUp sequence => exact hplaced
  | receive =>
    unfold apply receive
    dsimp only
    split
    · exact hplaced
    · next p rest hchannel =>
      refine List.Perm.trans ?_ hplaced
      rw [List.perm_iff_count]
      intro q
      simp only [count_places, hchannel, List.count_append, List.count_cons, List.count_nil]
      omega
  | begin connected =>
    have hmoved : (w.begin connected).places.Perm w.places := by
      rw [List.perm_iff_count]
      intro q
      cases connected <;> simp [begin, count_places] <;> omega
    have hsubmitted : (w.begin connected).submitted = w.submitted := by cases connected <;> rfl
    exact hmoved.trans (hsubmitted ▸ hplaced)
  | step now =>
    have hmoves := w.step_moves now
    exact hmoves.placed.trans (hmoves.keeps.1 ▸ hplaced)
  | submitEnds i result now =>
    obtain ⟨r, c, heq⟩ := w.workerLetsGo_eq i (submitEnd result) now
    exact (show w.apply (.submitEnds i result now) = _ from heq) ▸ hplaced
  | guardReleases i now =>
    obtain ⟨r, c, heq⟩ := w.workerLetsGo_eq i .early now
    exact (show w.apply (.guardReleases i now) = _ from heq) ▸ hplaced
  | workerEnds i =>
    have hmap := map_payment_workerEnds (w := w) i
    have hrest : (w.workerEnds i).places = w.places := by
      unfold places
      rw [hmap]
      unfold workerEnds
      split <;> rfl
    have hsubmitted : (w.workerEnds i).submitted = w.submitted := by
      unfold workerEnds
      split <;> rfl
    exact (show (w.workerEnds i).places.Perm (w.workerEnds i).submitted from
      hrest ▸ hsubmitted ▸ hplaced)
  | cache e => exact hplaced

omit [Decimal D] in
/-- What an event that moves no sequence leaves. -/
theorem Numbered.of_eq (h : w.Numbered) (hsubmitted : w'.submitted = w.submitted)
    (hnumbered : w'.numbered = w.numbered) (hnext : w'.nextSequence = w.nextSequence)
    (hidle : w'.passing = false → w'.hand = none ∧ w'.deferred = []) : w'.Numbered := by
  refine ⟨?_, ?_, hidle⟩
  · rw [hsubmitted, hnumbered]
    exact h.once
  · rw [hsubmitted, hnumbered, hnext]
    exact h.below

theorem Moves.idle (h : w.Moves w') (hpassing : w.passing = true) :
    w'.passing = false → w'.hand = none ∧ w'.deferred = [] := by
  cases h with
  | ends hnone hempty => exact fun _ => ⟨hnone, rfl⟩
  | _ => exact fun hidle => absurd hpassing (Bool.eq_false_iff.mp hidle)

omit [Decimal D] in
theorem Numbered.number (h : w.Numbered) (request : PaymentRequest D) :
    (w.number request).Numbered := by
  have heq : (w.number request).submitted ++ (w.number request).numbered =
      (w.submitted ++ w.numbered) ++ [⟨request.priority, w.nextSequence, request⟩] := by
    simp [PaymentWorld.number]
  refine ⟨?_, ?_, h.idle⟩
  · rw [heq, List.map_append, List.map_singleton, List.nodup_append]
    refine ⟨h.once, List.nodup_singleton _, ?_⟩
    intro a ha b hb hab
    obtain ⟨p, hp, rfl⟩ := List.mem_map.mp ha
    rw [List.mem_singleton.mp hb] at hab
    exact absurd (h.below p hp) (hab ▸ Nat.lt_irrefl _)
  · rw [heq]
    intro p hp
    rcases List.mem_append.mp hp with hold | hnew
    · exact Nat.lt_succ_of_lt (h.below p hold)
    · rw [List.mem_singleton.mp hnew]
      exact Nat.lt_succ_self _

omit [Decimal D] in
theorem Numbered.send (h : w.Numbered) (i : Nat) : (w.send i).Numbered := by
  unfold PaymentWorld.send
  split
  · next p hp =>
    obtain ⟨hlt, hget⟩ := List.getElem?_eq_some_iff.mp hp
    have hperm : ((w.submitted ++ [p]) ++ w.numbered.eraseIdx i).Perm
        (w.submitted ++ w.numbered) := by
      rw [List.append_assoc, List.singleton_append, ← hget]
      exact (List.getElem_cons_eraseIdx_perm hlt).append_left _
    exact ⟨(hperm.map _).nodup_iff.mpr h.once, fun q hq => h.below q (hperm.mem_iff.mp hq), h.idle⟩
  · exact h

theorem Numbered.apply (h : w.Numbered) {e : PaymentEvent D} (hallows : w.Allows e) :
    (w.apply e).Numbered := by
  cases e with
  | number request => exact h.number request
  | send i => exact h.send i
  | giveUp sequence => exact ⟨h.once, h.below, h.idle⟩
  | receive =>
    unfold PaymentWorld.apply receive
    dsimp only
    split
    · exact h
    · exact ⟨h.once, h.below, h.idle⟩
  | begin connected =>
    cases connected with
    | false => exact ⟨h.once, h.below, h.idle⟩
    | true => exact ⟨h.once, h.below, fun hidle => by cases hidle⟩
  | step now =>
    obtain ⟨hsubmitted, hnumbered, hnext, -⟩ := (w.step_moves now).keeps
    exact h.of_eq hsubmitted hnumbered hnext ((w.step_moves now).idle hallows)
  | submitEnds i result now =>
    obtain ⟨r, c, heq⟩ := w.workerLetsGo_eq i (submitEnd result) now
    exact (show w.apply (.submitEnds i result now) = _ from heq) ▸ ⟨h.once, h.below, h.idle⟩
  | guardReleases i now =>
    obtain ⟨r, c, heq⟩ := w.workerLetsGo_eq i .early now
    exact (show w.apply (.guardReleases i now) = _ from heq) ▸ ⟨h.once, h.below, h.idle⟩
  | workerEnds i =>
    unfold PaymentWorld.apply workerEnds
    dsimp only
    split
    · exact ⟨h.once, h.below, h.idle⟩
    · exact h
  | cache e => exact ⟨h.once, h.below, h.idle⟩

theorem Moves.leaves (h : w.Moves w') :
    (∀ p ∈ w'.answered, p ∈ w.answered ∨ paymentTarget p.request = none) ∧
      ∀ p ∈ w'.dropped, p ∈ w.dropped ∨ p.sequence ∈ w.gaveUp ∧ p.request.isAllocate = true := by
  cases h with
  | @drops p rest hnone hbest hgone =>
    refine ⟨fun q hq => .inl hq, fun q hq => ?_⟩
    rcases List.mem_append.mp hq with hold | hnew
    · exact .inl hold
    · exact .inr (List.mem_singleton.mp hnew ▸ hgone)
  | @answers p rest hnone hbest hrange =>
    refine ⟨fun q hq => ?_, fun q hq => .inl hq⟩
    rcases List.mem_append.mp hq with hold | hnew
    · exact .inl hold
    · exact .inr (List.mem_singleton.mp hnew ▸ hrange)
  | _ => exact ⟨fun q hq => .inl hq, fun q hq => .inl hq⟩

/-- A payment is answered or dropped in a pass only. -/
theorem leaves_apply (w : PaymentWorld D) (e : PaymentEvent D) :
    (∃ now, e = .step now) ∨ (w.apply e).answered = w.answered ∧
      (w.apply e).dropped = w.dropped ∧ w.gaveUp ⊆ (w.apply e).gaveUp := by
  cases e with
  | step now => exact .inl ⟨now, rfl⟩
  | send i =>
    right
    unfold apply send
    dsimp only
    split <;> exact ⟨rfl, rfl, List.Subset.refl _⟩
  | giveUp sequence => exact .inr ⟨rfl, rfl, List.subset_cons_self sequence w.gaveUp⟩
  | receive =>
    right
    unfold apply receive
    dsimp only
    split <;> exact ⟨rfl, rfl, List.Subset.refl _⟩
  | begin connected => cases connected <;> exact .inr ⟨rfl, rfl, List.Subset.refl _⟩
  | submitEnds i result now =>
    obtain ⟨r, c, heq⟩ := w.workerLetsGo_eq i (submitEnd result) now
    exact (show w.apply (.submitEnds i result now) = _ from heq) ▸
      .inr ⟨rfl, rfl, List.Subset.refl _⟩
  | guardReleases i now =>
    obtain ⟨r, c, heq⟩ := w.workerLetsGo_eq i .early now
    exact (show w.apply (.guardReleases i now) = _ from heq) ▸
      .inr ⟨rfl, rfl, List.Subset.refl _⟩
  | workerEnds i =>
    right
    unfold apply workerEnds
    dsimp only
    split <;> exact ⟨rfl, rfl, List.Subset.refl _⟩
  | _ => exact .inr ⟨rfl, rfl, List.Subset.refl _⟩

theorem Accounted.apply (h : w.Accounted) {e : PaymentEvent D} (hnumbered : (w.apply e).Numbered) :
    (w.apply e).Accounted := by
  have honce : ((w.apply e).submitted.map QueuedPayment.sequence).Nodup := by
    have hall := hnumbered.once
    rw [List.map_append, List.nodup_append] at hall
    exact hall.1
  rcases w.leaves_apply e with ⟨now, rfl⟩ | ⟨hanswered, hdropped, hgave⟩
  · have hmoves := w.step_moves now
    obtain ⟨hanswered, hdropped⟩ := hmoves.leaves
    refine ⟨honce, places_apply h.placed, fun p hp => ?_, fun p hp => ?_⟩
    · exact (hanswered p hp).elim (h.answered p) id
    · have hgone := (hdropped p hp).elim (h.dropped p) id
      exact ⟨show p.sequence ∈ (w.step now).gaveUp from hmoves.keeps.2.2.2 ▸ hgone.1, hgone.2⟩
  · refine ⟨honce, places_apply h.placed, fun p hp => ?_, fun p hp => ?_⟩
    · exact h.answered p (hanswered ▸ hp)
    · exact ⟨hgave (h.dropped p (hdropped ▸ hp)).1, (h.dropped p (hdropped ▸ hp)).2⟩

end Accounted

/-! ## The order within a pass -/

/-- Why a payment may be behind one that it outranks: it was dispatched before, left the queue,
could not be funded or reserved, or found its pool full before one of the pool's workers ended. -/
def PassedOver (before : List (PassEntry D)) (q : QueuedPayment D) : Prop :=
  (∃ how, how ≠ .poolFull ∧ .handled q how ∈ before) ∨
    ∃ newer older, before = newer ++ .handled q .poolFull :: older ∧
      .workerEnded q.request.pool ∈ newer

/-- Whatever outranks a dispatched payment of its pool was passed over before. -/
def InOrder (passHeap : List (QueuedPayment D)) (log : List (PassEntry D)) : Prop :=
  ∀ newer p before, log = newer ++ .handled p .dispatched :: before →
    ∀ q ∈ passHeap, q.request.pool = p.request.pool → q.outranks p = true → PassedOver before q

/-- A pool that was full still is, or one of its workers has ended since. -/
def FullUntilEnded (free : WorkerPool → Nat) (log : List (PassEntry D)) : Prop :=
  ∀ newer q older, log = newer ++ .handled q .poolFull :: older →
    .workerEnded q.request.pool ∈ newer ∨ free q.request.pool = 0

section Log

variable {passHeap : List (QueuedPayment D)} {log : List (PassEntry D)} {entry : PassEntry D}
  {free free' : WorkerPool → Nat}

theorem InOrder.cons (h : InOrder passHeap log)
    (hnew : ∀ p, entry = .handled p .dispatched → ∀ q ∈ passHeap,
      q.request.pool = p.request.pool → q.outranks p = true → PassedOver log q) :
    InOrder passHeap (entry :: log) := by
  intro newer p before heq
  cases newer with
  | nil =>
    obtain ⟨hentry, rfl⟩ := List.cons.inj heq
    exact hnew p hentry
  | cons x newer => exact h newer p before (List.cons.inj heq).2

theorem FullUntilEnded.cons (h : FullUntilEnded free log)
    (hkept : ∀ pool, free pool = 0 → entry = .workerEnded pool ∨ free' pool = 0)
    (hnew : ∀ q, entry = .handled q .poolFull → free' q.request.pool = 0) :
    FullUntilEnded free' (entry :: log) := by
  intro newer q older heq
  cases newer with
  | nil => exact .inr (hnew q (List.cons.inj heq).1)
  | cons x newer =>
    obtain ⟨rfl, hlog⟩ := List.cons.inj heq
    rcases h newer q older hlog with hended | hfree
    · exact .inl (List.mem_cons_of_mem _ hended)
    · rcases hkept _ hfree with rfl | hzero
      · exact .inl List.mem_cons_self
      · exact .inr hzero

end Log

/-- Nothing outranks the payment in hand, and every payment of a pass is queued, in hand or in its
log. -/
structure Ranked : Prop where
  best : ∀ h, w.hand = some h → ∀ q ∈ w.heap, q.outranks h.payment = false
  passed : w.passing = true → ∀ q ∈ w.passHeap, q ∈ w.heap ∨
    (∃ h, w.hand = some h ∧ h.payment = q) ∨ ∃ how, .handled q how ∈ w.passLog
  logged : ∀ h, w.hand = some h → h.isFull = true → .handled h.payment .poolFull ∈ w.passLog
  full : FullUntilEnded w.free w.passLog
  inOrder : InOrder w.passHeap w.passLog

section Ranked

variable {w} {w' : PaymentWorld D}

/-- A payment that is logged is still found when it leaves the heap or the hand. -/
theorem Ranked.passed_log (h : w.Ranked) (hpassing : w.passing = true) {p : QueuedPayment D}
    {how : Handling} {heap : List (QueuedPayment D)} {hand : Option (InHand D)}
    (hheap : ∀ q ∈ w.heap, q = p ∨ q ∈ heap) (hhand : ∀ h, w.hand = some h → h.payment = p) :
    ∀ q ∈ w.passHeap, q ∈ heap ∨ (∃ h, hand = some h ∧ h.payment = q) ∨
      ∃ how', .handled q how' ∈ PassEntry.handled p how :: w.passLog := by
  intro q hq
  rcases h.passed hpassing q hq with hin | ⟨h', hh', rfl⟩ | ⟨how', hlogged⟩
  · rcases hheap q hin with rfl | hin
    · exact .inr (.inr ⟨how, List.mem_cons_self⟩)
    · exact .inl hin
  · exact .inr (.inr ⟨how, hhand h' hh' ▸ List.mem_cons_self⟩)
  · exact .inr (.inr ⟨how', List.mem_cons_of_mem _ hlogged⟩)

/-- When a payment is dispatched, those of its pool that outrank it were passed over. -/
theorem Ranked.passedOver (h : w.Ranked) (hpassing : w.passing = true) {inHand : InHand D}
    (hhand : w.hand = some inHand) (hfree : w.free inHand.payment.request.pool ≠ 0)
    {q : QueuedPayment D} (hq : q ∈ w.passHeap)
    (hpool : q.request.pool = inHand.payment.request.pool)
    (houtranks : q.outranks inHand.payment = true) : PassedOver w.passLog q := by
  rcases h.passed hpassing q hq with hin | ⟨h', hh', rfl⟩ | ⟨how, hlogged⟩
  · rw [h.best inHand hhand q hin] at houtranks
    cases houtranks
  · obtain rfl := Option.some.inj (hhand.symm.trans hh')
    rw [QueuedPayment.outranks_irrefl] at houtranks
    cases houtranks
  · by_cases hfull : how = .poolFull
    · subst hfull
      obtain ⟨newer, older, heq⟩ := List.append_of_mem hlogged
      rcases h.full newer q older heq with hended | hstill
      · exact .inr ⟨newer, older, heq, hended⟩
      · exact absurd (hpool ▸ hstill) hfree
    · exact .inl ⟨how, hfull, hlogged⟩

/-- The heap and the log after a payment left the heap with an entry of its own. -/
theorem Ranked.handled (h : w.Ranked) (hpassing : w.passing = true) (hnone : w.hand = none)
    {p : QueuedPayment D} {rest : List (QueuedPayment D)} {how : Handling}
    (hbest : takeBest QueuedPayment.outranks w.heap = some (p, rest))
    (hhow : how = .dropped ∨ how = .answered) (dropped answered : List (QueuedPayment D)) :
    ({ w with heap := rest, dropped, answered }.log p how).Ranked := by
  have hempty : ({ w with heap := rest, dropped, answered }.log p how).hand = none := hnone
  refine ⟨fun h' hh' => ?_, fun _ => ?_, fun h' hh' => ?_, ?_, ?_⟩
  · rw [hempty] at hh'
    cases hh'
  · refine h.passed_log hpassing (fun q hq => ?_) fun h' hh' => by rw [hnone] at hh'; cases hh'
    exact List.mem_cons.mp ((takeBest_perm hbest).mem_iff.mp hq)
  · rw [hempty] at hh'
    cases hh'
  · refine h.full.cons (fun _ hzero => .inr hzero) fun q heq => ?_
    rcases hhow with rfl | rfl <;> cases heq
  · refine h.inOrder.cons fun q heq => ?_
    rcases hhow with rfl | rfl <;> cases heq

theorem Moves.ranked [Decimal D] (hmoves : w.Moves w') (h : w.Ranked)
    (hpassing : w.passing = true) : w'.Ranked := by
  cases hmoves with
  | ends hnone hempty =>
    have hstill : ∀ h', w.hand ≠ some h' := fun h' hh' => by rw [hnone] at hh'; cases hh'
    exact ⟨fun h' hh' => absurd hh' (hstill h'), fun hidle => (by cases hidle),
      fun h' hh' => absurd hh' (hstill h'), h.full, h.inOrder⟩
  | drops hnone hbest hgone => exact h.handled hpassing hnone hbest (.inl rfl) _ _
  | answers hnone hbest hrange => exact h.handled hpassing hnone hbest (.inr rfl) _ _
  | @takes p rest hnone hbest target =>
    refine ⟨fun h' hh' => ?_, fun _ q hq => ?_, fun h' hh' => ?_, h.full, h.inOrder⟩
    · obtain rfl := Option.some.inj hh'
      exact takeBest_best QueuedPayment.outranks_asymm QueuedPayment.not_outranks_trans hbest
    · rcases h.passed hpassing q hq with hin | ⟨h', hh', -⟩ | hlogged
      · rcases List.mem_cons.mp ((takeBest_perm hbest).mem_iff.mp hin) with rfl | hin
        · exact .inr (.inl ⟨_, rfl, rfl⟩)
        · exact .inl hin
      · rw [hnone] at hh'
        cases hh'
      · exact .inr (.inr hlogged)
    · obtain rfl := Option.some.inj hh'
      exact fun hfull => by cases hfull
  | @goesOn inHand next hhand hsame hroom n r c =>
    refine ⟨fun h' hh' => ?_, fun _ q hq => ?_, fun h' hh' => ?_, h.full, h.inOrder⟩
    · obtain rfl := Option.some.inj hh'
      exact fun q hq => hsame ▸ h.best inHand hhand q hq
    · rcases h.passed hpassing q hq with hin | ⟨h', hh', rfl⟩ | hlogged
      · exact .inl hin
      · obtain rfl := Option.some.inj (hhand.symm.trans hh')
        exact .inr (.inl ⟨next, rfl, hsame⟩)
      · exact .inr (.inr hlogged)
    · obtain rfl := Option.some.inj hh'
      exact fun hfull => by rw [hroom] at hfull; cases hfull
  | @findsFull inHand hhand number hfree =>
    refine ⟨fun h' hh' => ?_, fun _ => ?_, fun h' hh' _ => ?_, ?_, ?_⟩
    · obtain rfl := Option.some.inj hh'
      exact h.best inHand hhand
    · exact h.passed_log hpassing (fun q hq => .inr hq)
        fun h' hh' => congrArg InHand.payment (Option.some.inj (hh'.symm.trans hhand))
    · obtain rfl := Option.some.inj hh'
      exact List.mem_cons_self
    · refine h.full.cons (fun _ hzero => .inr hzero) fun q heq => ?_
      cases heq
      exact hfree
    · exact h.inOrder.cons fun q heq => by cases heq
  | @defers inHand how hhand hhow n =>
    refine ⟨fun h' hh' => (by cases hh'), fun _ => ?_, fun h' hh' => (by cases hh'), ?_, ?_⟩
    · exact h.passed_log hpassing (fun q hq => .inr hq)
        fun h' hh' => congrArg InHand.payment (Option.some.inj (hh'.symm.trans hhand))
    · refine h.full.cons (fun _ hzero => .inr hzero) fun q heq => ?_
      rcases hhow with rfl | rfl <;> cases heq
    · refine h.inOrder.cons fun q heq => ?_
      rcases hhow with rfl | rfl <;> cases heq
  | @putsBack inHand hhand hfull r c =>
    refine ⟨fun h' hh' => (by cases hh'), fun _ q hq => ?_, fun h' hh' => (by cases hh'), h.full,
      h.inOrder⟩
    rcases h.passed hpassing q hq with hin | ⟨h', hh', rfl⟩ | hlogged
    · exact .inl hin
    · obtain rfl := Option.some.inj (hhand.symm.trans hh')
      exact .inr (.inr ⟨_, h.logged inHand hhand hfull⟩)
    · exact .inr (.inr hlogged)
  | @dispatches inHand number hhand hfree =>
    refine ⟨fun h' hh' => (by cases hh'), fun _ => ?_, fun h' hh' => (by cases hh'), ?_, ?_⟩
    · exact h.passed_log hpassing (fun q hq => .inr hq)
        fun h' hh' => congrArg InHand.payment (Option.some.inj (hh'.symm.trans hhand))
    · refine h.full.cons (fun pool hzero => .inr ?_) fun q heq => by cases heq
      by_cases hpool : pool = inHand.payment.request.pool
      · exact absurd (hpool ▸ hzero) hfree
      · exact (Function.update_of_ne hpool _ _).trans hzero
    · refine h.inOrder.cons fun p heq q hq hpool houtranks => ?_
      cases heq
      exact h.passedOver hpassing hhand hfree hq hpool houtranks

/-- A change to what ranks do not depend on. -/
theorem Ranked.of_eq (h : w.Ranked) (hheap : w'.heap = w.heap) (hhand : w'.hand = w.hand)
    (hpassing : w'.passing = w.passing) (hpassHeap : w'.passHeap = w.passHeap)
    (hlog : w'.passLog = w.passLog) (hfree : w'.free = w.free) : w'.Ranked := by
  refine ⟨?_, ?_, ?_, ?_, ?_⟩
  · rw [hheap, hhand]
    exact h.best
  · rw [hpassing, hpassHeap, hheap, hhand, hlog]
    exact h.passed
  · rw [hhand, hlog]
    exact h.logged
  · rw [hfree, hlog]
    exact h.full
  · rw [hpassHeap, hlog]
    exact h.inOrder

/-- Between passes the heap may change. -/
theorem Ranked.idle (h : w.Ranked) (hidle : w.passing = false) (hnone : w.hand = none)
    (channel heap : List (QueuedPayment D)) : { w with channel, heap }.Ranked := by
  refine ⟨fun inHand hhand => ?_, fun hpassing => ?_, h.logged, h.full, h.inOrder⟩
  · rw [hnone] at hhand
    cases hhand
  · rw [hidle] at hpassing
    cases hpassing

/-- A pass begins with all of the heap ahead of it. -/
theorem Ranked.begin (h : w.Ranked) (hidle : w.passing = false) (hnone : w.hand = none)
    (connected : Bool) : (w.begin connected).Ranked := by
  cases connected with
  | false => exact h.idle hidle hnone [] (w.heap ++ w.channel)
  | true =>
    have hempty : (w.begin true).hand = none := hnone
    refine ⟨fun inHand hhand => ?_, fun _ q hq => .inl hq, fun inHand hhand => ?_, ?_, ?_⟩
    · rw [hempty] at hhand
      cases hhand
    · rw [hempty] at hhand
      cases hhand
    · intro newer q older heq
      exact absurd heq (List.append_ne_nil_of_right_ne_nil newer (List.cons_ne_nil _ _)).symm
    · intro newer p before heq
      exact absurd heq (List.append_ne_nil_of_right_ne_nil newer (List.cons_ne_nil _ _)).symm

/-- A worker's end leaves its pool a permit. -/
theorem Ranked.workerEnds (h : w.Ranked) (i : Nat) : (w.workerEnds i).Ranked := by
  unfold PaymentWorld.workerEnds
  split
  · next worker hworker =>
    refine ⟨h.best, fun hpassing q hq => ?_, fun inHand hhand hfull => ?_, ?_, ?_⟩
    · rcases h.passed hpassing q hq with hin | hhand | ⟨how, hlogged⟩
      · exact .inl hin
      · exact .inr (.inl hhand)
      · exact .inr (.inr ⟨how, List.mem_cons_of_mem _ hlogged⟩)
    · exact List.mem_cons_of_mem _ (h.logged inHand hhand hfull)
    · refine h.full.cons (fun pool hzero => ?_) fun q heq => by cases heq
      by_cases hpool : pool = worker.payment.request.pool
      · exact .inl (hpool ▸ rfl)
      · exact .inr ((Function.update_of_ne hpool _ _).trans hzero)
    · exact h.inOrder.cons fun p heq => by cases heq
  · exact h

theorem Ranked.apply [Decimal D] (h : w.Ranked) (hnumbered : w.Numbered) {e : PaymentEvent D}
    (hallows : w.Allows e) : (w.apply e).Ranked := by
  cases e with
  | number request => exact h.of_eq rfl rfl rfl rfl rfl rfl
  | send i =>
    unfold PaymentWorld.apply PaymentWorld.send
    dsimp only
    split
    · exact h.of_eq rfl rfl rfl rfl rfl rfl
    · exact h
  | giveUp sequence => exact h.of_eq rfl rfl rfl rfl rfl rfl
  | receive =>
    unfold PaymentWorld.apply PaymentWorld.receive
    dsimp only
    split
    · exact h
    · next p rest hchannel => exact h.idle hallows (hnumbered.idle hallows).1 rest (w.heap ++ [p])
  | begin connected => exact h.begin hallows.1 (hnumbered.idle hallows.1).1 connected
  | step now => exact (w.step_moves now).ranked h hallows
  | submitEnds i result now =>
    obtain ⟨r, c, heq⟩ := w.workerLetsGo_eq i (submitEnd result) now
    exact (show w.apply (.submitEnds i result now) = _ from heq) ▸ h.of_eq rfl rfl rfl rfl rfl rfl
  | guardReleases i now =>
    obtain ⟨r, c, heq⟩ := w.workerLetsGo_eq i .early now
    exact (show w.apply (.guardReleases i now) = _ from heq) ▸ h.of_eq rfl rfl rfl rfl rfl rfl
  | workerEnds i => exact h.workerEnds i
  | cache e => exact h.of_eq rfl rfl rfl rfl rfl rfl

end Ranked

end PaymentWorld

end BookAgent.CloudAgent
