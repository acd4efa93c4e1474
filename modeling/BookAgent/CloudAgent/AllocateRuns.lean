import BookAgent.CloudAgent.AllocateCalls
import BookAgent.CloudAgent.PaymentReservations

/-!
# Runs with allocate calls

A proposal has one task at most, and a task waits for one payment at most. As long as a task only
stops waiting when no worker has its payment, every worker that runs an allocation has the task of
its proposal waiting for it.
-/

namespace BookAgent.CloudAgent

open BookAgent.Lib BookAgent.AgentLogic

namespace PaymentWorld

variable {E : Type} {w : PaymentWorld E}

/-! ## Every payment has a sequence of its own -/

theorem sequences_nodup [Decimal E] (hnumbered : w.Numbered) (hplaced : w.places.Perm w.submitted) :
    ((w.queued ++ w.hand.toList.map InHand.payment ++ w.workers.map PaymentWorker.payment).map
      QueuedPayment.sequence).Nodup := by
  classical
  have everything : (w.queued ++ w.hand.toList.map InHand.payment ++
      w.workers.map PaymentWorker.payment ++ (w.answered ++ w.dropped)).Perm
        (w.submitted ++ w.numbered) := by
    rw [List.perm_iff_count] at hplaced ⊢
    intro p
    have counted := hplaced p
    rw [count_places] at counted
    simp only [queued, List.count_append]
    omega
  have distinct := (everything.map QueuedPayment.sequence).nodup_iff.mpr hnumbered.once
  rw [List.map_append] at distinct
  exact distinct.of_append_left

variable {p q : QueuedPayment E}

theorem Runs.mem (h : w.Runs p) : p ∈ w.workers.map PaymentWorker.payment := by
  obtain ⟨worker, hmem, rfl, -⟩ := h
  exact List.mem_map_of_mem hmem

theorem HasInHand.mem (h : w.HasInHand p) : p ∈ w.hand.toList.map InHand.payment := by
  obtain ⟨held, hheld, rfl⟩ := h
  rw [hheld]
  exact List.mem_singleton_self _

section Distinct

variable [Decimal E] (hnumbered : w.Numbered) (hplaced : w.places.Perm w.submitted)

include hnumbered hplaced

theorem queued_ne_runs (hp : p ∈ w.queued) (hq : w.Runs q) : p.sequence ≠ q.sequence := by
  have distinct := sequences_nodup hnumbered hplaced
  rw [List.map_append, List.nodup_append] at distinct
  exact distinct.2.2 _ (List.mem_map_of_mem (List.mem_append_left _ hp)) _ (List.mem_map_of_mem hq.mem)

theorem inHand_ne_runs (hp : w.HasInHand p) (hq : w.Runs q) : p.sequence ≠ q.sequence := by
  have distinct := sequences_nodup hnumbered hplaced
  rw [List.map_append, List.nodup_append] at distinct
  exact distinct.2.2 _ (List.mem_map_of_mem (List.mem_append_right _ hp.mem)) _ (List.mem_map_of_mem hq.mem)

/-- Two workers with one sequence are one. -/
theorem index_of_sequence {i j : Nat} {u v : PaymentWorker E} (hu : w.workers[i]? = some u)
    (hv : w.workers[j]? = some v) (hsame : u.payment.sequence = v.payment.sequence) : i = j := by
  have distinct := (sequences_nodup hnumbered hplaced)
  rw [List.map_append, List.nodup_append] at distinct
  have sequence (i : Nat) (u : PaymentWorker E) (hu : w.workers[i]? = some u) :
      ((w.workers.map PaymentWorker.payment).map QueuedPayment.sequence)[i]?
        = some u.payment.sequence := by
    rw [List.getElem?_map, List.getElem?_map, hu]
    rfl
  obtain ⟨hi, hiu⟩ := List.getElem?_eq_some_iff.mp (sequence i u hu)
  obtain ⟨hj, hjv⟩ := List.getElem?_eq_some_iff.mp (sequence j v hv)
  exact (distinct.2.1.getElem_inj_iff).mp (hiu.trans (hsame.trans hjv.symm))

end Distinct

end PaymentWorld

namespace AllocateWorld

variable {D E : Type} {x : AllocateWorld D E}

/-! ## Who waits -/

/-- A task of the proposal waits for the payment. -/
def Awaits (x : AllocateWorld D E) (pid : String) (sequence : Nat) : Prop :=
  ∃ tid t, x.waits.lookup tid = some sequence ∧ x.executor.tasks.lookup tid = some t ∧
    t.proposalId = pid

/-- What holds in every state of a run whose steps keep to `CallsOnce`. -/
structure Calls [ValuedAmount D] [Decimal E] (x : AllocateWorld D E) : Prop where
  orderly : x.executor.Orderly
  numbered : x.queue.Numbered
  placed : x.queue.places.Perm x.queue.submitted
  waiting : ∀ tid sequence, x.waits.lookup tid = some sequence →
    ∃ t, x.executor.tasks.lookup tid = some t ∧ t.phase = .allocating
  queued : ∀ p ∈ x.queue.queued, ∀ pid, p.request.allocateFor = some pid →
    p.sequence ∈ x.queue.gaveUp ∨ x.Awaits pid p.sequence
  held : ∀ p, x.queue.HasInHand p ∨ x.queue.Runs p → ∀ pid, p.request.allocateFor = some pid →
    x.Awaits pid p.sequence
  /-- Once the allocation has committed, no other payment for it is taken in hand. -/
  final : ∀ pid, x.committed pid = true →
    (∀ p ∈ x.queue.queued, p.request.allocateFor = some pid → p.sequence ∈ x.queue.gaveUp) ∧
      ∀ p, x.queue.HasInHand p → p.request.allocateFor ≠ some pid
  resubmitted : x.resubmitted = []

theorem isAllocate_of_allocateFor {request : PaymentRequest E} {pid : String}
    (h : request.allocateFor = some pid) : request.isAllocate = true := by
  cases request with
  | payFee => cases h
  | allocate => rfl

namespace Calls

variable [ValuedAmount D] [Decimal E]

/-- Only one payment of a proposal is waited for. -/
theorem awaits_unique (h : x.Calls) {pid : String} {s s' : Nat} (hs : x.Awaits pid s)
    (hs' : x.Awaits pid s') : s = s' := by
  obtain ⟨tid, t, hwaits, ht, hpid⟩ := hs
  obtain ⟨tid', t', hwaits', ht', hpid'⟩ := hs'
  have task : (x.executor.view pid).task tid = some t := SettlementExecutor.taskOf_eq_some.mpr ⟨ht, hpid⟩
  have task' : (x.executor.view pid).task tid' = some t' :=
    SettlementExecutor.taskOf_eq_some.mpr ⟨ht', hpid'⟩
  have same : tid = tid' := (h.orderly.worked pid).single tid tid' (by rw [task]; rfl) (by rw [task']; rfl)
  rw [same, hwaits'] at hwaits
  exact (Option.some.inj hwaits).symm

/-- Two workers do not run an allocation of one proposal. -/
theorem single (h : x.Calls) {i j : Nat} {u v : PaymentWorker E} {pid : String}
    (hu : x.queue.workers[i]? = some u) (hv : x.queue.workers[j]? = some v) (hruns : u.running = true)
    (hruns' : v.running = true) (hpid : u.payment.request.allocateFor = some pid)
    (hpid' : v.payment.request.allocateFor = some pid) : i = j := by
  have awaited := h.held u.payment (.inr ⟨u, List.mem_of_getElem? hu, rfl, hruns⟩) pid hpid
  have awaited' := h.held v.payment (.inr ⟨v, List.mem_of_getElem? hv, rfl, hruns'⟩) pid hpid'
  exact PaymentWorld.index_of_sequence h.numbered h.placed hu hv (h.awaits_unique awaited awaited')

/-- The executor moves on; the tasks that wait still do. -/
theorem executor (h : x.Calls) {y : SettlementExecutor D} (horderly : y.Orderly)
    (htasks : ∀ tid sequence t, x.waits.lookup tid = some sequence →
      x.executor.tasks.lookup tid = some t → y.tasks.lookup tid = some t)
    (hcommitted : ∀ pid, (y.history pid).committed = (x.executor.history pid).committed) :
    ({ x with executor := y } : AllocateWorld D E).Calls := by
  have awaits (pid : String) (s : Nat) (hs : x.Awaits pid s) :
      ({ x with executor := y } : AllocateWorld D E).Awaits pid s := by
    obtain ⟨tid, t, hwaits, ht, hpid⟩ := hs
    exact ⟨tid, t, hwaits, htasks tid s t hwaits ht, hpid⟩
  refine ⟨horderly, h.numbered, h.placed, fun tid s hs => ?_, fun p hp pid hpid => ?_,
    fun p hp pid hpid => awaits pid _ (h.held p hp pid hpid), fun pid hpid => ?_, h.resubmitted⟩
  · obtain ⟨t, ht, hphase⟩ := h.waiting tid s hs
    exact ⟨t, htasks tid s t hs ht, hphase⟩
  · exact (h.queued p hp pid hpid).imp id (awaits pid _)
  · have before : x.committed pid = true := (hcommitted pid).symm.trans hpid
    exact h.final pid before

/-- A task stops waiting for a payment that no worker has. -/
theorem stopWaiting (h : x.Calls) {tid : Nat}
    (hidle : ∀ s, x.waits.lookup tid = some s → ∀ p, x.queue.HasInHand p ∨ x.queue.Runs p →
      p.sequence ≠ s) : (x.stopWaiting tid).Calls := by
  unfold AllocateWorld.stopWaiting
  split
  · exact h
  · rename_i sequence hsequence
    have awaits (pid : String) (s : Nat) (hs : x.Awaits pid s) : s = sequence ∨
        ({ x with
            waits := x.waits.erase tid
            queue := { x.queue with gaveUp := sequence :: x.queue.gaveUp } } :
          AllocateWorld D E).Awaits pid s := by
      obtain ⟨other, t, hwaits, ht, hpid⟩ := hs
      by_cases hother : other = tid
      · rw [hother, hsequence] at hwaits
        exact .inl (Option.some.inj hwaits).symm
      · exact .inr ⟨other, t, (AList.lookup_erase_ne hother).trans hwaits, ht, hpid⟩
    refine ⟨h.orderly, ⟨h.numbered.once, h.numbered.below, h.numbered.idle⟩, h.placed,
      fun other s hs => ?_, fun p hp pid hpid => ?_, fun p hp pid hpid => ?_, fun pid hpid => ?_,
      h.resubmitted⟩
    · by_cases hother : other = tid
      · rw [hother, AList.lookup_erase] at hs
        cases hs
      · rw [AList.lookup_erase_ne hother] at hs
        exact h.waiting other s hs
    · rcases h.queued p hp pid hpid with hgone | hwaits
      · exact .inl (List.mem_cons_of_mem _ hgone)
      · rcases awaits pid _ hwaits with rfl | still
        · exact .inl List.mem_cons_self
        · exact .inr still
    · rcases awaits pid _ (h.held p hp pid hpid) with rfl | still
      · exact absurd rfl (hidle _ hsequence p hp)
      · exact still
    · obtain ⟨hqueued, hhand⟩ := h.final pid hpid
      exact ⟨fun p hp hp' => List.mem_cons_of_mem _ (hqueued p hp hp'), hhand⟩

/-- A task that waits for nothing sends an allocation that has not committed. -/
theorem submitAllocate (h : x.Calls) {tid : Nat} {allocationCc : Option E} (hnew : tid ∉ x.waits)
    (huncommitted : ∀ t, x.executor.tasks.lookup tid = some t → x.committed t.proposalId = false) :
    (x.submitAllocate tid allocationCc).Calls := by
  unfold AllocateWorld.submitAllocate
  split
  · rename_i pid state ht
    let next : AllocateWorld D E :=
      { x with
        waits := x.waits.insert tid x.queue.nextSequence
        queue := x.queue.number (.allocate pid (state.dvpCid.getD "") allocationCc) }
    have awaits (q : String) (s : Nat) (hs : x.Awaits q s) : next.Awaits q s := by
      obtain ⟨other, t, hwaits, htask, hpid⟩ := hs
      have hother : other ≠ tid := by
        rintro rfl
        exact hnew (Pool.mem_iff_lookup.mpr ⟨s, hwaits⟩)
      exact ⟨other, t, (AList.lookup_insert_ne hother).trans hwaits, htask, hpid⟩
    have own : next.Awaits pid x.queue.nextSequence := ⟨tid, _, AList.lookup_insert _, ht, rfl⟩
    have queued (p : QueuedPayment E) (hp : p ∈ next.queue.queued) :
        p ∈ x.queue.queued ∨ p = ⟨.high, x.queue.nextSequence,
          .allocate pid (state.dvpCid.getD "") allocationCc⟩ := by
      simp only [PaymentWorld.queued, next, PaymentWorld.number, List.mem_append,
        List.mem_singleton] at hp ⊢
      rcases hp with ((((hnumbered | rfl) | hchannel) | hheap) | hdeferred)
      · exact .inl (.inl (.inl (.inl hnumbered)))
      · exact .inr rfl
      · exact .inl (.inl (.inl (.inr hchannel)))
      · exact .inl (.inl (.inr hheap))
      · exact .inl (.inr hdeferred)
    refine ⟨h.orderly, h.numbered.number _, h.placed, fun other s hs => ?_, fun p hp q hq => ?_,
      fun p hp q hq => awaits q _ (h.held p hp q hq), fun q hq => ⟨fun p hp hp' => ?_, ?_⟩,
      h.resubmitted⟩
    · by_cases hother : other = tid
      · rw [hother]
        exact ⟨_, ht, rfl⟩
      · rw [AList.lookup_insert_ne hother] at hs
        exact h.waiting other s hs
    · rcases queued p hp with hold | rfl
      · exact (h.queued p hold q hq).imp id (awaits q _)
      · obtain rfl := Option.some.inj hq
        exact .inr own
    · rcases queued p hp with hold | rfl
      · exact (h.final q hq).1 p hold hp'
      · obtain rfl := Option.some.inj hp'
        have before : x.committed pid = true := hq
        rw [huncommitted _ ht] at before
        cases before
    · exact (h.final q hq).2
  · exact h

/-- The allocation of a worker that runs commits. -/
theorem commits [SignatureCrates] (h : x.Calls) {p : QueuedPayment E} {pid : String}
    (hruns : x.queue.Runs p) (hpid : p.request.allocateFor = some pid) :
    ({ x with executor := x.executor.apply (.allocationCommits pid) } : AllocateWorld D E).Calls := by
  have awaited := h.held p (.inr hruns) pid hpid
  have committed (q : String) (hq : ((x.executor.apply (.allocationCommits pid)).history q).committed
      = true) : x.committed q = true ∨ q = pid := by
    by_cases hother : q = pid
    · exact .inr hother
    · have same : (x.executor.apply (.allocationCommits pid)).history q = x.executor.history q :=
        Function.update_of_ne hother _ _
      rw [same] at hq
      exact .inl hq
  refine ⟨SettlementExecutor.orderly_apply h.orderly (.allocationCommits pid) rfl, h.numbered, h.placed, h.waiting, h.queued,
    h.held, fun q hq => ?_, h.resubmitted⟩
  rcases committed q hq with before | rfl
  · exact h.final q before
  · refine ⟨fun other hother hfor => ?_, fun other hother hfor => ?_⟩
    · rcases h.queued other hother q hfor with hgone | hwaits
      · exact hgone
      · exact absurd (h.awaits_unique hwaits awaited)
          (PaymentWorld.queued_ne_runs h.numbered h.placed hother hruns)
    · exact absurd (h.awaits_unique (h.held other (.inl hother) q hfor) awaited)
        (PaymentWorld.inHand_ne_runs h.numbered h.placed hother hruns)

/-- The queue goes on. -/
theorem queue (h : x.Calls) {e : PaymentEvent E} (hallows : x.queue.Allows e)
    (hfee : ∀ request, e = .number request → request.isAllocate = false) :
    ({ x with
      queue := x.queue.apply e
      resubmitted := x.newlyResubmitted (x.queue.apply e) ++ x.resubmitted } :
        AllocateWorld D E).Calls := by
  have passes : x.queue.Passes (x.queue.apply e) := .apply hfee
  have waits_in_hand (p : QueuedPayment E) (hp : x.queue.HasInHand p) {pid : String}
      (hpid : p.request.allocateFor = some pid) : x.Awaits pid p.sequence := h.held p (.inl hp) pid hpid
  have allocate {p : QueuedPayment E} {pid : String} (hpid : p.request.allocateFor = some pid)
      (hfee : p.request.isAllocate = false) : False := by
    rw [isAllocate_of_allocateFor hpid] at hfee
    cases hfee
  refine ⟨h.orderly, h.numbered.apply hallows, PaymentWorld.places_apply h.placed, h.waiting,
    fun p hp pid hpid => ?_, fun p hp pid hpid => ?_, fun pid hpid => ⟨fun p hp hfor => ?_,
      fun p hp hfor => ?_⟩, ?_⟩
  · rcases passes.queued p hp with hold | hhand | hother
    · exact (h.queued p hold pid hpid).imp (fun hgone => passes.gaveUp hgone) id
    · exact .inr (waits_in_hand p hhand hpid)
    · exact (allocate hpid hother).elim
  · rcases hp with hhand | hruns
    · rcases passes.inHand p hhand with hold | ⟨hqueued, hkept⟩
      · exact waits_in_hand p hold hpid
      · exact (h.queued p hqueued pid hpid).resolve_left (hkept (isAllocate_of_allocateFor hpid))
    · rcases passes.runs p hruns with hold | hhand
      · exact h.held p (.inr hold) pid hpid
      · exact waits_in_hand p hhand hpid
  · rcases passes.queued p hp with hold | hhand | hother
    · exact passes.gaveUp ((h.final pid hpid).1 p hold hfor)
    · exact absurd hfor ((h.final pid hpid).2 p hhand)
    · exact (allocate hfor hother).elim
  · rcases passes.inHand p hp with hold | ⟨hqueued, hkept⟩
    · exact (h.final pid hpid).2 p hold hfor
    · exact hkept (isAllocate_of_allocateFor hfor) ((h.final pid hpid).1 p hqueued hfor)
  · rw [h.resubmitted, List.append_nil]
    unfold newlyResubmitted
    rw [List.filter_eq_nil_iff]
    intro pid hpid hcommitted
    obtain ⟨worker, hworker, hfor⟩ := List.mem_filterMap.mp hpid
    exact (h.final pid hcommitted).2 _ (passes.started worker hworker) hfor

end Calls

/-! ## Runs -/

/-- The task waits for no payment that is past the screen and has not ended. -/
def StopsIdle (x : AllocateWorld D E) (tid : Nat) : Prop :=
  ∀ sequence, x.waits.lookup tid = some sequence →
    ∀ p, x.queue.HasInHand p ∨ x.queue.Runs p → p.sequence ≠ sequence

/-- A task stops waiting for a payment before a pass takes it in hand, or when its worker has ended;
none sends an allocation that has committed, and none commits when its worker has ended. -/
def CallsOnce (x : AllocateWorld D E) : AllocateEvent D E → Prop
  | .returns tid _ | .drops tid => x.StopsIdle tid
  | .submitAllocate tid _ => ∀ t, x.executor.tasks.lookup tid = some t →
      x.committed t.proposalId = false
  | .commits i => ∀ w, x.queue.workers[i]? = some w → w.running = true
  | _ => True

/-- No two workers run an allocation of one proposal, and none started one that had committed. -/
structure SubmittedOnce (x : AllocateWorld D E) : Prop where
  single : ∀ (i j : Nat) (u v : PaymentWorker E) (pid : String), x.queue.workers[i]? = some u →
    x.queue.workers[j]? = some v → u.running = true → v.running = true →
      u.payment.request.allocateFor = some pid → v.payment.request.allocateFor = some pid → i = j
  final : x.resubmitted = []

/-- A process that starts. -/
structure JustStarted (x : AllocateWorld D E) : Prop where
  executor : x.executor.JustStarted
  queue : ∃ cache limits, x.queue = .start cache limits
  waits : x.waits = ∅
  resubmitted : x.resubmitted = []

variable [ValuedAmount D] [SignatureCrates] [Decimal E]

theorem calls_apply (h : x.Calls) {e : AllocateEvent D E} (hallowed : x.Allowed e)
    (honce : x.CallsOnce e) : (x.apply e).Calls := by
  -- the executor's own events leave the tasks that wait as they are
  have own (y : AllocateWorld D E) (hy : y.Calls) (e : ExecutorEvent D) (hrestart : e.isRestart = false)
      (hcommits : ∀ q, e ≠ .allocationCommits q)
      (hturn : ∀ tid s, y.waits.lookup tid = some s → ¬ e.isTurn tid .allocating) :
      ({ y with executor := y.executor.apply e } : AllocateWorld D E).Calls := by
    refine hy.executor (SettlementExecutor.orderly_apply hy.orderly e hrestart) (fun tid s t hs ht => ?_)
      fun pid => SettlementExecutor.committed_apply hy.orderly.numbered hrestart hcommits
    obtain ⟨t', ht', hphase⟩ := hy.waiting tid s hs
    obtain rfl := Option.some.inj (ht.symm.trans ht')
    refine SettlementExecutor.tasksStay_apply hy.orderly.numbered e hrestart tid t ht ?_
    rw [hphase]
    exact hturn tid s hs
  have lookup_stopped (tid : Nat) : (x.stopWaiting tid).waits.lookup tid = none := by
    unfold AllocateWorld.stopWaiting
    split
    · assumption
    · exact AList.lookup_erase _ _
  have stopped (tid : Nat) : (x.stopWaiting tid).executor = x.executor := by
    unfold AllocateWorld.stopWaiting
    split <;> rfl
  cases e with
  | executor e =>
    cases e with
    | allocationCommits => exact hallowed.elim
    | allocateReturns => exact hallowed.elim
    | dropTask => exact hallowed.elim
    | restart => exact hallowed.elim
    | _ => exact own x h _ rfl nofun fun tid s hs => id
  | queue e =>
    refine h.queue hallowed.1 fun request he => ?_
    subst he
    exact hallowed.2
  | submitAllocate tid allocationCc => exact h.submitAllocate hallowed honce
  | commits i =>
    unfold AllocateWorld.apply
    dsimp only
    split
    · exact h
    · rename_i pid hpid
      obtain ⟨worker, hworker, hfor⟩ := Option.bind_eq_some_iff.mp hpid
      exact h.commits ⟨worker, List.mem_of_getElem? hworker, rfl, honce worker hworker⟩ hfor
  | returns tid answer =>
    have next := own _ (h.stopWaiting honce) (.allocateReturns tid answer) rfl nofun fun other s hs => ?_
    · rw [stopped] at next
      exact next
    · rintro rfl
      rw [lookup_stopped] at hs
      cases hs
  | drops tid =>
    have next := own _ (h.stopWaiting honce) (.dropTask tid) rfl nofun fun other s hs => ?_
    · rw [stopped] at next
      exact next
    · rintro ⟨rfl, -⟩
      rw [lookup_stopped] at hs
      cases hs

omit [SignatureCrates] in
theorem JustStarted.calls (h : x.JustStarted) : x.Calls := by
  obtain ⟨cache, limits, hqueue⟩ := h.queue
  have idle (p : QueuedPayment E) : ¬ (x.queue.HasInHand p ∨ x.queue.Runs p) := by
    rw [hqueue]
    rintro (⟨held, hheld, -⟩ | ⟨worker, hmem, -⟩)
    · cases hheld
    · cases hmem
  have empty (p : QueuedPayment E) : p ∉ x.queue.queued := by
    rw [hqueue]
    exact List.not_mem_nil
  refine ⟨h.executor.orderly, ?_, ?_, fun tid s hs => ?_, fun p hp => absurd hp (empty p),
    fun p hp => absurd hp (idle p), fun pid _ => ⟨fun p hp => absurd hp (empty p), fun p hp =>
      absurd (.inl hp) (idle p)⟩, h.resubmitted⟩
  · rw [hqueue]
    exact PaymentWorld.numbered_start
  · rw [hqueue]
    exact PaymentWorld.accounted_start.placed
  · rw [h.waits] at hs
    cases hs

/-- In every run whose steps keep to `CallsOnce`, no two allocations of one proposal are in progress
at a time, and none is submitted after one has committed. -/
theorem allocates_once {x₀ : AllocateWorld D E} (hstart : x₀.JustStarted)
    (run : Reachable (fun x e => x.Allowed e ∧ x.CallsOnce e) apply x₀ x) : x.SubmittedOnce := by
  have calls : x.Calls :=
    run.invariant Calls hstart.calls fun y e inv hallowed => calls_apply inv hallowed.1 hallowed.2
  exact ⟨fun i j u v pid hu hv hruns hruns' hpid hpid' => calls.single hu hv hruns hruns' hpid hpid',
    calls.resubmitted⟩

end AllocateWorld

/-! ## A call that times out, and a status that is behind -/

namespace AllocateWorld

section Example

local instance allocatingCrates : SignatureCrates := SettlementExecutor.signedCrates

def idleWorld : AllocateWorld Int ScaledInt where
  executor := SettlementExecutor.bidding
  queue := .start PaymentWorld.stockedCache fun _ => 2
  waits := ∅
  resubmitted := []

/-- The next task of the purchase gets to its allocate call, and a worker starts on it. -/
def callEvents (tid : Nat) (now : Int) : List (AllocateEvent Int ScaledInt) :=
  [.executor (.spawn "p" false), .executor (.beginStep tid),
    .executor (.answerStep tid (.ok SettlementExecutor.allocateDue) now),
    .executor (.commitStep tid 0 SettlementExecutor.noDigits), .executor (.latchStep tid),
    .executor (.actStep tid (.ok "") now), .submitAllocate tid none, .queue (.send 0)] ++
      PaymentWorld.fiveSteps.map .queue

def calledEvents : List (AllocateEvent Int ScaledInt) :=
  .executor (.proposalCreated SettlementExecutor.agedPurchase (SettlementExecutor.quietFeed SettlementExecutor.bidding)) ::
    .executor (.contractFound "p" .dvp "d") :: callEvents 0 100

/-- The wait runs into its timeout while the worker submits, and the next task calls again. -/
def timeoutEvents : List (AllocateEvent Int ScaledInt) :=
  calledEvents ++ .returns 0 (.error "Allocate timed out after 600s") :: .executor (.collect 0 700) ::
    callEvents 1 710

/-- The allocation succeeds. -/
def successEvents : List (AllocateEvent Int ScaledInt) :=
  calledEvents ++ [.commits 0, .queue (.workerEnds 0), .returns 0 (.ok "a")]

/-- The status that the next task gets does not show it yet. -/
def staleEvents : List (AllocateEvent Int ScaledInt) :=
  successEvents ++ .executor (.collect 0 200) :: callEvents 1 210

def runOf (events : List (AllocateEvent Int ScaledInt)) : AllocateWorld Int ScaledInt :=
  events.foldl apply idleWorld

/-- The events of these runs, where they may come. -/
def admitted (x : AllocateWorld Int ScaledInt) : AllocateEvent Int ScaledInt → Bool
  | .executor (.allocationCommits _) | .executor (.allocateReturns ..) | .executor (.dropTask _)
  | .executor (.restart ..) => false
  | .executor _ => true
  | .queue (.send i) => x.queue.admitted (.send i)
  | .queue .receive => x.queue.admitted .receive
  | .queue (.begin connected) => x.queue.admitted (.begin connected)
  | .queue (.step now) => x.queue.admitted (.step now)
  | .queue (.workerEnds i) => x.queue.admitted (.workerEnds i)
  | .queue _ => false
  | .submitAllocate tid _ => decide (tid ∉ x.waits)
  | .commits _ | .returns _ (.error _) => true
  | .returns tid (.ok _) => (x.executor.tasks.lookup tid).all (fun t => x.committed t.proposalId) &&
      x.queue.workers.any fun w =>
        !w.running && decide (x.waits.lookup tid = some w.payment.sequence)
  | .drops _ => false

/-- And they keep to `CallsOnce`. -/
def keepsOnce (x : AllocateWorld Int ScaledInt) : AllocateEvent Int ScaledInt → Bool
  | .executor _ | .queue _ => true
  | .submitAllocate tid _ => (x.executor.tasks.lookup tid).all fun t => !x.committed t.proposalId
  | .commits i => (x.queue.workers[i]?).all PaymentWorker.running
  | .returns .. => x.queue.hand.isNone && x.queue.workers.all fun w => !w.running
  | .drops _ => false

theorem allowed_of_admitted (x : AllocateWorld Int ScaledInt) (e : AllocateEvent Int ScaledInt)
    (h : admitted x e = true) : x.Allowed e := by
  cases e with
  | executor e =>
    cases e with
    | allocationCommits => cases h
    | allocateReturns => cases h
    | dropTask => cases h
    | restart => cases h
    | _ => trivial
  | queue e =>
    cases e with
    | send => exact ⟨PaymentWorld.allows_of_admitted _ _ h, trivial⟩
    | receive => exact ⟨PaymentWorld.allows_of_admitted _ _ h, trivial⟩
    | begin => exact ⟨PaymentWorld.allows_of_admitted _ _ h, trivial⟩
    | step => exact ⟨PaymentWorld.allows_of_admitted _ _ h, trivial⟩
    | workerEnds => exact ⟨PaymentWorld.allows_of_admitted _ _ h, trivial⟩
    | _ => cases h
  | submitAllocate tid allocationCc => exact of_decide_eq_true (p := tid ∉ x.waits) h
  | commits => trivial
  | returns tid answer =>
    cases answer with
    | error => exact ⟨trivial, nofun⟩
    | ok cid =>
      obtain ⟨hcommitted, hended⟩ := Bool.and_eq_true_iff.mp h
      obtain ⟨w, hmem, hw⟩ := List.any_eq_true.mp hended
      obtain ⟨hrunning, hwaits⟩ := Bool.and_eq_true_iff.mp hw
      refine ⟨fun t ht => ?_, fun _ => ⟨w, hmem, (Bool.not_eq_true' _).mp hrunning, of_decide_eq_true hwaits⟩⟩
      rw [ht] at hcommitted
      exact hcommitted
  | drops => cases h

theorem callsOnce_of_keepsOnce (x : AllocateWorld Int ScaledInt) (e : AllocateEvent Int ScaledInt)
    (h : keepsOnce x e = true) : x.CallsOnce e := by
  cases e with
  | executor => trivial
  | queue => trivial
  | submitAllocate tid allocationCc =>
    intro t ht
    change (x.executor.tasks.lookup tid).all (fun t => !x.committed t.proposalId) = true at h
    rw [ht] at h
    exact (Bool.not_eq_true' _).mp h
  | commits i =>
    intro w hw
    change (x.queue.workers[i]?).all PaymentWorker.running = true at h
    rw [hw] at h
    exact h
  | returns tid answer =>
    obtain ⟨hhand, hended⟩ := Bool.and_eq_true_iff.mp h
    rintro sequence - p (⟨held, hheld, -⟩ | ⟨w, hmem, -, hrunning⟩)
    · rw [hheld] at hhand
      cases hhand
    · have ended := List.all_eq_true.mp hended w hmem
      rw [hrunning] at ended
      cases ended
  | drops => cases h

theorem justStarted_idleWorld : idleWorld.JustStarted :=
  ⟨⟨rfl, rfl, rfl⟩, ⟨PaymentWorld.stockedCache, fun _ => 2, rfl⟩, rfl, rfl⟩

theorem runOf_reachable {events : List (AllocateEvent Int ScaledInt)}
    (h : Admits (fun x e => admitted x e = true) apply idleWorld events) :
    Reachable Allowed apply idleWorld (runOf events) :=
  (Reachable.start.foldl h).mono allowed_of_admitted

/-- Two workers run an allocation of the purchase, where the first call timed out; and one starts
after its allocation has committed, where the server did not show it yet. -/
theorem allocates_twice :
    idleWorld.JustStarted ∧
      (Reachable Allowed apply idleWorld (runOf timeoutEvents) ∧ ¬ (runOf timeoutEvents).SubmittedOnce) ∧
        Reachable Allowed apply idleWorld (runOf staleEvents) ∧ (runOf staleEvents).resubmitted = ["p"] := by
  refine ⟨justStarted_idleWorld, ⟨runOf_reachable (by decide +kernel), fun once => ?_⟩,
    runOf_reachable (by decide +kernel), by decide +kernel⟩
  have workers : (runOf timeoutEvents).queue.workers
      = [⟨⟨.high, 0, .allocate "p" "d" none⟩, 2 ^ 63 - 1, true⟩,
        ⟨⟨.high, 1, .allocate "p" "d" none⟩, 2 ^ 63, true⟩] := by decide +kernel
  have first := once.single 0 1 _ _ "p" (by rw [workers]; rfl) (by rw [workers]; rfl) rfl rfl rfl rfl
  cases first

theorem allocates_once_success :
    (runOf successEvents).committed "p" = true ∧ (runOf successEvents).SubmittedOnce := by
  have kept : Reachable (fun x e => admitted x e = true ∧ keepsOnce x e = true) apply idleWorld
      (runOf successEvents) := Reachable.start.foldl (by decide +kernel)
  exact ⟨by decide +kernel, allocates_once justStarted_idleWorld (kept.mono fun x e h =>
    ⟨allowed_of_admitted x e h.1, callsOnce_of_keepsOnce x e h.2⟩)⟩

end Example

end AllocateWorld

end BookAgent.CloudAgent
