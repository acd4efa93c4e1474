import BookAgent.AgentLogic.SentCancels
import BookAgent.AgentLogic.TaskTurns
import BookAgent.CloudAgent.PaymentRuns

/-!
# Allocate calls

The tasks of the executor and the payment queue together. A task that is to allocate sends its
payment to the queue and waits for it, for a time; the scheduler and the workers go on whether the
task still waits or not.
-/

namespace BookAgent.CloudAgent

open BookAgent.Lib BookAgent.AgentLogic

/-- The proposal that is to be allocated. -/
def PaymentRequest.allocateFor {E : Type} : PaymentRequest E → Option String
  | .allocate pid _ _ => some pid
  | .payFee .. => none

structure AllocateWorld (D E : Type) where
  executor : SettlementExecutor D
  queue : PaymentWorld E
  /-- By task, the sequence of the payment that it waits for. -/
  waits : Pool Nat Nat
  /-- The proposals for which a worker started when their allocation had committed. No code reads
  it. -/
  resubmitted : List String

inductive AllocateEvent (D E : Type)
  /-- The executor, but for its allocate calls. -/
  | executor (e : ExecutorEvent D)
  /-- The queue, but for the allocations sent to it. -/
  | queue (e : PaymentEvent E)
  /-- `submit_allocate`: a task takes a sequence for its allocation. -/
  | submitAllocate (tid : Nat) (allocationCc : Option E)
  /-- The transaction of a worker commits on the ledger. -/
  | commits (i : Nat)
  /-- The wait of a task ends, with the answer of the queue or without. -/
  | returns (tid : Nat) (answer : Except String String)
  /-- A task panics or is aborted. -/
  | drops (tid : Nat)

namespace AllocateWorld

variable {D E : Type}

/-- The allocation for the proposal is on the ledger. -/
def committed (x : AllocateWorld D E) (pid : String) : Bool := (x.executor.history pid).committed

/-- The proposals of the workers that are new, if their allocation has committed. -/
def newlyResubmitted (x : AllocateWorld D E) (queue : PaymentWorld E) : List String :=
  ((queue.workers.drop x.queue.workers.length).filterMap fun w => w.payment.request.allocateFor).filter
    x.committed

/-- Nobody waits for the task's payment any more. -/
def stopWaiting (x : AllocateWorld D E) (tid : Nat) : AllocateWorld D E :=
  match x.waits.lookup tid with
  | none => x
  | some sequence =>
    { x with
      waits := x.waits.erase tid
      queue := { x.queue with gaveUp := sequence :: x.queue.gaveUp } }

def submitAllocate (x : AllocateWorld D E) (tid : Nat) (allocationCc : Option E) :
    AllocateWorld D E :=
  match x.executor.tasks.lookup tid with
  | some ⟨pid, state, .allocating⟩ =>
    { x with
      waits := x.waits.insert tid x.queue.nextSequence
      queue := x.queue.number (.allocate pid (state.dvpCid.getD "") allocationCc) }
  | _ => x

variable [ValuedAmount D] [SignatureCrates] [Decimal E]

def apply (x : AllocateWorld D E) : AllocateEvent D E → AllocateWorld D E
  | .executor e => { x with executor := x.executor.apply e }
  | .queue e =>
    let queue := x.queue.apply e
    { x with queue, resubmitted := x.newlyResubmitted queue ++ x.resubmitted }
  | .submitAllocate tid allocationCc => x.submitAllocate tid allocationCc
  | .commits i =>
    match (x.queue.workers[i]?).bind fun w => w.payment.request.allocateFor with
    | none => x
    | some pid => { x with executor := x.executor.apply (.allocationCommits pid) }
  | .returns tid answer =>
    { x.stopWaiting tid with executor := x.executor.apply (.allocateReturns tid answer) }
  | .drops tid => { x.stopWaiting tid with executor := x.executor.apply (.dropTask tid) }

/-- An allocation is only sent by a task, once for each call; only its caller gives it up, and a
task is only answered with a success by a worker that has ended, once the allocation is on the
ledger. All within one process. -/
def Allowed (x : AllocateWorld D E) : AllocateEvent D E → Prop
  | .executor e => match e with
    | .allocationCommits _ | .allocateReturns .. | .dropTask _ | .restart .. => False
    | _ => True
  | .queue e => x.queue.Allows e ∧ match e with
    | .number request => request.isAllocate = false
    | .giveUp sequence => ∀ tid, x.waits.lookup tid ≠ some sequence
    | .submitEnds i (.ok _) _ => ∀ w pid, x.queue.workers[i]? = some w →
        w.payment.request.allocateFor = some pid → x.committed pid = true
    | _ => True
  | .submitAllocate tid _ => tid ∉ x.waits
  | .commits _ => True
  | .returns tid answer => x.executor.Allowed (.allocateReturns tid answer) ∧
      (answer.isOk = true →
        ∃ w ∈ x.queue.workers, w.running = false ∧ x.waits.lookup tid = some w.payment.sequence)
  | .drops _ => True

end AllocateWorld

/-! ## What an event of the queue does to the payments -/

namespace PaymentWorld

variable {E : Type} {w w' : PaymentWorld E}

/-- The payments that no pass has screened since they were queued. -/
def queued (w : PaymentWorld E) : List (QueuedPayment E) :=
  w.numbered ++ w.channel ++ w.heap ++ w.deferred

/-- The payment is past the screen. -/
def HasInHand (w : PaymentWorld E) (p : QueuedPayment E) : Prop := ∃ h, w.hand = some h ∧ h.payment = p

/-- A worker runs the payment. -/
def Runs (w : PaymentWorld E) (p : QueuedPayment E) : Prop :=
  ∃ worker ∈ w.workers, worker.payment = p ∧ worker.running = true

/-- Payments are queued, taken in hand if their caller waits, put back, and started from there. -/
structure Passes (w w' : PaymentWorld E) : Prop where
  queued : ∀ p ∈ w'.queued, p ∈ w.queued ∨ w.HasInHand p ∨ p.request.isAllocate = false
  inHand : ∀ p, w'.HasInHand p → w.HasInHand p ∨
    p ∈ w.queued ∧ (p.request.isAllocate = true → p.sequence ∉ w.gaveUp)
  runs : ∀ p, w'.Runs p → w.Runs p ∨ w.HasInHand p
  started : ∀ worker ∈ w'.workers.drop w.workers.length, w.HasInHand worker.payment
  gaveUp : w.gaveUp ⊆ w'.gaveUp

namespace Passes

/-- The workers are as they were, and so is what is in hand. -/
theorem of_same (hqueued : ∀ p ∈ w'.queued, p ∈ w.queued) (hhand : w'.hand = w.hand)
    (hworkers : w'.workers = w.workers) (hgaveUp : w.gaveUp ⊆ w'.gaveUp) : w.Passes w' where
  queued p hp := .inl (hqueued p hp)
  inHand p := by
    rintro ⟨h, hh, hp⟩
    exact .inl ⟨h, hhand ▸ hh, hp⟩
  runs p := by
    rintro ⟨worker, hmem, hp⟩
    exact .inl ⟨worker, hworkers ▸ hmem, hp⟩
  started worker hmem := by
    rw [hworkers, List.drop_length] at hmem
    cases hmem
  gaveUp := hgaveUp

/-- The workers are as they were. -/
theorem of_workers (hqueued : ∀ p ∈ w'.queued, p ∈ w.queued ∨ w.HasInHand p)
    (hhand : ∀ p, w'.HasInHand p → w.HasInHand p ∨
      p ∈ w.queued ∧ (p.request.isAllocate = true → p.sequence ∉ w.gaveUp))
    (hworkers : w'.workers = w.workers) (hgaveUp : w'.gaveUp = w.gaveUp) : w.Passes w' where
  queued p hp := (hqueued p hp).imp id .inl
  inHand := hhand
  runs p := by
    rintro ⟨worker, hmem, hp⟩
    exact .inl ⟨worker, hworkers ▸ hmem, hp⟩
  started worker hmem := by
    rw [hworkers, List.drop_length] at hmem
    cases hmem
  gaveUp := hgaveUp ▸ List.Subset.refl _

variable [Decimal E]

theorem pop (hnone : w.hand = none) : w.Passes w.pop := by
  have idle (p : QueuedPayment E) : ¬ w.HasInHand p := by
    rintro ⟨h, hh, -⟩
    rw [hnone] at hh
    cases hh
  unfold PaymentWorld.pop
  split
  · refine of_same (fun p hp => ?_) rfl rfl (List.Subset.refl _)
    simp only [PaymentWorld.queued, List.append_nil, List.mem_append] at hp ⊢
    rcases hp with (hnumbered | hchannel) | hdeferred
    · exact .inl (.inl (.inl hnumbered))
    · exact .inl (.inl (.inr hchannel))
    · exact .inr hdeferred
  · rename_i best rest hbest
    have rest_queued (p : QueuedPayment E) (hp : p ∈ rest) : p ∈ w.heap :=
      (takeBest_perm hbest).mem_iff.mpr (List.mem_cons_of_mem _ hp)
    have best_queued : best ∈ w.heap := (takeBest_perm hbest).mem_iff.mpr List.mem_cons_self
    have queued (p : QueuedPayment E)
        (hp : p ∈ w.numbered ++ w.channel ++ rest ++ w.deferred) : p ∈ w.queued := by
      simp only [PaymentWorld.queued, List.mem_append] at hp ⊢
      rcases hp with (hwaiting | hheap) | hdeferred
      · exact .inl (.inl hwaiting)
      · exact .inl (.inr (rest_queued p hheap))
      · exact .inr hdeferred
    dsimp only
    split
    · exact of_same queued rfl rfl (List.Subset.refl _)
    · rename_i hkept
      split
      · exact of_same queued rfl rfl (List.Subset.refl _)
      · refine of_workers (fun p hp => .inl (queued p hp)) ?_ rfl rfl
        rintro p ⟨h, hh, rfl⟩
        obtain rfl := Option.some.inj hh
        refine .inr ⟨?_, fun hallocate hgone => hkept ?_⟩
        · simp only [PaymentWorld.queued, List.mem_append]
          exact .inl (.inr best_queued)
        · rw [Bool.and_eq_true, decide_eq_true_eq]
          exact ⟨hgone, hallocate⟩

omit [Decimal E] in
/-- What is in hand is put back. -/
theorem defer {h : InHand E} (hhand : w.hand = some h) (hqueued : w'.queued = w.queued ++ [h.payment])
    (hnone : w'.hand = none) (hworkers : w'.workers = w.workers) (hgaveUp : w'.gaveUp = w.gaveUp) :
    w.Passes w' := by
  refine of_workers (fun p hp => ?_) (fun p hp => ?_) hworkers hgaveUp
  · rw [hqueued, List.mem_append, List.mem_singleton] at hp
    exact hp.imp id fun heq => ⟨h, hhand, heq.symm⟩
  · obtain ⟨h', hh', -⟩ := hp
    rw [hnone] at hh'
    cases hh'

theorem step (now : Instant) : w.Passes (w.step now) := by
  cases hhand : w.hand with
  | none =>
    have popped : w.step now = w.pop := by
      unfold PaymentWorld.step
      rw [hhand]
    rw [popped]
    exact pop hhand
  | some h =>
    have busy : w.hand ≠ none := by
      rw [hhand]
      exact nofun
    have moves := w.step_moves now
    generalize w.step now = next at moves
    cases moves with
    | ends hnone => exact absurd hnone busy
    | drops hnone => exact absurd hnone busy
    | answers hnone => exact absurd hnone busy
    | takes hnone => exact absurd hnone busy
    | goesOn after hh' hsame hroom n r c =>
      refine of_workers (fun p hp => .inl hp) ?_ rfl rfl
      rintro p ⟨h', hnext, rfl⟩
      obtain rfl := Option.some.inj hnext
      exact .inl ⟨_, hh', hsame.symm⟩
    | findsFull hh' number hfree =>
      refine of_workers (fun p hp => .inl hp) ?_ rfl rfl
      rintro p ⟨h', hnext, rfl⟩
      obtain rfl := Option.some.inj hnext
      exact .inl ⟨_, hh', rfl⟩
    | defers hh' hhow n => exact .defer hh' (List.append_assoc ..).symm rfl rfl rfl
    | putsBack hh' hfull r c => exact .defer hh' (List.append_assoc ..).symm rfl rfl rfl
    | @dispatches h' number hh' hfree =>
      refine ⟨fun p hp => .inl hp, ?_, ?_, fun worker hmem => ?_, List.Subset.refl _⟩
      · rintro p ⟨other, hnone, -⟩
        cases hnone
      · rintro p ⟨worker, hmem, rfl, hrunning⟩
        rcases List.mem_append.mp hmem with hold | hnew
        · exact .inl ⟨worker, hold, rfl, hrunning⟩
        · rw [List.mem_singleton.mp hnew]
          exact .inr ⟨_, hh', rfl⟩
      · have new : worker ∈ (w.workers ++ [PaymentWorker.mk h'.payment number true]).drop
            w.workers.length := hmem
        rw [List.drop_left, List.mem_singleton] at new
        rw [new]
        exact ⟨_, hh', rfl⟩

omit [Decimal E] in
theorem workerEnds (i : Nat) : w.Passes (w.workerEnds i) := by
  unfold PaymentWorld.workerEnds
  split
  · rename_i worker hworker
    refine ⟨fun p hp => .inl hp, fun p hp => .inl hp, ?_, fun other hmem => ?_, List.Subset.refl _⟩
    · rintro p ⟨other, hmem, rfl, hrunning⟩
      rcases List.mem_or_eq_of_mem_set hmem with hold | rfl
      · exact .inl ⟨other, hold, rfl, hrunning⟩
      · cases hrunning
    · rw [List.drop_of_length_le (List.length_set ..).le] at hmem
      cases hmem
  · exact of_same (fun p hp => hp) rfl rfl (List.Subset.refl _)

/-- Every event of the queue, but a new allocation. -/
theorem apply {e : PaymentEvent E} (hfee : ∀ request, e = .number request → request.isAllocate = false) :
    w.Passes (w.apply e) := by
  have kept : w.Passes w := of_same (fun p hp => hp) rfl rfl (List.Subset.refl _)
  have settled (r : Pool Nat AmuletReservation) (c : SplitCache E) :
      w.Passes { w with reservations := r, cache := c } :=
    of_same (fun p hp => hp) rfl rfl (List.Subset.refl _)
  cases e with
  | number request =>
    refine ⟨fun p hp => ?_, kept.inHand, kept.runs, kept.started, kept.gaveUp⟩
    simp only [PaymentWorld.queued, PaymentWorld.apply, PaymentWorld.number, List.mem_append,
      List.mem_singleton] at hp ⊢
    rcases hp with ((((hnumbered | rfl) | hchannel) | hheap) | hdeferred)
    · exact .inl (.inl (.inl (.inl hnumbered)))
    · exact .inr (.inr (hfee request rfl))
    · exact .inl (.inl (.inl (.inr hchannel)))
    · exact .inl (.inl (.inr hheap))
    · exact .inl (.inr hdeferred)
  | send i =>
    change w.Passes (w.send i)
    unfold PaymentWorld.send
    split
    · rename_i sent hsent
      refine of_same (fun p hp => ?_) rfl rfl (List.Subset.refl _)
      simp only [PaymentWorld.queued, List.mem_append, List.mem_singleton] at hp ⊢
      rcases hp with (((hnumbered | (hchannel | rfl)) | hheap) | hdeferred)
      · exact .inl (.inl (.inl (List.mem_of_mem_eraseIdx hnumbered)))
      · exact .inl (.inl (.inr hchannel))
      · exact .inl (.inl (.inl (List.mem_of_getElem? hsent)))
      · exact .inl (.inr hheap)
      · exact .inr hdeferred
    · exact kept
  | giveUp sequence => exact of_same (fun p hp => hp) rfl rfl (List.subset_cons_self _ _)
  | receive =>
    change w.Passes w.receive
    unfold PaymentWorld.receive
    split
    · exact kept
    · rename_i first rest hchannel
      refine of_same (fun p hp => ?_) rfl rfl (List.Subset.refl _)
      simp only [PaymentWorld.queued, hchannel, List.mem_append, List.mem_cons, List.not_mem_nil,
        or_false] at hp ⊢
      rcases hp with (((hnumbered | hrest) | (hheap | rfl)) | hdeferred)
      · exact .inl (.inl (.inl hnumbered))
      · exact .inl (.inl (.inr (.inr hrest)))
      · exact .inl (.inr hheap)
      · exact .inl (.inl (.inr (.inl rfl)))
      · exact .inr hdeferred
  | begin connected =>
    have drained (p : QueuedPayment E)
        (hp : p ∈ w.numbered ++ [] ++ (w.heap ++ w.channel) ++ w.deferred) : p ∈ w.queued := by
      simp only [PaymentWorld.queued, List.append_nil, List.mem_append] at hp ⊢
      rcases hp with ((hnumbered | (hheap | hchannel)) | hdeferred)
      · exact .inl (.inl (.inl hnumbered))
      · exact .inl (.inr hheap)
      · exact .inl (.inl (.inr hchannel))
      · exact .inr hdeferred
    cases connected with
    | false => exact of_same drained rfl rfl (List.Subset.refl _)
    | true => exact of_same drained rfl rfl (List.Subset.refl _)
  | step now => exact step now
  | submitEnds i result now =>
    obtain ⟨r, c, heq⟩ := w.workerLetsGo_eq i (submitEnd result) now
    exact (show w.apply (.submitEnds i result now) = _ from heq) ▸ settled r c
  | guardReleases i now =>
    obtain ⟨r, c, heq⟩ := w.workerLetsGo_eq i .early now
    exact (show w.apply (.guardReleases i now) = _ from heq) ▸ settled r c
  | workerEnds i => exact workerEnds i
  | cache e => exact settled w.reservations _

end Passes

end PaymentWorld

end BookAgent.CloudAgent
