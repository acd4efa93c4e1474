import Mathlib.Logic.Function.Basic
import BookAgent.Lib.Run

/-!
# The shutdown signal

`Shutdown` (`shutdown.rs`): a flag, and a notification that keeps no permit. Any number of tasks signal,
`wait` and `sleep`, one atomic action at a time and in any order.
-/

namespace BookAgent.AgentLogic

open BookAgent.Lib

/-- Where a task is in its call. -/
inductive ShutdownCall
  | idle
  /-- `signal`: the flag is stored, the waiters are not notified yet. -/
  | signalling
  /-- It registered with `enable` after so many notifications, and has not looked at the flag. -/
  | enabled (notified : Nat) (sleeps : Bool)
  /-- It looked, and waits for the next notification, or also for the end of its sleep. -/
  | waiting (notified : Nat) (sleeps : Bool)
  | signalled
  /-- What `sleep` returned; `wait` returns as on `true`. -/
  | returned (observed : Bool)
  deriving DecidableEq

structure SignalWorld where
  flag : Bool
  /-- The calls of `notify_waiters`; each wakes those that registered before it. -/
  notifications : Nat
  calls : Nat → ShutdownCall

inductive SignalEvent
  /-- `signal` stores the flag, and then notifies. -/
  | store (task : Nat)
  | notify (task : Nat)
  /-- `wait` or `sleep` registers, and then looks at the flag. -/
  | register (task : Nat) (sleeps : Bool)
  | look (task : Nat)
  /-- A notification wakes it. -/
  | wake (task : Nat)
  /-- Its sleep is over. -/
  | elapse (task : Nat)

namespace SignalWorld

variable (w : SignalWorld)

def put (task : Nat) (call : ShutdownCall) : SignalWorld :=
  { w with calls := Function.update w.calls task call }

def isShuttingDown : Bool := w.flag

/-- The notification the task waits for was sent. -/
def Woken (task : Nat) : Prop :=
  ∃ notified sleeps, w.calls task = .waiting notified sleeps ∧ notified < w.notifications

def apply : SignalEvent → SignalWorld
  | .store task => { w with flag := true }.put task .signalling
  | .notify task => { w with notifications := w.notifications + 1 }.put task .signalled
  | .register task sleeps => w.put task (.enabled w.notifications sleeps)
  | .look task =>
    match w.calls task with
    | .enabled notified sleeps =>
      if w.flag then w.put task (.returned true) else w.put task (.waiting notified sleeps)
    | _ => w
  | .wake task => w.put task (.returned true)
  | .elapse task => w.put task (.returned w.flag)

/-- A task acts where it is; one that is done may call again. -/
def Allowed : SignalEvent → Prop
  | .store task => w.calls task = .idle ∨ w.calls task = .signalled ∨ ∃ r, w.calls task = .returned r
  | .notify task => w.calls task = .signalling
  | .register task _ =>
    w.calls task = .idle ∨ w.calls task = .signalled ∨ ∃ r, w.calls task = .returned r
  | .look task => ∃ notified sleeps, w.calls task = .enabled notified sleeps
  | .wake task => w.Woken task
  | .elapse task => ∃ notified, w.calls task = .waiting notified true

def fresh : SignalWorld := ⟨false, 0, fun _ => .idle⟩

/-- Some `signal` stored the flag and has yet to notify. -/
def Signalling : Prop := ∃ task, w.calls task = .signalling

structure Sound : Prop where
  notified : 0 < w.notifications → w.flag = true
  signalled : ∀ task, w.calls task = .signalling ∨ w.calls task = .signalled ∨
    w.calls task = .returned true → w.flag = true
  enabled : ∀ task n sleeps, w.calls task = .enabled n sleeps → n ≤ w.notifications
  waiting : ∀ task n sleeps, w.calls task = .waiting n sleeps →
    w.flag = false ∨ n < w.notifications ∨ w.Signalling
  registered : ∀ task n sleeps, w.calls task = .waiting n sleeps → n ≤ w.notifications

variable {w}

theorem put_self (task : Nat) (call : ShutdownCall) : (w.put task call).calls task = call :=
  Function.update_self ..

theorem put_of_ne {task other : Nat} (h : other ≠ task) (call : ShutdownCall) :
    (w.put task call).calls other = w.calls other := Function.update_of_ne h ..

theorem not_signalling {task : Nat} (hidle : w.calls task = .idle ∨ w.calls task = .signalled ∨
    ∃ r, w.calls task = .returned r) : w.calls task ≠ .signalling := by
  rcases hidle with hcall | hcall | ⟨r, hcall⟩ <;> simp [hcall]

namespace Sound

variable {task : Nat} {call : ShutdownCall}

/-- A task that has not just stored the flag goes on. -/
theorem put (h : w.Sound) (htask : w.calls task ≠ .signalling)
    (hsignalled : call = .signalling ∨ call = .signalled ∨ call = .returned true → w.flag = true)
    (henabled : ∀ n sleeps, call = .enabled n sleeps → n ≤ w.notifications)
    (hwaiting : ∀ n sleeps, call = .waiting n sleeps →
      n ≤ w.notifications ∧ (w.flag = false ∨ n < w.notifications)) :
    (w.put task call).Sound where
  notified := h.notified
  signalled other hother := by
    by_cases heq : other = task
    · rw [heq, put_self] at hother
      exact hsignalled hother
    · rw [put_of_ne heq] at hother
      exact h.signalled other hother
  enabled other n sleeps hother := by
    by_cases heq : other = task
    · rw [heq, put_self] at hother
      exact henabled n sleeps hother
    · rw [put_of_ne heq] at hother
      exact h.enabled other n sleeps hother
  waiting other n sleeps hother := by
    by_cases heq : other = task
    · rw [heq, put_self] at hother
      exact (hwaiting n sleeps hother).2.imp_right .inl
    · rw [put_of_ne heq] at hother
      rcases h.waiting other n sleeps hother with hflag | hsent | ⟨signaller, hsignaller⟩
      · exact .inl hflag
      · exact .inr (.inl hsent)
      · have hne : signaller ≠ task := fun heq => htask (heq ▸ hsignaller)
        exact .inr (.inr ⟨signaller, (put_of_ne hne call).trans hsignaller⟩)
  registered other n sleeps hother := by
    by_cases heq : other = task
    · rw [heq, put_self] at hother
      exact (hwaiting n sleeps hother).1
    · rw [put_of_ne heq] at hother
      exact h.registered other n sleeps hother

theorem store (h : w.Sound) (task : Nat) : (w.apply (.store task)).Sound where
  notified _ := rfl
  signalled _ _ := rfl
  enabled other n sleeps hother := by
    by_cases heq : other = task
    · cases (put_self task .signalling).symm.trans (heq ▸ hother)
    · exact h.enabled other n sleeps ((put_of_ne heq _).symm.trans hother)
  -- whoever waits is woken by the notification that this task has yet to send
  waiting _ _ _ _ := .inr (.inr ⟨task, put_self task .signalling⟩)
  registered other n sleeps hother := by
    by_cases heq : other = task
    · cases (put_self task .signalling).symm.trans (heq ▸ hother)
    · exact h.registered other n sleeps ((put_of_ne heq _).symm.trans hother)

theorem notify (h : w.Sound) (htask : w.calls task = .signalling) :
    (w.apply (.notify task)).Sound := by
  have hflag : w.flag = true := h.signalled task (.inl htask)
  refine ⟨fun _ => hflag, fun _ _ => hflag, fun other n sleeps hother => ?_,
    fun other n sleeps hother => ?_, fun other n sleeps hother => ?_⟩
  · by_cases heq : other = task
    · cases (put_self task .signalled).symm.trans (heq ▸ hother)
    · have hn := h.enabled other n sleeps ((put_of_ne heq _).symm.trans hother)
      exact Nat.le_succ_of_le hn
  · by_cases heq : other = task
    · cases (put_self task .signalled).symm.trans (heq ▸ hother)
    · have hn := h.registered other n sleeps ((put_of_ne heq _).symm.trans hother)
      exact .inr (.inl (Nat.lt_succ_of_le hn))
  · by_cases heq : other = task
    · cases (put_self task .signalled).symm.trans (heq ▸ hother)
    · have hn := h.registered other n sleeps ((put_of_ne heq _).symm.trans hother)
      exact Nat.le_succ_of_le hn

theorem look (h : w.Sound) {n : Nat} {sleeps : Bool} (htask : w.calls task = .enabled n sleeps) :
    (w.apply (.look task)).Sound := by
  have hn := h.enabled task n sleeps htask
  have hne : w.calls task ≠ .signalling := by simp [htask]
  simp only [SignalWorld.apply, htask]
  split
  · rename_i hflag
    exact h.put hne (fun _ => hflag) (by simp) (by simp)
  · rename_i hflag
    refine h.put hne (by simp) (by simp) fun n' sleeps' heq => ?_
    obtain ⟨rfl, -⟩ := ShutdownCall.waiting.inj heq
    exact ⟨hn, .inl (Bool.eq_false_iff.mpr hflag)⟩

/-- One action. -/
theorem apply (h : w.Sound) {e : SignalEvent} (hallowed : w.Allowed e) : (w.apply e).Sound := by
  cases e with
  | store task => exact h.store task
  | notify task => exact h.notify hallowed
  | register task sleeps =>
    refine h.put (not_signalling hallowed) (by simp) (fun n sleeps' heq => ?_) (by simp)
    obtain ⟨rfl, -⟩ := ShutdownCall.enabled.inj heq
    exact Nat.le_refl _
  | look task =>
    obtain ⟨n, sleeps, htask⟩ := hallowed
    exact h.look htask
  | wake task =>
    obtain ⟨n, sleeps, htask, hsent⟩ := hallowed
    exact h.put (by simp [htask]) (fun _ => h.notified (by omega)) (by simp) (by simp)
  | elapse task =>
    obtain ⟨n, htask⟩ := hallowed
    refine h.put (by simp [htask]) (fun hcall => ?_) (by simp) (by simp)
    rcases hcall with hcall | hcall | hcall
    · cases hcall
    · cases hcall
    · exact ShutdownCall.returned.inj hcall

end Sound

theorem sound_fresh : fresh.Sound :=
  ⟨fun h => absurd h (Nat.lt_irrefl 0), fun _ h => by simp [fresh] at h, fun _ _ _ h => (nomatch h),
    fun _ _ _ h => (nomatch h), fun _ _ _ h => nomatch h⟩

/-- In every interleaving of signals, waits and sleeps: once the flag is up and no `signal` stands
between its store and its notification, every waiting task was notified, and one that has registered
returns when it looks; and `true` is returned, by a wait or a sleep, only when the flag is up. -/
theorem no_wakeup_lost (run : Reachable Allowed apply fresh w) :
    (w.flag = true → ¬ w.Signalling → ∀ task,
      (∀ n sleeps, w.calls task = .waiting n sleeps → w.Woken task) ∧
        ∀ n sleeps, w.calls task = .enabled n sleeps →
          (w.apply (.look task)).calls task = .returned true) ∧
      ∀ task, w.calls task = .returned true → w.flag = true := by
  have sound : w.Sound := run.invariant Sound sound_fresh fun _ _ hinv hallowed => hinv.apply hallowed
  refine ⟨fun hflag hdone task => ⟨fun n sleeps hcall => ?_, fun n sleeps hcall => ?_⟩,
    fun task hcall => sound.signalled task (.inr (.inr hcall))⟩
  · rcases sound.waiting task n sleeps hcall with hdown | hsent | hsignalling
    · exact nomatch hflag.symm.trans hdown
    · exact ⟨n, sleeps, hcall, hsent⟩
    · exact absurd hsignalling hdone
  · simp only [apply, hcall, hflag, if_true]
    exact put_self task _

end SignalWorld

section Example

namespace SignalWorld

/-- Task 0 waits before task 1 signals, and task 2 registers while it does. -/
def waitMeetsSignal : List SignalEvent := 
  [.register 0 false, .look 0, .store 1, .register 2 true, .notify 1]

theorem look_meets_signal :
    let w := waitMeetsSignal.foldl apply fresh
    (w.flag = true → ¬ w.Signalling → ∀ task,
      (∀ n sleeps, w.calls task = .waiting n sleeps → w.Woken task) ∧
        ∀ n sleeps, w.calls task = .enabled n sleeps →
          (w.apply (.look task)).calls task = .returned true) ∧
      ∀ task, w.calls task = .returned true → w.flag = true :=
  no_wakeup_lost (Reachable.start.foldl
    ⟨.inl rfl, ⟨0, false, rfl⟩, .inl rfl, .inl rfl, rfl, trivial⟩)

end SignalWorld

end Example

end BookAgent.AgentLogic
