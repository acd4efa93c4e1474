import BookAgent.AgentLogic.OrderTracker
import BookAgent.Lib.Run

/-!
# The sweep of the party's orders

`cancel_all_party_orders` and its callers (`runner.rs`): orders are listed and cancelled until two
listings in a row, a pause apart, come back empty; only then is the tracker cleared. While the sweep
runs, orders that were submitted before it land, and orders leave the book on their own.
-/

namespace BookAgent.AgentLogic

open BookAgent.Lib

variable {D : Type} [Amount D]

/-- `PARTY_CANCEL_ROUNDS` -/
def partyCancelRounds : Nat := 5

/-- `PARTY_CANCEL_RETRY_PAUSE` -/
def partyCancelRetryPause : Instant := 500000000

/-- `PARTY_CANCEL_CONFIRM_PAUSE` -/
def partyCancelConfirmPause : Instant := seconds 1

namespace OrderTracker

/-- Adopt those of the listed orders that a failed submit had booked. -/
def adoptListed (t : OrderTracker D) (orders : List Order) (now : Instant) : OrderTracker D :=
  if t.failedSubmits.isEmpty then t
  else orders.foldl (fun t order => (t.adoptFailedSubmit order now).2) t

theorem lookup_adoptFailedSubmit {t : OrderTracker D} {order : Order} {now : Instant} {id : Nat}
    {tracked : TrackedOrder D} (h : t.orders.lookup id = some tracked) :
    (t.adoptFailedSubmit order now).2.orders.lookup id = some tracked := by
  unfold adoptFailedSubmit
  dsimp only
  split
  · exact h
  · rename_i hnew
    have hne : order.orderId ≠ id := fun heq =>
      hnew (Pool.mem_iff_lookup.mpr ⟨tracked, heq ▸ h⟩)
    split
    · exact h
    · split
      · exact h
      · simp only [trackOrder, Pool.lookup_insert_eq_ite, hne.symm, if_false]
        exact h

/-- What is tracked stays as it is. -/
theorem lookup_adoptListed {t : OrderTracker D} {orders : List Order} {now : Instant} {id : Nat}
    {tracked : TrackedOrder D} (h : t.orders.lookup id = some tracked) :
    (t.adoptListed orders now).orders.lookup id = some tracked := by
  unfold adoptListed
  split
  · exact h
  · rename_i hkept
    clear hkept
    induction orders generalizing t with
    | nil => exact h
    | cons order orders ih => exact ih (lookup_adoptFailedSubmit h)

end OrderTracker

inductive SweepPhase
  /-- The next listing is of the round. -/
  | fetch (round : Nat) (seenEmpty : Bool)
  /-- A listing is under way; these orders were live when it began. -/
  | fetching (round : Nat) (seenEmpty : Bool) (before : List Nat)
  | pause (round : Nat) (seenEmpty : Bool) (wakeAt : Instant)
  | cancel (round : Nat) (orders : List Order)
  /-- The book was confirmed empty, or not; a sweep at its time limit ends unconfirmed. -/
  | ended (confirmed : Bool)
  deriving DecidableEq

/-- So many listings of the sweep were made. -/
def SweepPhase.Counted (fetches : Nat) : SweepPhase → Prop
  | .fetch round _ | .pause round _ _ => fetches = round ∧ round < partyCancelRounds
  | .fetching round _ _ | .cancel round _ => fetches = round + 1 ∧ round < partyCancelRounds
  | .ended _ => fetches ≤ partyCancelRounds

/-- The last listing was not empty, or there was none, and none is under way. -/
def SweepPhase.Fresh : SweepPhase → Prop
  | .fetch _ seenEmpty | .pause _ seenEmpty _ => seenEmpty = false
  | .fetching .. => False
  | .cancel .. => True
  | .ended confirmed => confirmed = false

structure SweepWorld (D : Type) where
  now : Instant
  /-- The party's orders on the server. -/
  live : List Order
  /-- The submits under way, each with the time before which it lands. -/
  landing : List (Instant × Order)
  phase : SweepPhase
  /-- The listings of this sweep. -/
  fetches : Nat
  cancelled : Nat
  tracker : OrderTracker D
  /-- The tracker was cleared. -/
  withdrawn : Bool

inductive SweepEvent
  | tick (span : Nat)
  | land (deadline : Instant) (order : Order)
  /-- An order is filled, expires or is cancelled elsewhere. -/
  | leave (orderId : Nat)
  | fetchBegin
  | fetchFail
  | fetchEnd (orders : List Order)
  | wake
  /-- The next cancel: whether the server reports success, and whether the order is gone. -/
  | cancel (success gone : Bool)
  /-- The sweep's time limit. -/
  | limit
  /-- Another sweep, after one that did not confirm. -/
  | again
  | clear
  deriving DecidableEq

namespace SweepWorld

variable (w : SweepWorld D)

/-- The next round, if there is one, after a pause. -/
def pauseFor (round : Nat) (seenEmpty : Bool) (pause : Nat) : SweepPhase :=
  if round + 1 < partyCancelRounds then .pause (round + 1) seenEmpty (w.now + pause)
  else .ended false

/-- The orders of the round were cancelled. -/
def nextRound (round : Nat) : SweepPhase :=
  if round + 1 < partyCancelRounds then .fetch (round + 1) false else .ended false

def listed (round : Nat) (seenEmpty : Bool) (orders : List Order) : SweepWorld D :=
  if orders = [] then
    if seenEmpty then { w with phase := .ended true }
    else { w with phase := w.pauseFor round true partyCancelConfirmPause }
  else { w with tracker := w.tracker.adoptListed orders w.now, phase := .cancel round orders }

def apply : SweepEvent → SweepWorld D
  | .tick span => { w with now := w.now + span }
  | .land deadline order =>
    { w with landing := w.landing.erase (deadline, order), live := w.live ++ [order] }
  | .leave orderId => { w with live := w.live.filter fun o => decide (o.orderId ≠ orderId) }
  | .fetchBegin =>
    match w.phase with
    | .fetch round seenEmpty =>
      { w with phase := .fetching round seenEmpty (w.live.map Order.orderId), fetches := w.fetches + 1 }
    | _ => w
  | .fetchFail =>
    match w.phase with
    | .fetching round _ _ => { w with phase := w.pauseFor round false partyCancelRetryPause }
    | _ => w
  | .fetchEnd orders =>
    match w.phase with
    | .fetching round seenEmpty _ => w.listed round seenEmpty orders
    | _ => w
  | .wake =>
    match w.phase with
    | .pause round seenEmpty _ => { w with phase := .fetch round seenEmpty }
    | _ => w
  | .cancel success gone =>
    match w.phase with
    | .cancel round orders =>
      { w with
        phase := if orders.tail = [] then nextRound round else .cancel round orders.tail
        cancelled := if success then w.cancelled + 1 else w.cancelled
        live := if gone then w.live.filter fun o => decide (orders.head?.map Order.orderId ≠ some o.orderId)
          else w.live }
    | _ => w
  | .limit => { w with phase := .ended false }
  | .again => { w with phase := .fetch 0 false, fetches := 0, cancelled := 0 }
  | .clear => { w with tracker := w.tracker.cancelAll, withdrawn := true }

/-- No submit is made while the sweep runs. A listing has every order that was live all along. -/
def Allowed : SweepEvent → Prop
  | .tick span => ∀ p ∈ w.landing, w.now + span < p.1
  | .land deadline order => (deadline, order) ∈ w.landing
  | .leave _ => True
  | .fetchBegin => ∃ round seenEmpty, w.phase = .fetch round seenEmpty
  | .fetchFail => ∃ round seenEmpty before, w.phase = .fetching round seenEmpty before
  | .fetchEnd orders => ∃ round seenEmpty before, w.phase = .fetching round seenEmpty before ∧
    ∀ o ∈ w.live, o.orderId ∈ before → o ∈ orders
  | .wake => ∃ round seenEmpty wakeAt, w.phase = .pause round seenEmpty wakeAt ∧ wakeAt ≤ w.now
  | .cancel _ _ => ∃ round orders, w.phase = .cancel round orders
  | .limit => ∀ confirmed, w.phase ≠ .ended confirmed
  | .again => w.phase = .ended false
  | .clear => w.phase = .ended true

/-- The sweep begins; a submit under way lands within the pause. -/
structure Begins : Prop where
  phase : w.phase = .fetch 0 false
  fetches : w.fetches = 0
  withdrawn : w.withdrawn = false
  landing : ∀ p ∈ w.landing, w.now < p.1 ∧ p.1 ≤ w.now + partyCancelConfirmPause

/-- No order is live, and none can land. -/
def BookEmpty : Prop := w.landing = [] ∧ w.live = []

/-- How far a sweep that began in `start` has come. -/
structure Sound (start : SweepWorld D) : Prop where
  landing : ∀ p ∈ w.landing, w.now < p.1 ∧ p.1 ≤ start.now + partyCancelConfirmPause
  now : start.now ≤ w.now
  /-- A second listing comes when every submit has landed, and misses no order that is left. -/
  pause : ∀ round wakeAt, w.phase = .pause round true wakeAt →
    start.now + partyCancelConfirmPause ≤ wakeAt
  fetch : ∀ round, w.phase = .fetch round true → start.now + partyCancelConfirmPause ≤ w.now
  listed : ∀ round before, w.phase = .fetching round true before →
    start.now + partyCancelConfirmPause ≤ w.now ∧ ∀ o ∈ w.live, o.orderId ∈ before
  ended : w.phase = .ended true → w.BookEmpty
  withdrawn : w.withdrawn = true → w.phase = .ended true
  tracked : w.withdrawn = false → ∀ id tracked, start.tracker.orders.lookup id = some tracked →
    w.tracker.orders.lookup id = some tracked

variable {w}

omit [Amount D] in
theorem counted_pauseFor {round fetches pause : Nat} {seenEmpty : Bool}
    (h : fetches = round + 1 ∧ round < partyCancelRounds) :
    (w.pauseFor round seenEmpty pause).Counted fetches := by
  unfold pauseFor
  split
  · exact ⟨h.1, by assumption⟩
  · simp only [SweepPhase.Counted]
    omega

theorem counted_nextRound {round fetches : Nat} (h : fetches = round + 1 ∧ round < partyCancelRounds) :
    (nextRound round).Counted fetches := by
  unfold nextRound
  split
  · exact ⟨h.1, by assumption⟩
  · simp only [SweepPhase.Counted]
    omega

theorem fetches_le {phase : SweepPhase} {fetches : Nat} (h : phase.Counted fetches) :
    fetches ≤ partyCancelRounds := by
  cases phase <;> simp only [SweepPhase.Counted] at h <;> omega

theorem counted_apply (h : w.phase.Counted w.fetches) {e : SweepEvent} (hallowed : w.Allowed e) :
    (w.apply e).phase.Counted (w.apply e).fetches := by
  cases e with
  | tick _ | land _ _ | leave _ | clear => exact h
  | fetchBegin =>
    obtain ⟨round, seenEmpty, hphase⟩ := hallowed
    rw [hphase] at h
    simp only [apply, hphase]
    exact ⟨congrArg (· + 1) h.1, h.2⟩
  | fetchFail =>
    obtain ⟨round, seenEmpty, before, hphase⟩ := hallowed
    rw [hphase] at h
    simp only [apply, hphase]
    exact counted_pauseFor h
  | fetchEnd orders =>
    obtain ⟨round, seenEmpty, before, hphase, -⟩ := hallowed
    rw [hphase] at h
    simp only [apply, hphase, listed]
    split
    · split
      · exact h.1 ▸ h.2
      · exact counted_pauseFor h
    · exact h
  | wake =>
    obtain ⟨round, seenEmpty, wakeAt, hphase, -⟩ := hallowed
    rw [hphase] at h
    simp only [apply, hphase]
    exact h
  | cancel success gone =>
    obtain ⟨round, orders, hphase⟩ := hallowed
    rw [hphase] at h
    simp only [apply, hphase]
    split
    · exact counted_nextRound h
    · exact h
  | limit => exact fetches_le h
  | again => exact ⟨rfl, by decide⟩

omit [Amount D] in
theorem fresh_pauseFor {round pause : Nat} : (w.pauseFor round false pause).Fresh := by
  unfold pauseFor
  split <;> exact rfl

theorem fresh_over : (SweepPhase.ended false).Fresh := rfl

theorem fresh_first : (SweepPhase.fetch 0 false).Fresh := rfl

theorem fresh_nextRound {round : Nat} : (nextRound round).Fresh := by
  unfold nextRound
  split <;> exact rfl

namespace Sound

variable {start : SweepWorld D}

omit [Amount D] in
theorem begins (h : start.Begins) : start.Sound start where
  landing := h.landing
  now := Nat.le_refl _
  pause round wakeAt hphase := absurd (h.phase.symm.trans hphase) (by simp)
  fetch round hphase := absurd (h.phase.symm.trans hphase) (by simp)
  listed round before hphase := absurd (h.phase.symm.trans hphase) (by simp)
  ended hphase := absurd (h.phase.symm.trans hphase) (by simp)
  withdrawn hcleared := absurd (h.withdrawn.symm.trans hcleared) (by simp)
  tracked _ _ _ h := h

omit [Amount D] in
/-- Every submit has landed when the pause is over. -/
theorem landed (h : w.Sound start) (hnow : start.now + partyCancelConfirmPause ≤ w.now) :
    w.landing = [] := by
  refine List.eq_nil_iff_forall_not_mem.mpr fun p hp => ?_
  obtain ⟨hahead, hsoon⟩ := h.landing p hp
  exact Nat.lt_irrefl _ (Nat.lt_of_lt_of_le hahead (Nat.le_trans hsoon hnow))

omit [Amount D] in
/-- Only the book changes: time passes, or an order leaves it. -/
theorem elapse (h : w.Sound start) {now : Instant} {live : List Order} (hnow : w.now ≤ now)
    (hlanding : ∀ p ∈ w.landing, now < p.1) (hlive : ∀ o ∈ live, o ∈ w.live) :
    Sound { w with now, live } start where
  landing p hp := ⟨hlanding p hp, (h.landing p hp).2⟩
  now := Nat.le_trans h.now hnow
  pause := h.pause
  fetch round hphase := Nat.le_trans (h.fetch round hphase) hnow
  listed round before hphase := by
    obtain ⟨hpause, hbefore⟩ := h.listed round before hphase
    exact ⟨Nat.le_trans hpause hnow, fun o ho => hbefore o (hlive o ho)⟩
  ended hphase := by
    obtain ⟨hnone, hempty⟩ := h.ended hphase
    refine ⟨hnone, List.eq_nil_iff_forall_not_mem.mpr fun o ho => ?_⟩
    simpa [hempty] using hlive o ho
  withdrawn := h.withdrawn
  tracked := h.tracked

omit [Amount D] in
/-- The sweep goes on, and what it listed counts for nothing. -/
theorem afresh (h : w.Sound start) {phase : SweepPhase} (hstill : w.phase ≠ .ended true)
    (hfresh : phase.Fresh) (fetches cancelled : Nat) :
    Sound { w with phase, fetches, cancelled } start where
  landing := h.landing
  now := h.now
  pause round wakeAt hphase := by
    rw [show phase = _ from hphase] at hfresh
    cases hfresh
  fetch round hphase := by
    rw [show phase = _ from hphase] at hfresh
    cases hfresh
  listed round before hphase := by
    rw [show phase = _ from hphase] at hfresh
    cases hfresh
  ended hphase := by
    rw [show phase = _ from hphase] at hfresh
    cases hfresh
  withdrawn hcleared := absurd (h.withdrawn hcleared) hstill
  tracked := h.tracked

/-- A step of the sweep or of the book. -/
theorem apply (h : w.Sound start) {e : SweepEvent} (hallowed : w.Allowed e) :
    (w.apply e).Sound start := by
  cases e with
  | tick span =>
    exact h.elapse (Nat.le_add_right _ _) hallowed fun _ ho => ho
  | land deadline order =>
    have hsome : w.landing ≠ [] := fun hnil => by
      have hmem : (deadline, order) ∈ w.landing := hallowed
      simp [hnil] at hmem
    have hearly : ¬ start.now + partyCancelConfirmPause ≤ w.now := fun hnow => hsome (h.landed hnow)
    exact ⟨fun p hp => h.landing p (List.mem_of_mem_erase hp), h.now, h.pause, h.fetch,
      fun round before hphase => absurd (h.listed round before hphase).1 hearly,
      fun hphase => absurd (h.ended hphase).1 hsome, h.withdrawn, h.tracked⟩
  | leave orderId =>
    exact h.elapse (Nat.le_refl _) (fun p hp => (h.landing p hp).1) fun _ ho => List.mem_of_mem_filter ho
  | fetchBegin =>
    obtain ⟨round, seenEmpty, hphase⟩ := hallowed
    simp only [SweepWorld.apply, hphase]
    refine ⟨h.landing, h.now, (fun _ _ heq => nomatch heq), (fun _ heq => nomatch heq),
      fun round' before heq => ?_, (fun heq => nomatch heq),
      (fun hcleared => nomatch (h.withdrawn hcleared).symm.trans hphase), h.tracked⟩
    obtain ⟨rfl, hseen, rfl⟩ := SweepPhase.fetching.inj heq
    exact ⟨h.fetch round (hphase.trans (by rw [hseen])), fun o ho => List.mem_map_of_mem ho⟩
  | fetchFail =>
    obtain ⟨round, seenEmpty, before, hphase⟩ := hallowed
    have hstill : w.phase ≠ .ended true := fun heq => nomatch heq.symm.trans hphase
    simp only [SweepWorld.apply, hphase]
    exact h.afresh hstill fresh_pauseFor _ _
  | fetchEnd orders =>
    obtain ⟨round, seenEmpty, before, hphase, hcomplete⟩ := hallowed
    have hstill : w.phase ≠ .ended true := fun heq => nomatch heq.symm.trans hphase
    simp only [SweepWorld.apply, hphase, SweepWorld.listed]
    split
    · rename_i hnil
      split
      · rename_i hseen
        obtain ⟨hnow, hbefore⟩ := h.listed round before (hphase.trans (by rw [hseen]))
        have hempty : w.live = [] := List.eq_nil_iff_forall_not_mem.mpr fun o ho => by
          have hin := hcomplete o ho (hbefore o ho)
          simp [hnil] at hin
        exact ⟨h.landing, h.now, (fun _ _ heq => nomatch heq), (fun _ heq => nomatch heq),
          (fun _ _ heq => nomatch heq), fun _ => ⟨h.landed hnow, hempty⟩, fun _ => rfl, h.tracked⟩
      · unfold pauseFor
        split
        · refine ⟨h.landing, h.now, fun round' wakeAt heq => ?_, (fun _ heq => nomatch heq),
            (fun _ _ heq => nomatch heq), (fun heq => nomatch heq),
            fun hcleared => absurd (h.withdrawn hcleared) hstill, h.tracked⟩
          obtain ⟨-, -, rfl⟩ := SweepPhase.pause.inj heq
          exact Nat.add_le_add_right h.now _
        · exact h.afresh hstill fresh_over _ _
    · exact ⟨h.landing, h.now, (fun _ _ heq => nomatch heq), (fun _ heq => nomatch heq),
        (fun _ _ heq => nomatch heq), (fun heq => nomatch heq),
        fun hcleared => absurd (h.withdrawn hcleared) hstill,
        fun hcleared id tracked htracked =>
          OrderTracker.lookup_adoptListed (h.tracked hcleared id tracked htracked)⟩
  | wake =>
    obtain ⟨round, seenEmpty, wakeAt, hphase, hwake⟩ := hallowed
    have hstill : w.phase ≠ .ended true := fun heq => nomatch heq.symm.trans hphase
    simp only [SweepWorld.apply, hphase]
    refine ⟨h.landing, h.now, (fun _ _ heq => nomatch heq), fun round' heq => ?_,
      (fun _ _ heq => nomatch heq), (fun heq => nomatch heq),
      fun hcleared => absurd (h.withdrawn hcleared) hstill, h.tracked⟩
    obtain ⟨rfl, hseen⟩ := SweepPhase.fetch.inj heq
    exact Nat.le_trans (h.pause round wakeAt (hphase.trans (by rw [hseen]))) hwake
  | cancel success gone =>
    obtain ⟨round, orders, hphase⟩ := hallowed
    have hstill : w.phase ≠ .ended true := fun heq => nomatch heq.symm.trans hphase
    have hleft : ∀ o ∈ if gone then w.live.filter (fun o =>
        decide (orders.head?.map Order.orderId ≠ some o.orderId)) else w.live, o ∈ w.live := fun o ho => by
      split at ho
      · exact List.mem_of_mem_filter ho
      · exact ho
    have hbook := h.elapse (Nat.le_refl _) (fun p hp => (h.landing p hp).1) hleft
    simp only [SweepWorld.apply, hphase]
    refine hbook.afresh hstill ?_ _ _
    split
    · exact fresh_nextRound
    · exact trivial
  | limit => exact h.afresh (hallowed true) fresh_over _ _
  | again => exact h.afresh (fun heq => nomatch heq.symm.trans hallowed) fresh_first _ _
  | clear =>
    exact ⟨h.landing, h.now, h.pause, h.fetch, h.listed, h.ended, fun _ => hallowed,
      fun hcleared => nomatch hcleared⟩

end Sound

/-- However listings and cancels fail, submits made before the sweep land, and orders leave the book:
the sweep ends confirmed, and the tracker is cleared, only when no order is live and none can land, so
no live order is ever forgotten; until then what is tracked stays as it was; and no sweep lists the
party's orders more than `PARTY_CANCEL_ROUNDS` times. -/
theorem confirmed_is_empty {start : SweepWorld D} (hstart : start.Begins)
    (run : Reachable Allowed apply start w) :
    (w.phase = .ended true ∨ w.withdrawn = true → w.landing = [] ∧ w.live = []) ∧
      (w.withdrawn = false → ∀ id tracked, start.tracker.orders.lookup id = some tracked →
        w.tracker.orders.lookup id = some tracked) ∧
      w.fetches ≤ partyCancelRounds := by
  have sound : w.Sound start := run.invariant (fun w => w.Sound start) (Sound.begins hstart)
    fun _ _ hinv hallowed => hinv.apply hallowed
  have counted : w.phase.Counted w.fetches := by
    refine run.invariant (fun w => w.phase.Counted w.fetches) ?_ fun _ _ hinv hallowed =>
      counted_apply hinv hallowed
    rw [hstart.phase, hstart.fetches]
    exact ⟨rfl, by decide⟩
  refine ⟨fun hover => ?_, sound.tracked, fetches_le counted⟩
  rcases hover with hover | hcleared
  · exact sound.ended hover
  · exact sound.ended (sound.withdrawn hcleared)

end SweepWorld

section Example

namespace SweepWorld

def restingBid (orderId : Nat) : Order :=
  ⟨orderId, "CC-USDC", 1, "1", "10", "0", "0", none, [], orderId⟩

/-- One order is live, and one was submitted just before the sweep. -/
def beforeSweep : SweepWorld Int where
  now := 0
  live := [restingBid 1]
  landing := [(seconds 1, restingBid 2)]
  phase := .fetch 0 false
  fetches := 0
  cancelled := 0
  tracker := (OrderTracker.new 0 (.error "")).trackOrder 1 "CC-USDC" 1 "1" "10" 1 "" []
  withdrawn := false

/-- The second order lands after the first empty listing; the sweep goes on until two are empty. -/
def lateOrder : List SweepEvent :=
  [.fetchBegin, .fetchEnd [restingBid 1], .cancel true true, .fetchBegin, .fetchEnd [],
    .land (seconds 1) (restingBid 2), .tick (seconds 1), .wake, .fetchBegin, .fetchEnd [restingBid 2],
    .cancel true true, .fetchBegin, .fetchEnd [], .tick (seconds 1), .wake, .fetchBegin, .fetchEnd [], .clear]

theorem lateOrder_begins : beforeSweep.Begins where
  phase := rfl
  fetches := rfl
  withdrawn := rfl
  landing := by decide +kernel

theorem lateOrder_run : Reachable Allowed apply beforeSweep (lateOrder.foldl apply beforeSweep) :=
  Reachable.start.foldl ⟨⟨_, _, rfl⟩, ⟨_, _, _, rfl, by decide⟩, ⟨_, _, rfl⟩, ⟨_, _, rfl⟩,
    ⟨_, _, _, rfl, by decide⟩, List.mem_singleton_self _, (fun _ hp => nomatch hp),
    ⟨_, _, _, rfl, by decide +kernel⟩, ⟨_, _, rfl⟩, ⟨_, _, _, rfl, by decide⟩, ⟨_, _, rfl⟩,
    ⟨_, _, rfl⟩, ⟨_, _, _, rfl, by decide⟩, (fun _ hp => nomatch hp),
    ⟨_, _, _, rfl, by decide +kernel⟩, ⟨_, _, rfl⟩, ⟨_, _, _, rfl, by decide⟩, rfl, trivial⟩

theorem lateOrder_withdrawn :
    let w := lateOrder.foldl apply beforeSweep
    (w.phase = .ended true ∨ w.withdrawn = true → w.landing = [] ∧ w.live = []) ∧
      (w.withdrawn = false → ∀ id tracked, beforeSweep.tracker.orders.lookup id = some tracked →
        w.tracker.orders.lookup id = some tracked) ∧
      w.fetches ≤ partyCancelRounds :=
  confirmed_is_empty lateOrder_begins lateOrder_run

/-- The run ends with the tracker cleared. -/
example : (lateOrder.foldl apply beforeSweep).withdrawn = true := rfl

end SweepWorld

end Example

end BookAgent.AgentLogic
