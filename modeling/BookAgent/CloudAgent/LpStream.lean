import BookAgent.CloudAgent.DvpGc
import BookAgent.CloudAgent.RfqV2
import BookAgent.Lib.Run
import BookAgent.Lib.Text

/-!
# The atomic RFQ stream

`lp_stream.rs`: one connected session of the LP. The loop answers requests for quotes one by one, and
sends heartbeats; every confirm is answered by a task of its own, and expired quotes are swept by another.
All share the outbound queue and its sequence numbers.
-/

namespace BookAgent.CloudAgent

open BookAgent.Lib BookAgent.AgentLogic

/-! ## Answers -/

structure AtomicRfqRequest where
  rfqId : String
  marketId : String
  direction : String
  quantity : String
  settlementFee : Option AtomicFeeSpec
  quoteQuantity : Option String
  quoteIdPrefix : Option String
  venueName : Option String
  venueBranch : Option String
  userParty : Option String
  deriving DecidableEq

structure AtomicRfqQuote where
  rfqId : String
  quoteId : String
  marketId : String
  direction : String
  price : String
  quantity : String
  quoteQuantity : String
  validForSecs : Nat
  /-- In seconds since the epoch. -/
  validUntil : Int
  lpPartyId : String
  lpName : String
  quotedAt : Int
  settlementFee : Option AtomicFeeSpec
  deriving DecidableEq

structure AtomicRfqReject where
  rfqId : String
  marketId : String
  reason : String
  lpPartyId : String
  minQuantity : String
  maxQuantity : String
  deriving DecidableEq

/-- A message to the server; `E` is the envelope of a confirmed quote. -/
inductive LpMessage (E : Type)
  | handshake (partyIds : List String) (lpName agentVersion : String) (marketIds : List String)
  | heartbeat
  | quote (q : AtomicRfqQuote)
  | reject (r : AtomicRfqReject)
  | envelope (e : E)
  | confirmReject (r : RfqConfirmReject)

structure AtomicCtx where
  partyId : String
  lpName : String

/-- What the calls made for one request return. -/
structure AnswerCalls (D : Type) where
  quotable : String → Bool
  priceRfq : PriceRequest → Except RejectInfo (RfqHandler.PricedQuote D)
  uuidV7 : Option String
  registerIndicative : String → QuoteSide → RfqHandler.PricedQuote D → Except String Unit
  /-- The pricing ended within its time. -/
  inTime : Bool
  nowSecs : Int

/-- `{:?}` of a reason. -/
def RfqRejectionReason.debug : RfqRejectionReason → String
  | .unspecified => "Unspecified"
  | .marketNotSupported => "MarketNotSupported"
  | .amountTooSmall => "AmountTooSmall"
  | .amountTooLarge => "AmountTooLarge"
  | .temporarilyUnavailable => "TemporarilyUnavailable"
  | .marketConditions => "MarketConditions"

def nonEmpty (s : Option String) : Option String := s.filter fun s => decide (s ≠ "")

section Answer

variable {D E : Type} (ctx : AtomicCtx) (request : AtomicRfqRequest) (a : AnswerCalls D)

def atomicReject (reason min max : String) : LpMessage E :=
  .reject ⟨request.rfqId, request.marketId, reason, ctx.partyId, min, max⟩

def quoteId (id : String) : String :=
  (nonEmpty request.quoteIdPrefix).elim id fun attribution => attribution ++ "-" ++ id

def atomicQuote (id : String) (priced : RfqHandler.PricedQuote D) : LpMessage E :=
  .quote
    { rfqId := request.rfqId
      quoteId := quoteId request id
      marketId := request.marketId
      direction := request.direction
      price := priced.priceStr
      quantity := priced.quantityStr
      quoteQuantity := priced.quoteQuantityStr
      validForSecs := priced.validForSecs
      validUntil := clampI64 (a.nowSecs + priced.validForSecs)
      lpPartyId := ctx.partyId
      lpName := ctx.lpName
      quotedAt := a.nowSecs
      settlementFee := request.settlementFee }

/-- The request as the shared pricing reads it; there is no floor on the notional. -/
def priceRequest (direction : Int) : PriceRequest where
  marketId := request.marketId
  direction
  quantity := request.quantity
  quoteQuantity := request.quoteQuantity.getD ""
  enforceMinNotional := false
  venue := (nonEmpty request.venueName).or (nonEmpty request.quoteIdPrefix)
  venueBranch := nonEmpty request.venueBranch
  userParty := nonEmpty request.userParty

def priceAtomicRfq (direction : Int) : LpMessage E :=
  match a.priceRfq (priceRequest request direction) with
  | .error r =>
    atomicReject ctx request (r.reasonDetail.getD r.reason.debug) (r.minQuantity.getD "")
      (r.maxQuantity.getD "")
  | .ok priced =>
    a.uuidV7.elim (atomicReject ctx request "temporarily unavailable" "" "") fun id =>
      match a.registerIndicative (quoteId request id) (if direction = 1 then .buy else .sell) priced with
      | .error e => atomicReject ctx request e "" ""
      | .ok () => atomicQuote ctx request a id priced

/-- Indicative quote or reject for one request. -/
def answerAtomicRfq : LpMessage E :=
  let priced (direction : Int) : LpMessage E :=
    if a.quotable request.marketId = false then
      atomicReject ctx request "market not available for atomic RFQ" "" ""
    else if a.inTime then priceAtomicRfq ctx request a direction
    else atomicReject ctx request "temporarily unavailable" "" ""
  if lowerCase request.direction = "buy" then priced 1
  else if lowerCase request.direction = "sell" then priced 2
  else atomicReject ctx request ("invalid direction '" ++ request.direction ++ "'") "" ""

/-- The message answers the request: a reject of it, or a quote in a quotable market that echoes its
fee, under an id that carries its prefix. -/
inductive Answers : LpMessage E → Prop
  | reject (r : AtomicRfqReject) (hrfq : r.rfqId = request.rfqId) (hmarket : r.marketId = request.marketId)
    (hparty : r.lpPartyId = ctx.partyId) : Answers (.reject r)
  | quote (q : AtomicRfqQuote) (id : String) (hrfq : q.rfqId = request.rfqId)
    (hmarket : q.marketId = request.marketId) (hdirection : q.direction = request.direction)
    (hfee : q.settlementFee = request.settlementFee) (hparty : q.lpPartyId = ctx.partyId)
    (hid : q.quoteId = quoteId request id) : Answers (.quote q)

variable {ctx request a}

theorem answers_atomicReject (reason min max : String) :
    Answers ctx request (atomicReject ctx request reason min max : LpMessage E) :=
  .reject _ rfl rfl rfl

theorem answers_priceAtomicRfq {direction : Int} :
    Answers ctx request (priceAtomicRfq ctx request a direction : LpMessage E) := by
  unfold priceAtomicRfq
  split
  · exact answers_atomicReject ..
  · cases a.uuidV7 with
    | none => exact answers_atomicReject ..
    | some id =>
      simp only [Option.elim_some]
      split
      · exact answers_atomicReject ..
      · exact .quote _ id rfl rfl rfl rfl rfl rfl

theorem answers_answerAtomicRfq : Answers ctx request (answerAtomicRfq ctx request a : LpMessage E) := by
  have priced : ∀ direction, Answers ctx request
      (if a.quotable request.marketId = false then
        atomicReject ctx request "market not available for atomic RFQ" "" ""
      else if a.inTime then priceAtomicRfq ctx request a direction
      else atomicReject ctx request "temporarily unavailable" "" "" : LpMessage E) := by
    intro direction
    split
    · exact answers_atomicReject ..
    · split
      · exact answers_priceAtomicRfq
      · exact answers_atomicReject ..
  unfold answerAtomicRfq
  dsimp only
  split
  · exact priced 1
  · split
    · exact priced 2
    · exact answers_atomicReject ..

end Answer

/-! ## The session -/

/-- `OUTBOUND_CAPACITY` -/
def outboundCapacity : Nat := 64

structure Timing where
  send : Nat
  idle : Nat

inductive SessionEnd
  | shutdown
  | ended
  | failed
  | sendFailed
  | idle
  deriving DecidableEq

/-- What a message was queued for: requests and confirms are numbered as they come. -/
inductive Origin
  | handshake
  | heartbeat
  | rfq (i : Nat)
  | confirm (i : Nat)
  deriving DecidableEq

structure Outbound (E : Type) where
  /-- The value of the counter; the message has it modulo `2^64`. -/
  no : Nat
  origin : Origin
  message : LpMessage E

inductive SessionLoop (E : Type)
  | waiting
  /-- The last request is being priced. -/
  | pricing
  | sending (no : Nat) (message : LpMessage E) (deadline : Nat)
  | stopped (why : SessionEnd)

inductive ConfirmPhase (E : Type)
  | absent
  | handling (req : RfqConfirmRequest)
  | sending (no : Nat) (message : LpMessage E) (deadline : Nat)
  | queued (message : LpMessage E)
  /-- Its answer could not be queued. -/
  | lost

/-- The number it waits to queue. -/
def SessionLoop.no {E : Type} : SessionLoop E → Option Nat
  | .sending no _ _ => some no
  | _ => none

def ConfirmPhase.no {E : Type} : ConfirmPhase E → Option Nat
  | .sending no _ _ => some no
  | _ => none

def ConfirmPhase.isQueued {E : Type} : ConfirmPhase E → Bool
  | .queued _ => true
  | _ => false

/-- The request it answers. -/
def Outbound.rfq? {E : Type} (o : Outbound E) : Option Nat :=
  match o.origin with
  | .rfq i => some i
  | _ => none

/-- So many requests were read and not answered. -/
def SessionLoop.Behind {E : Type} : SessionLoop E → Nat → Prop
  | .waiting, n => n = 0
  | .pricing, n | .sending .., n => n = 1
  | .stopped _, n => n ≤ 1

/-- The answer to a confirm; its handler may have failed. -/
def confirmMessage {E : Type} (req : RfqConfirmRequest) :
    Option (Except RfqConfirmReject E) → LpMessage E
  | none => .confirmReject ⟨req.rfqId, req.quoteId, .internalError, "confirm failed"⟩
  | some (.ok envelope) => .envelope envelope
  | some (.error r) => .confirmReject r

structure AtomicSession (E : Type) where
  now : Nat
  shutdown : Bool
  /-- The counter of the sequence numbers. -/
  seq : Nat
  /-- Every message that was queued, and how many of them the transport took. -/
  sent : List (Outbound E)
  taken : Nat
  /-- The transport receives no more. -/
  closed : Bool
  rfqs : List AtomicRfqRequest
  loop : SessionLoop E
  /-- The number of confirms that came. -/
  arrived : Nat
  confirms : Nat → ConfirmPhase E
  sendFailed : Bool
  sweepRunning : Bool
  sweeps : Nat
  armed : Bool
  idleAt : Nat

inductive SessionEvent (D E : Type)
  | tick (span : Nat)
  | signalShutdown
  | heartbeat
  | sweepTick
  | sweepDone
  | recvRfq (request : AtomicRfqRequest)
  | recvConfirm (req : RfqConfirmRequest)
  | recvHeartbeat
  | recvOther
  | recvEnd (failed : Bool)
  /-- The request was priced, or its time is over. -/
  | answer (a : AnswerCalls D)
  | queue
  | queueFailed
  | confirmed (i : Nat) (outcome : Option (Except RfqConfirmReject E))
  | queueConfirm (i : Nat)
  | loseConfirm (i : Nat)
  | sawShutdown
  | sawSendFailed
  | idle
  | take
  | close

namespace AtomicSession

variable {D E : Type} (ctx : AtomicCtx) (timing : Timing) (w : AtomicSession E)

/-- The stream is open, and the handshake is queued. The flag of the sweep outlives a session. -/
def opened (agentVersion : String) (marketIds : List String) (sweepRunning : Bool) (now : Nat) :
    AtomicSession E where
  now
  shutdown := false
  seq := 0
  sent := [⟨0, .handshake, .handshake [ctx.partyId] ctx.lpName agentVersion marketIds⟩]
  taken := 0
  closed := false
  rfqs := []
  loop := .waiting
  arrived := 0
  confirms := fun _ => .absent
  sendFailed := false
  sweepRunning
  sweeps := if sweepRunning then 1 else 0
  armed := false
  idleAt := now + timing.idle

/-- The queue has room, and is received from. -/
def Room : Prop := w.sent.length < w.taken + outboundCapacity ∧ w.closed = false

instance : Decidable w.Room := inferInstanceAs (Decidable (_ ∧ _))

def push (no : Nat) (origin : Origin) (message : LpMessage E) : AtomicSession E :=
  { w with sent := w.sent ++ [⟨no, origin, message⟩] }

def setConfirm (i : Nat) (phase : ConfirmPhase E) : AtomicSession E :=
  { w with confirms := Function.update w.confirms i phase }

/-- Any message restarts the window of the watchdog; a heartbeat also arms it. -/
def heard (serverHeartbeat : Bool) : AtomicSession E :=
  { w with armed := w.armed || serverHeartbeat, idleAt := w.now + timing.idle }

def stop (why : SessionEnd) : AtomicSession E := { w with loop := .stopped why }

def apply : SessionEvent D E → AtomicSession E
  | .tick span => { w with now := w.now + span }
  | .signalShutdown => { w with shutdown := true }
  | .heartbeat =>
    let w := { w with seq := w.seq + 1 }
    if w.Room then w.push w.seq .heartbeat .heartbeat else w.stop .sendFailed
  | .sweepTick =>
    if w.sweepRunning then w else { w with sweepRunning := true, sweeps := w.sweeps + 1 }
  | .sweepDone => { w with sweepRunning := false, sweeps := w.sweeps - 1 }
  | .recvRfq request =>
    let w := w.heard timing false
    if w.shutdown then w.stop .shutdown
    else { w with rfqs := w.rfqs ++ [request], loop := .pricing }
  | .recvConfirm req =>
    let w := w.heard timing false
    { w.setConfirm w.arrived (.handling req) with arrived := w.arrived + 1 }
  | .recvHeartbeat => w.heard timing true
  | .recvOther => w.heard timing false
  | .recvEnd failed => w.stop (if failed then .failed else .ended)
  | .answer a =>
    w.rfqs.getLast?.elim w fun request =>
      { w with seq := w.seq + 1,
               loop := .sending (w.seq + 1) (answerAtomicRfq ctx request a) (w.now + timing.send) }
  | .queue =>
    match w.loop with
    | .sending no message _ =>
      { w.push no (.rfq (w.rfqs.length - 1)) message with loop := .waiting }
    | _ => w
  | .queueFailed => w.stop .sendFailed
  | .confirmed i outcome =>
    match w.confirms i with
    | .handling req =>
      { w with seq := w.seq + 1 }.setConfirm i
        (.sending (w.seq + 1) (confirmMessage req outcome) (w.now + timing.send))
    | _ => w
  | .queueConfirm i =>
    match w.confirms i with
    | .sending no message _ => (w.push no (.confirm i) message).setConfirm i (.queued message)
    | _ => w
  | .loseConfirm i => { w.setConfirm i .lost with sendFailed := true }
  | .sawShutdown => w.stop .shutdown
  | .sawSendFailed => { w.stop .sendFailed with sendFailed := false }
  | .idle => w.stop .idle
  | .take => { w with taken := w.taken + 1 }
  | .close => { w with closed := true }

/-- Where the loop or a task is for a step to come. A confirm goes on after the session is over. -/
def Allowed : SessionEvent D E → Prop
  | .tick _ | .signalShutdown | .close => True
  | .heartbeat | .sweepTick | .recvRfq _ | .recvConfirm _ | .recvHeartbeat | .recvOther | .recvEnd _ =>
    w.loop = .waiting
  | .sweepDone => 0 < w.sweeps
  | .answer _ => w.loop = .pricing
  | .queue => (∃ no message deadline, w.loop = .sending no message deadline) ∧ w.Room
  | .queueFailed => ∃ no message deadline, w.loop = .sending no message deadline ∧
    (deadline ≤ w.now ∨ w.closed = true)
  | .confirmed i _ => ∃ req, w.confirms i = .handling req
  | .queueConfirm i => (∃ no message deadline, w.confirms i = .sending no message deadline) ∧ w.Room
  | .loseConfirm i => ∃ no message deadline, w.confirms i = .sending no message deadline ∧
    (deadline ≤ w.now ∨ w.closed = true)
  | .sawShutdown => w.loop = .waiting ∧ w.shutdown = true
  | .sawSendFailed => w.loop = .waiting ∧ w.sendFailed = true
  | .idle => w.loop = .waiting ∧ w.armed = true ∧ w.idleAt ≤ w.now
  | .take => w.taken < w.sent.length

variable {ctx timing w} {w' : AtomicSession E}

/-! ### Sequence numbers -/

/-- The number with which the loop, or the task of a confirm, waits to queue its answer. -/
def pending (w : AtomicSession E) : Option Nat → Option Nat
  | none => w.loop.no
  | some i => (w.confirms i).no

/-- No number is used twice. -/
structure Numbered (w : AtomicSession E) : Prop where
  sent : ∀ o ∈ w.sent, o.no ≤ w.seq
  distinct : (w.sent.map Outbound.no).Nodup
  pending : ∀ task n, w.pending task = some n → n ≤ w.seq ∧ ∀ o ∈ w.sent, o.no ≠ n
  apart : ∀ task task' n, task ≠ task' → w.pending task = some n → w.pending task' ≠ some n

namespace Numbered

/-- No number is drawn, and none is queued. -/
theorem still (h : w.Numbered) (hsent : w'.sent = w.sent) (hseq : w'.seq = w.seq)
    (hpending : ∀ task n, w'.pending task = some n → w.pending task = some n) : w'.Numbered where
  sent o ho := by
    rw [hsent] at ho
    exact hseq ▸ h.sent o ho
  distinct := hsent ▸ h.distinct
  pending task n htask := by
    rw [hsent, hseq]
    exact h.pending task n (hpending task n htask)
  apart task task' n hne htask htask' :=
    h.apart task task' n hne (hpending task n htask) (hpending task' n htask')

/-- A number is drawn for nothing. -/
theorem raise (h : w.Numbered) : Numbered { w with seq := w.seq + 1 } where
  sent o ho := Nat.le_succ_of_le (h.sent o ho)
  distinct := h.distinct
  pending task n htask :=
    ⟨Nat.le_succ_of_le (h.pending task n htask).1, (h.pending task n htask).2⟩
  apart := h.apart

/-- A task draws the next number. -/
theorem draw (h : w.Numbered) (task : Option Nat) (hsent : w'.sent = w.sent)
    (hseq : w'.seq = w.seq + 1) (htask : w'.pending task = some (w.seq + 1))
    (hothers : ∀ other ≠ task, w'.pending other = w.pending other) : w'.Numbered where
  sent o ho := by
    rw [hsent] at ho
    rw [hseq]
    exact Nat.le_succ_of_le (h.sent o ho)
  distinct := hsent ▸ h.distinct
  pending other n hother := by
    rw [hsent, hseq]
    by_cases heq : other = task
    · rw [heq, htask] at hother
      obtain rfl := Option.some.inj hother
      refine ⟨Nat.le_refl _, fun o ho => ?_⟩
      have hle := h.sent o ho
      omega
    · obtain ⟨hle, hfresh⟩ := h.pending other n (hothers other heq ▸ hother)
      exact ⟨Nat.le_succ_of_le hle, hfresh⟩
  apart one other n hne hone hother := by
    have hbelow : ∀ t ≠ task, w'.pending t = some n → n ≤ w.seq := fun t ht hn =>
      (h.pending t n (hothers t ht ▸ hn)).1
    by_cases heq : one = task
    · have hle := hbelow other (fun heq' => hne (heq.trans heq'.symm)) hother
      rw [heq, htask] at hone
      have hn := Option.some.inj hone
      omega
    · by_cases heq' : other = task
      · have hle := hbelow one heq hone
        rw [heq', htask] at hother
        have hn := Option.some.inj hother
        omega
      · exact h.apart one other n hne (hothers one heq ▸ hone) (hothers other heq' ▸ hother)

/-- A number that no task holds is queued. -/
theorem push (h : w.Numbered) {n : Nat} {origin : Origin} {message : LpMessage E}
    (hsent : w'.sent = w.sent ++ [⟨n, origin, message⟩]) (hseq : w.seq ≤ w'.seq) (hn : n ≤ w'.seq)
    (hfresh : ∀ o ∈ w.sent, o.no ≠ n)
    (hpending : ∀ task m, w'.pending task = some m → w.pending task = some m ∧ m ≠ n) :
    w'.Numbered where
  sent o ho := by
    rw [hsent] at ho
    rcases List.mem_append.mp ho with ho | ho
    · exact Nat.le_trans (h.sent o ho) hseq
    · rw [List.mem_singleton.mp ho]
      exact hn
  distinct := by
    rw [hsent, List.map_append, List.map_singleton, List.nodup_append]
    refine ⟨h.distinct, List.nodup_singleton _, fun m hm m' hm' => ?_⟩
    obtain ⟨o, ho, rfl⟩ := List.mem_map.mp hm
    rw [List.mem_singleton.mp hm']
    exact hfresh o ho
  pending task m htask := by
    obtain ⟨hold, hne⟩ := hpending task m htask
    obtain ⟨hle, hall⟩ := h.pending task m hold
    refine ⟨Nat.le_trans hle hseq, fun o ho => ?_⟩
    rw [hsent] at ho
    rcases List.mem_append.mp ho with ho | ho
    · exact hall o ho
    · rw [List.mem_singleton.mp ho]
      exact hne.symm
  apart task task' m hne htask htask' :=
    h.apart task task' m hne (hpending task m htask).1 (hpending task' m htask').1

/-- The loop ends. -/
theorem stop (h : w.Numbered) (why : SessionEnd) : (w.stop why).Numbered :=
  h.still rfl rfl fun task n htask => by
    cases task with
    | none => cases htask
    | some i => exact htask

/-- A step that may come. -/
theorem apply (h : w.Numbered) {e : SessionEvent D E} (hallowed : w.Allowed e) :
    (w.apply ctx timing e).Numbered := by
  cases e with
  | tick _ | signalShutdown | sweepDone | recvHeartbeat | recvOther | take | close =>
    exact h.still rfl rfl fun _ _ htask => htask
  | recvEnd _ | queueFailed | sawShutdown | idle => exact h.stop _
  | sawSendFailed =>
    exact (h.stop _).still rfl rfl fun _ _ htask => htask
  | heartbeat =>
    have hwaiting : w.loop = .waiting := hallowed
    simp only [AtomicSession.apply]
    split
    · refine h.push rfl (Nat.le_succ _) (Nat.le_refl _) (fun o ho => ?_) fun task n htask => ?_
      · have hle := h.sent o ho
        omega
      · have hle := (h.pending task n htask).1
        exact ⟨htask, by omega⟩
    · refine (Numbered.raise h).stop _
  | sweepTick =>
    simp only [AtomicSession.apply]
    split
    · exact h
    · exact h.still rfl rfl fun _ _ htask => htask
  | recvRfq request =>
    simp only [AtomicSession.apply]
    split
    · exact (h.stop _).still rfl rfl fun _ _ htask => htask
    · refine h.still rfl rfl fun task n htask => ?_
      cases task with
      | none => cases htask
      | some i => exact htask
  | recvConfirm req =>
    refine h.still rfl rfl fun task n htask => ?_
    cases task with
    | none => exact htask
    | some i =>
      by_cases heq : i = w.arrived
      · rw [heq] at htask
        simp [AtomicSession.apply, AtomicSession.pending, setConfirm, heard, ConfirmPhase.no] at htask
      · simpa [AtomicSession.apply, AtomicSession.pending, setConfirm, heard, heq] using htask
  | answer a =>
    have hloop : w.loop = .pricing := hallowed
    simp only [AtomicSession.apply]
    cases w.rfqs.getLast? with
    | none => exact h
    | some request =>
      refine h.draw none rfl rfl rfl fun other hne => ?_
      cases other with
      | none => exact absurd rfl hne
      | some i => rfl
  | queue =>
    obtain ⟨⟨no, message, deadline, hloop⟩, -⟩ := hallowed
    have hpending : w.pending none = some no := by simp only [AtomicSession.pending, hloop, SessionLoop.no]
    obtain ⟨hle, hfresh⟩ := h.pending none no hpending
    simp only [AtomicSession.apply, hloop]
    refine h.push rfl (Nat.le_refl _) hle hfresh fun task m htask => ?_
    cases task with
    | none => cases htask
    | some i =>
      refine ⟨htask, fun heq => ?_⟩
      exact h.apart none (some i) no (by simp) hpending (heq ▸ htask)
  | confirmed i outcome =>
    obtain ⟨req, hphase⟩ := hallowed
    simp only [AtomicSession.apply, hphase]
    refine h.draw (some i) rfl rfl ?_ fun other hne => ?_
    · simp [AtomicSession.pending, setConfirm, ConfirmPhase.no]
    · cases other with
      | none => rfl
      | some j =>
        have hj : j ≠ i := fun heq => hne (congrArg some heq)
        simp [AtomicSession.pending, setConfirm, hj]
  | queueConfirm i =>
    obtain ⟨⟨no, message, deadline, hphase⟩, -⟩ := hallowed
    have hpending : w.pending (some i) = some no := by
      simp only [AtomicSession.pending, hphase, ConfirmPhase.no]
    obtain ⟨hle, hfresh⟩ := h.pending (some i) no hpending
    simp only [AtomicSession.apply, hphase]
    refine h.push rfl (Nat.le_refl _) hle hfresh fun task m htask => ?_
    have hne : task ≠ some i := fun heq => by
      rw [heq] at htask
      simp [AtomicSession.pending, setConfirm, ConfirmPhase.no] at htask
    have hold : w.pending task = some m := by
      cases task with
      | none => exact htask
      | some j =>
        have hj : j ≠ i := fun heq => hne (congrArg some heq)
        simpa [AtomicSession.pending, setConfirm, AtomicSession.push, hj] using htask
    refine ⟨hold, fun heq => ?_⟩
    exact h.apart (some i) task no hne.symm hpending (heq ▸ hold)
  | loseConfirm i =>
    refine h.still rfl rfl fun task n htask => ?_
    cases task with
    | none => exact htask
    | some j =>
      by_cases heq : j = i
      · rw [heq] at htask
        simp [AtomicSession.apply, AtomicSession.pending, setConfirm, ConfirmPhase.no] at htask
      · simpa [AtomicSession.apply, AtomicSession.pending, setConfirm, heq] using htask

end Numbered

/-! ### Requests for quotes -/

/-- The requests were answered in order, each once, with an answer to it. -/
structure RfqsAnswered (ctx : AtomicCtx) (w : AtomicSession E) : Prop where
  order : ∃ k n, w.sent.filterMap Outbound.rfq? = List.range k ∧ w.rfqs.length = k + n ∧
    w.loop.Behind n
  current : ∀ no message deadline, w.loop = .sending no message deadline →
    ∃ request, w.rfqs.getLast? = some request ∧ Answers ctx request message
  content : ∀ o ∈ w.sent, ∀ i, o.origin = .rfq i →
    ∃ request, w.rfqs[i]? = some request ∧ Answers ctx request o.message

namespace RfqsAnswered

theorem still (h : w.RfqsAnswered ctx) (hsent : w'.sent = w.sent) (hrfqs : w'.rfqs = w.rfqs)
    (hloop : w'.loop = w.loop) : w'.RfqsAnswered ctx where
  order := by
    rw [hsent, hrfqs, hloop]
    exact h.order
  current := by
    rw [hrfqs, hloop]
    exact h.current
  content := by
    rw [hsent, hrfqs]
    exact h.content

theorem stop (h : w.RfqsAnswered ctx) (why : SessionEnd) : (w.stop why).RfqsAnswered ctx where
  order := by
    obtain ⟨k, n, hsent, hlength, hbehind⟩ := h.order
    refine ⟨k, n, hsent, hlength, ?_⟩
    cases hloop : w.loop <;> simp only [hloop, SessionLoop.Behind] at hbehind <;>
      simp only [AtomicSession.stop, SessionLoop.Behind] <;> omega
  current _ _ _ hloop := nomatch hloop
  content := h.content

/-- A message that answers no request is queued. -/
theorem push (h : w.RfqsAnswered ctx) {no : Nat} {origin : Origin} {message : LpMessage E}
    (horigin : ∀ i, origin ≠ .rfq i) : (w.push no origin message).RfqsAnswered ctx where
  order := by
    obtain ⟨k, n, hsent, hlength, hbehind⟩ := h.order
    refine ⟨k, n, ?_, hlength, hbehind⟩
    have hnone : Outbound.rfq? ⟨no, origin, message⟩ = none := by
      cases origin with
      | rfq i => exact absurd rfl (horigin i)
      | handshake | heartbeat | confirm _ => rfl
    simp [AtomicSession.push, List.filterMap_append, hsent, hnone]
  current := h.current
  content o ho i hi := by
    rcases List.mem_append.mp ho with ho | ho
    · exact h.content o ho i hi
    · rw [List.mem_singleton.mp ho] at hi
      exact absurd hi (horigin i)

theorem apply (h : w.RfqsAnswered ctx) {e : SessionEvent D E} (hallowed : w.Allowed e) :
    (w.apply ctx timing e).RfqsAnswered ctx := by
  cases e with
  | tick _ | signalShutdown | sweepDone | recvHeartbeat | recvOther | take | close | recvConfirm _
  | loseConfirm _ => exact h.still rfl rfl rfl
  | recvEnd _ | queueFailed | sawShutdown | idle => exact h.stop _
  | sawSendFailed => exact (h.stop _).still rfl rfl rfl
  | sweepTick =>
    simp only [AtomicSession.apply]
    split
    · exact h
    · exact h.still rfl rfl rfl
  | heartbeat =>
    have hraised : RfqsAnswered ctx { w with seq := w.seq + 1 } := h.still rfl rfl rfl
    simp only [AtomicSession.apply]
    split
    · exact hraised.push fun i => by simp
    · exact hraised.stop _
  | recvRfq request =>
    have hwaiting : w.loop = .waiting := hallowed
    simp only [AtomicSession.apply]
    split
    · exact (h.stop _).still rfl rfl rfl
    · obtain ⟨k, n, hsent, hlength, hbehind⟩ := h.order
      rw [hwaiting] at hbehind
      refine ⟨⟨k, 1, hsent, ?_, rfl⟩, fun _ _ _ hloop => (nomatch hloop), fun o ho i hi => ?_⟩
      · have hzero : n = 0 := hbehind
        simp [heard, hlength, hzero]
      · obtain ⟨request', hget, hanswers⟩ := h.content o ho i hi
        have hlt : i < w.rfqs.length := (List.getElem?_eq_some_iff.mp hget).1
        exact ⟨request', (List.getElem?_append_left hlt).trans hget, hanswers⟩
  | answer a =>
    have hpricing : w.loop = .pricing := hallowed
    simp only [AtomicSession.apply]
    rcases hlast : w.rfqs.getLast? with _ | request
    · exact h
    · obtain ⟨k, n, hsent, hlength, hbehind⟩ := h.order
      rw [hpricing] at hbehind
      refine ⟨⟨k, n, hsent, hlength, hbehind⟩, fun no message deadline hloop => ?_, h.content⟩
      obtain ⟨-, rfl, -⟩ := SessionLoop.sending.inj hloop
      exact ⟨request, hlast, answers_answerAtomicRfq⟩
  | queue =>
    obtain ⟨⟨no, message, deadline, hloop⟩, -⟩ := hallowed
    obtain ⟨k, n, hsent, hlength, hbehind⟩ := h.order
    obtain ⟨request, hlast, hanswers⟩ := h.current no message deadline hloop
    rw [hloop] at hbehind
    have hone : n = 1 := hbehind
    simp only [AtomicSession.apply, hloop]
    refine ⟨⟨k + 1, 0, ?_, by simp [AtomicSession.push, hlength, hone], rfl⟩,
      fun _ _ _ hloop => (nomatch hloop), fun o ho i hi => ?_⟩
    · simp [AtomicSession.push, List.filterMap_append, hsent, Outbound.rfq?, hlength, hone,
        List.range_succ]
    · rcases List.mem_append.mp ho with ho | ho
      · exact h.content o ho i hi
      · rw [List.mem_singleton.mp ho] at hi ⊢
        obtain rfl := Origin.rfq.inj hi
        exact ⟨request, (List.getLast?_eq_getElem? ..).symm.trans hlast, hanswers⟩
  | confirmed i outcome =>
    obtain ⟨req, hphase⟩ := hallowed
    simp only [AtomicSession.apply, hphase]
    exact h.still rfl rfl rfl
  | queueConfirm i =>
    obtain ⟨⟨no, message, deadline, hphase⟩, -⟩ := hallowed
    simp only [AtomicSession.apply, hphase]
    have hpushed : (w.push no (.confirm i) message).RfqsAnswered ctx := h.push fun i => by simp
    exact hpushed.still rfl rfl rfl

end RfqsAnswered

/-! ### Confirms -/

/-- The answer to a confirm is queued once, or the session ends. -/
structure ConfirmsAnswered (w : AtomicSession E) : Prop where
  count : ∀ i, (w.sent.countP fun o => decide (o.origin = .confirm i)) =
    if (w.confirms i).isQueued then 1 else 0
  content : ∀ o ∈ w.sent, ∀ i, o.origin = .confirm i → w.confirms i = .queued o.message
  absent : ∀ i, w.confirms i = .absent ↔ w.arrived ≤ i
  lost : ∀ i, w.confirms i = .lost → w.sendFailed = true ∨ ∃ why, w.loop = .stopped why

namespace ConfirmsAnswered

theorem still (h : w.ConfirmsAnswered) (hsent : w'.sent = w.sent) (hconfirms : w'.confirms = w.confirms)
    (harrived : w'.arrived = w.arrived) (hfailed : w.sendFailed = true → w'.sendFailed = true)
    (hloop : ∀ why, w.loop = .stopped why → w'.loop = .stopped why) : w'.ConfirmsAnswered where
  count := by
    rw [hsent, hconfirms]
    exact h.count
  content := by
    rw [hsent, hconfirms]
    exact h.content
  absent := by
    rw [hconfirms, harrived]
    exact h.absent
  lost i hi := (h.lost i (hconfirms ▸ hi)).imp hfailed fun ⟨why, hover⟩ => ⟨why, hloop why hover⟩

theorem stop (h : w.ConfirmsAnswered) (why : SessionEnd) : (w.stop why).ConfirmsAnswered :=
  ⟨h.count, h.content, h.absent, fun _ _ => .inr ⟨why, rfl⟩⟩

/-- A message that answers no confirm is queued. -/
theorem push (h : w.ConfirmsAnswered) {no : Nat} {origin : Origin} {message : LpMessage E}
    (horigin : ∀ i, origin ≠ .confirm i) : (w.push no origin message).ConfirmsAnswered where
  count i := by
    have hsame : ((w.push no origin message).sent.countP fun o => decide (o.origin = .confirm i)) =
        w.sent.countP fun o => decide (o.origin = .confirm i) := by
      simp [AtomicSession.push, List.countP_append, horigin i]
    exact hsame.trans (h.count i)
  content o ho i hi := by
    rcases List.mem_append.mp ho with ho | ho
    · exact h.content o ho i hi
    · rw [List.mem_singleton.mp ho] at hi
      exact absurd hi (horigin i)
  absent := h.absent
  lost := h.lost

/-- A confirm goes on without its answer being queued. -/
theorem move (h : w.ConfirmsAnswered) {i : Nat} (phase : ConfirmPhase E)
    (hqueued : (w.confirms i).isQueued = false) (hphase : phase.isQueued = false)
    (habsent : phase ≠ .absent) (harrived : ∀ j, w'.arrived ≤ j ↔ w.arrived ≤ j ∧ j ≠ i)
    (hsent : w'.sent = w.sent) (hconfirms : w'.confirms = (w.setConfirm i phase).confirms)
    (hfailed : w.sendFailed = true → w'.sendFailed = true)
    (hloop : w'.loop = w.loop) (hlost : phase = .lost → w'.sendFailed = true) :
    w'.ConfirmsAnswered where
  count j := by
    rw [hsent, hconfirms]
    by_cases heq : j = i
    · have hcount := h.count i
      simp only [hqueued, Bool.false_eq_true, if_false] at hcount
      simp [heq, setConfirm, hphase, hcount]
    · have hcount := h.count j
      simp [setConfirm, heq, hcount]
  content o ho j hj := by
    rw [hsent] at ho
    have hold := h.content o ho j hj
    by_cases heq : j = i
    · rw [heq] at hold
      simp [hold, ConfirmPhase.isQueued] at hqueued
    · rw [hconfirms]
      simpa [setConfirm, heq] using hold
  absent j := by
    rw [hconfirms, harrived]
    by_cases heq : j = i
    · simp [heq, setConfirm, habsent]
    · simp [setConfirm, heq, h.absent j]
  lost j hj := by
    rw [hconfirms] at hj
    by_cases heq : j = i
    · simp only [heq, setConfirm, Function.update_self] at hj
      exact .inl (hlost hj)
    · simp only [setConfirm, Function.update_of_ne heq] at hj
      rw [hloop]
      exact (h.lost j hj).imp hfailed id

/-- A confirm that came is among those that came. -/
theorem arrived_of_present (h : w.ConfirmsAnswered) {i : Nat} (hi : w.confirms i ≠ .absent) (j : Nat) :
    w.arrived ≤ j ↔ w.arrived ≤ j ∧ j ≠ i := by
  have hlt : ¬ w.arrived ≤ i := fun hle => hi ((h.absent i).mpr hle)
  omega

/-- The answer to a confirm is queued. -/
theorem queue (h : w.ConfirmsAnswered) {i no deadline : Nat} {message : LpMessage E}
    (hphase : w.confirms i = .sending no message deadline) :
    ((w.push no (.confirm i) message).setConfirm i (.queued message)).ConfirmsAnswered where
  count j := by
    have hcount := h.count j
    by_cases heq : j = i
    · rw [heq] at hcount ⊢
      simp only [hphase, ConfirmPhase.isQueued, Bool.false_eq_true, if_false] at hcount
      simp [setConfirm, AtomicSession.push, List.countP_append, hcount, ConfirmPhase.isQueued]
    · have hne : ¬ i = j := fun h => heq h.symm
      simp [setConfirm, AtomicSession.push, List.countP_append, hcount, heq, hne]
  content o ho j hj := by
    rcases List.mem_append.mp ho with ho | ho
    · have hold := h.content o ho j hj
      have hne : j ≠ i := fun heq => by
        rw [heq, hphase] at hold
        cases hold
      simpa [setConfirm, AtomicSession.push, hne] using hold
    · rw [List.mem_singleton.mp ho] at hj ⊢
      obtain rfl := Origin.confirm.inj hj
      simp [setConfirm]
  absent j := by
    by_cases heq : j = i
    · have hpresent : ¬ w.arrived ≤ i := fun hle => by
        have habsent := (h.absent i).mpr hle
        rw [hphase] at habsent
        cases habsent
      simp [heq, setConfirm, AtomicSession.push, hpresent]
    · simp [setConfirm, AtomicSession.push, heq, h.absent j]
  lost j hj := by
    by_cases heq : j = i
    · simp [heq, setConfirm] at hj
    · exact h.lost j (by simpa [setConfirm, AtomicSession.push, heq] using hj)

theorem apply (h : w.ConfirmsAnswered) {e : SessionEvent D E} (hallowed : w.Allowed e) :
    (w.apply ctx timing e).ConfirmsAnswered := by
  cases e with
  | tick _ | signalShutdown | sweepDone | recvHeartbeat | recvOther | take | close =>
    exact h.still rfl rfl rfl id fun _ hover => hover
  | recvEnd _ | queueFailed | sawShutdown | idle => exact h.stop _
  | sawSendFailed =>
    exact ⟨h.count, h.content, h.absent, fun _ _ => .inr ⟨.sendFailed, rfl⟩⟩
  | sweepTick =>
    simp only [AtomicSession.apply]
    split
    · exact h
    · exact h.still rfl rfl rfl id fun _ hover => hover
  | heartbeat =>
    have hraised : ConfirmsAnswered { w with seq := w.seq + 1 } :=
      h.still rfl rfl rfl id fun _ hover => hover
    simp only [AtomicSession.apply]
    split
    · exact hraised.push fun i => by simp
    · exact hraised.stop _
  | recvRfq request =>
    have hwaiting : w.loop = .waiting := hallowed
    simp only [AtomicSession.apply]
    split
    · exact (h.stop _).still rfl rfl rfl id fun _ hover => hover
    · exact h.still rfl rfl rfl id fun why hover => nomatch hwaiting.symm.trans hover
  | recvConfirm req =>
    have habsent : w.confirms w.arrived = .absent := (h.absent _).mpr (Nat.le_refl _)
    refine h.move (i := w.arrived) (.handling req) (by rw [habsent]; rfl) rfl (fun hphase => nomatch hphase) (fun j => ?_)
      rfl rfl id rfl fun hphase => nomatch hphase
    simp only [AtomicSession.apply, heard]
    omega
  | answer a =>
    have hpricing : w.loop = .pricing := hallowed
    simp only [AtomicSession.apply]
    cases w.rfqs.getLast? with
    | none => exact h
    | some request => exact h.still rfl rfl rfl id fun why hover => nomatch hpricing.symm.trans hover
  | queue =>
    obtain ⟨⟨no, message, deadline, hloop⟩, -⟩ := hallowed
    have hpushed : (w.push no (.rfq (w.rfqs.length - 1)) message).ConfirmsAnswered :=
      h.push fun i => by simp
    simp only [AtomicSession.apply, hloop]
    exact hpushed.still rfl rfl rfl id fun why hover => nomatch hloop.symm.trans hover
  | confirmed i outcome =>
    obtain ⟨req, hphase⟩ := hallowed
    have harrived : ∀ j, w.arrived ≤ j ↔ w.arrived ≤ j ∧ j ≠ i := h.arrived_of_present (by rw [hphase]; simp)
    simp only [AtomicSession.apply, hphase]
    exact h.move (.sending (w.seq + 1) (confirmMessage req outcome) (w.now + timing.send))
      (by rw [hphase]; rfl) rfl (fun hphase => nomatch hphase) harrived rfl rfl id rfl
      fun hphase => nomatch hphase
  | queueConfirm i =>
    obtain ⟨⟨no, message, deadline, hphase⟩, -⟩ := hallowed
    simp only [AtomicSession.apply, hphase]
    exact h.queue hphase
  | loseConfirm i =>
    obtain ⟨no, message, deadline, hphase, -⟩ := hallowed
    have harrived : ∀ j, w.arrived ≤ j ↔ w.arrived ≤ j ∧ j ≠ i := h.arrived_of_present (by rw [hphase]; simp)
    exact h.move .lost (by rw [hphase]; rfl) rfl (fun hphase => nomatch hphase) harrived rfl rfl
      (fun _ => rfl) rfl fun _ => rfl

end ConfirmsAnswered

/-! ### The sweep and the watchdog -/

/-- One sweep runs at a time; the watchdog ends only a session that it was armed in. -/
structure Watched (w : AtomicSession E) : Prop where
  sweeps : w.sweeps = if w.sweepRunning = true then 1 else 0
  idle : w.loop = .stopped .idle → w.armed = true ∧ w.idleAt ≤ w.now

namespace Watched

theorem still (h : w.Watched) (hsweeps : w'.sweeps = w.sweeps)
    (hrunning : w'.sweepRunning = w.sweepRunning) (hloop : w'.loop ≠ .stopped .idle) : w'.Watched where
  sweeps := by
    rw [hsweeps, hrunning]
    exact h.sweeps
  idle hidle := absurd hidle hloop

theorem apply (h : w.Watched) {e : SessionEvent D E} (hallowed : w.Allowed e) :
    (w.apply ctx timing e).Watched := by
  cases e with
  | tick span => exact ⟨h.sweeps, fun hidle => (h.idle hidle).imp_right (Nat.le_trans · (Nat.le_add_right ..))⟩
  | signalShutdown | take | close | loseConfirm _ => exact ⟨h.sweeps, h.idle⟩
  | recvHeartbeat | recvOther | recvConfirm _ =>
    have hwaiting : w.loop = .waiting := hallowed
    exact h.still rfl rfl fun hidle => nomatch hwaiting.symm.trans hidle
  | queueFailed | sawShutdown | sawSendFailed => exact h.still rfl rfl fun hidle => nomatch hidle
  | recvEnd failed =>
    refine h.still rfl rfl fun hidle => ?_
    cases failed <;> simp [AtomicSession.apply, stop] at hidle
  | idle => exact ⟨h.sweeps, fun _ => hallowed.2⟩
  | heartbeat =>
    have hwaiting : w.loop = .waiting := hallowed
    simp only [AtomicSession.apply]
    split
    · exact h.still rfl rfl fun hidle => nomatch hwaiting.symm.trans hidle
    · exact h.still rfl rfl fun hidle => nomatch hidle
  | sweepTick =>
    have hsweeps := h.sweeps
    simp only [AtomicSession.apply]
    split
    · exact h
    · rename_i hrunning
      simp only [hrunning] at hsweeps
      exact ⟨by simp [hsweeps], h.idle⟩
  | sweepDone =>
    have hsome : 0 < w.sweeps := hallowed
    have hsweeps := h.sweeps
    refine ⟨?_, h.idle⟩
    simp only [AtomicSession.apply, Bool.false_eq_true, if_false]
    split at hsweeps <;> omega
  | recvRfq request =>
    simp only [AtomicSession.apply]
    split
    · exact h.still rfl rfl fun hidle => nomatch hidle
    · exact h.still rfl rfl fun hidle => nomatch hidle
  | answer a =>
    have hpricing : w.loop = .pricing := hallowed
    simp only [AtomicSession.apply]
    cases w.rfqs.getLast? with
    | none => exact h
    | some request => exact h.still rfl rfl fun hidle => nomatch hidle
  | queue =>
    obtain ⟨⟨no, message, deadline, hloop⟩, -⟩ := hallowed
    simp only [AtomicSession.apply, hloop]
    exact h.still rfl rfl fun hidle => nomatch hidle
  | confirmed i outcome =>
    obtain ⟨req, hphase⟩ := hallowed
    simp only [AtomicSession.apply, hphase]
    exact ⟨h.sweeps, h.idle⟩
  | queueConfirm i =>
    obtain ⟨⟨no, message, deadline, hphase⟩, -⟩ := hallowed
    simp only [AtomicSession.apply, hphase]
    exact ⟨h.sweeps, h.idle⟩

end Watched

/-! ### Runs -/

variable {agentVersion : String} {marketIds : List String} {sweepRunning : Bool} {now : Nat}

theorem numbered_opened :
    (opened ctx timing agentVersion marketIds sweepRunning now : AtomicSession E).Numbered where
  sent o ho := by
    rw [List.mem_singleton.mp ho]
    exact Nat.le_refl 0
  distinct := List.nodup_singleton _
  pending task n htask := by cases task <;> cases htask
  apart task task' n hne htask := by cases task <;> cases htask

theorem rfqsAnswered_opened :
    (opened ctx timing agentVersion marketIds sweepRunning now : AtomicSession E).RfqsAnswered ctx where
  order := ⟨0, 0, rfl, rfl, rfl⟩
  current _ _ _ hloop := nomatch hloop
  content o ho i hi := by
    rw [List.mem_singleton.mp ho] at hi
    cases hi

theorem confirmsAnswered_opened :
    (opened ctx timing agentVersion marketIds sweepRunning now : AtomicSession E).ConfirmsAnswered where
  count i := rfl
  content o ho i hi := by
    rw [List.mem_singleton.mp ho] at hi
    cases hi
  absent i := ⟨fun _ => Nat.zero_le i, fun _ => rfl⟩
  lost i hi := nomatch hi

theorem watched_opened :
    (opened ctx timing agentVersion marketIds sweepRunning now : AtomicSession E).Watched where
  sweeps := rfl
  idle hidle := nomatch hidle

/-- In every interleaving of a session: the requests for quotes are answered in order, each once and with
an answer to it, and all that were read are answered whenever the loop waits; the answer to a confirm is
queued once, or it is on its way, or the session ends; no two messages have one sequence number before the
counter wraps; and there is one sweep at a time. -/
theorem session_answers (run : Reachable (Allowed (D := D)) (apply ctx timing)
    (opened ctx timing agentVersion marketIds sweepRunning now) w) :
    (∃ k n, w.sent.filterMap Outbound.rfq? = List.range k ∧ w.rfqs.length = k + n ∧ n ≤ 1 ∧
      (w.loop = .waiting → n = 0)) ∧
    (∀ o ∈ w.sent, ∀ i, o.origin = .rfq i →
      ∃ request, w.rfqs[i]? = some request ∧ Answers ctx request o.message) ∧
    (∀ i < w.arrived,
      ((∃ req, w.confirms i = .handling req) ∨ ∃ no message deadline,
        w.confirms i = .sending no message deadline) ∨
      (w.sent.countP (fun o => decide (o.origin = .confirm i)) = 1 ∧
        ∃ message, w.confirms i = .queued message ∧
          ∀ o ∈ w.sent, o.origin = .confirm i → o.message = message) ∨
      w.sendFailed = true ∨ ∃ why, w.loop = .stopped why) ∧
    (w.seq < 2 ^ 64 → (w.sent.map fun o => o.no % 2 ^ 64).Nodup) ∧
    w.sweeps ≤ 1 ∧ (w.loop = .stopped .idle → w.armed = true ∧ w.idleAt ≤ w.now) := by
  have numbered : w.Numbered :=
    run.invariant Numbered numbered_opened fun _ _ hinv hallowed => hinv.apply hallowed
  have rfqs : w.RfqsAnswered ctx :=
    run.invariant (RfqsAnswered ctx) rfqsAnswered_opened fun _ _ hinv hallowed => hinv.apply hallowed
  have confirms : w.ConfirmsAnswered :=
    run.invariant ConfirmsAnswered confirmsAnswered_opened fun _ _ hinv hallowed => hinv.apply hallowed
  have watched : w.Watched :=
    run.invariant Watched watched_opened fun _ _ hinv hallowed => hinv.apply hallowed
  refine ⟨?_, rfqs.content, fun i hi => ?_, fun hseq => ?_, ?_, watched.idle⟩
  · obtain ⟨k, n, hsent, hlength, hbehind⟩ := rfqs.order
    refine ⟨k, n, hsent, hlength, ?_, fun hwaiting => ?_⟩
    · cases hloop : w.loop <;> simp only [hloop, SessionLoop.Behind] at hbehind <;> omega
    · simpa only [hwaiting, SessionLoop.Behind] using hbehind
  · cases hphase : w.confirms i with
    | absent => exact absurd ((confirms.absent i).mp hphase) (by omega)
    | handling req => exact .inl (.inl ⟨req, rfl⟩)
    | sending no message deadline => exact .inl (.inr ⟨no, message, deadline, rfl⟩)
    | queued message =>
      refine .inr (.inl ⟨?_, message, rfl, fun o ho horigin => ?_⟩)
      · simpa only [hphase, ConfirmPhase.isQueued, if_true] using confirms.count i
      · exact (ConfirmPhase.queued.inj (hphase.symm.trans (confirms.content o ho i horigin))).symm
    | lost => exact .inr (.inr (confirms.lost i hphase))
  · refine (List.map_congr_left fun o ho => ?_) ▸ numbered.distinct
    have hle := numbered.sent o ho
    exact (Nat.mod_eq_of_lt (by omega)).symm
  · have hsweeps := watched.sweeps
    split at hsweeps <;> omega

end AtomicSession

section Example

namespace AtomicSession

def lp : AtomicCtx := ⟨"lp::1220", "LP one"⟩

/-- `Timing::default`, in nanoseconds. -/
def defaultTiming : Timing := ⟨seconds 10, seconds 90⟩

def buyTen : AtomicRfqRequest where
  rfqId := "r1"
  marketId := "CC-USDC"
  direction := "BUY"
  quantity := "10"
  settlementFee := none
  quoteQuantity := none
  quoteIdPrefix := some "venue"
  venueName := none
  venueBranch := none
  userParty := none

def tenForOne : RfqHandler.PricedQuote Int where
  marketId := "CC-USDC"
  price := 1
  quantity := 10
  quoteQuantity := 10
  priceStr := "1.0000000000"
  quantityStr := "10.0000000000"
  quoteQuantityStr := "10.0000000000"
  lpPays := ("CC", 10)
  notionalUsd := none
  validForSecs := 30
  allocateBeforeSecs := 60
  settleBeforeSecs := 120
  poolPricing := none

def quotesIt : AnswerCalls Int :=
  ⟨fun _ => true, fun _ => .ok tenForOne, some "0198", fun _ _ _ => .ok (), true, 1700000000⟩

/-- A quote, and its confirm behind a heartbeat. -/
def quoteAndConfirm : List (SessionEvent Int String) :=
  [.recvRfq buyTen, .answer quotesIt, .queue, .recvHeartbeat, .sweepTick,
    .recvConfirm ⟨"r1", "venue-0198", "user::1220", none⟩, .confirmed 0 (some (.ok "envelope")),
    .heartbeat, .queueConfirm 0, .take]

theorem quoteAndConfirm_run : Reachable (Allowed (D := Int)) (apply lp defaultTiming)
    (opened lp defaultTiming "1.0" ["CC-USDC"] true 0)
    (quoteAndConfirm.foldl (apply lp defaultTiming) (opened lp defaultTiming "1.0" ["CC-USDC"] true 0)) :=
  Reachable.start.foldl ⟨rfl, rfl, ⟨⟨_, _, _, rfl⟩, by decide⟩, rfl, rfl, rfl, ⟨_, rfl⟩, rfl,
    ⟨⟨_, _, _, rfl⟩, by decide⟩, (by decide : 0 < 4), trivial⟩

theorem quoteAndConfirm_answered :
    let w := quoteAndConfirm.foldl (apply lp defaultTiming) (opened lp defaultTiming "1.0" ["CC-USDC"] true 0)
    (∃ k n, w.sent.filterMap Outbound.rfq? = List.range k ∧ w.rfqs.length = k + n ∧ n ≤ 1 ∧
      (w.loop = .waiting → n = 0)) ∧
    (∀ o ∈ w.sent, ∀ i, o.origin = .rfq i →
      ∃ request, w.rfqs[i]? = some request ∧ Answers lp request o.message) ∧
    (∀ i < w.arrived,
      ((∃ req, w.confirms i = .handling req) ∨ ∃ no message deadline,
        w.confirms i = .sending no message deadline) ∨
      (w.sent.countP (fun o => decide (o.origin = .confirm i)) = 1 ∧
        ∃ message, w.confirms i = .queued message ∧
          ∀ o ∈ w.sent, o.origin = .confirm i → o.message = message) ∨
      w.sendFailed = true ∨ ∃ why, w.loop = .stopped why) ∧
    (w.seq < 2 ^ 64 → (w.sent.map fun o => o.no % 2 ^ 64).Nodup) ∧
    w.sweeps ≤ 1 ∧ (w.loop = .stopped .idle → w.armed = true ∧ w.idleAt ≤ w.now) :=
  session_answers quoteAndConfirm_run

end AtomicSession

end Example

end BookAgent.CloudAgent
