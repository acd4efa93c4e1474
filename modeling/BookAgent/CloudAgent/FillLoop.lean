import BookAgent.AgentLogic.Proto
import BookAgent.CloudAgent.AtomicSwap
import BookAgent.Lib.ExactFloat
import BookAgent.Lib.TenDecimals

/-!
# The fill loop

The taker's `buy` and `sell` (`fill_loop.rs`): round after round a quote is requested,
chosen, accepted and settled, and the progress is saved with a marker of the round whose
settle may commit. A run is a sequence of starts, rounds and crashes at any point; what the
LPs, the settles and the file system answer comes with the events. Amounts are exact.
-/

namespace BookAgent.CloudAgent

open BookAgent.Lib BookAgent.AgentLogic

open ExactFloat (finite parse number)

/-! ## Parameters and the saved state -/

structure FillParams where
  direction : FillDirection
  marketId : String
  totalAmount : ExactFloat
  priceLimit : Option ExactFloat
  minSettlement : ExactFloat
  maxSettlement : ExactFloat
  atomic : Bool

/-- Amounts and the price limit must be finite and above 0. -/
def validateParams (params : FillParams) : Except String Unit :=
  let values := [("total_amount", some params.totalAmount),
    ("min_settlement", some params.minSettlement), ("max_settlement", some params.maxSettlement),
    ("price_limit", params.priceLimit)]
  match values.find? fun v => v.2.any fun x => !(x.isFinite && (finite 0).lt x) with
  | some (name, _) => .error (name ++ " must be a finite number above 0")
  | none => .ok ()

def directionName : FillDirection → String
  | .buy => "buy"
  | .sell => "sell"

inductive UnresolvedKind
  | v1
  | atomic
  deriving DecidableEq

/-- A round of unknown outcome; a restart must resolve it before quoting. -/
structure UnresolvedRound where
  kind : UnresolvedKind
  id : String
  qty : ExactFloat
  deriving DecidableEq

structure SavedFillState where
  direction : String
  marketId : String
  totalAmount : ExactFloat
  filledTotal : ExactFloat
  remaining : ExactFloat
  round : Nat
  unresolved : Option UnresolvedRound
  deriving DecidableEq

/-- JSON has no infinities: such a state is written as `null` and does not load again. -/
def SavedFillState.loads (s : SavedFillState) : Bool :=
  s.totalAmount.isFinite && s.filledTotal.isFinite && s.remaining.isFinite &&
    s.unresolved.all fun u => u.qty.isFinite

def fillSnapshot (params : FillParams) (filledTotal remaining : ExactFloat) (round : Nat)
    (unresolved : Option UnresolvedRound) : SavedFillState where
  direction := directionName params.direction
  marketId := params.marketId
  totalAmount := params.totalAmount
  filledTotal
  remaining := remaining.max (finite 0)
  round
  unresolved

/-- How a run starts, given the fill state of an earlier one. -/
inductive RestorePlan
  | fresh
  | resume (remaining filled : ExactFloat) (round : Nat)
  | resolve (proposalId : String) (qty remaining filled : ExactFloat) (round : Nat)
  /-- The reason names the round. -/
  | refuse (id : String) (qty : ExactFloat) (round : Nat)

/-- A round marked while its settle could commit is resolved or refused, never resumed. -/
def restorePlan (saved : Option SavedFillState) (params : FillParams) : RestorePlan :=
  match saved with
  | none => .fresh
  | some fs =>
    let sameOrder := decide (fs.direction = directionName params.direction) &&
      decide (fs.marketId = params.marketId) &&
      (fs.totalAmount.sub params.totalAmount).abs.lt (finite (1 / 1000000)) &&
      (finite 0).lt fs.remaining
    if sameOrder = false then .fresh
    else
      match fs.unresolved with
      | none => .resume fs.remaining fs.filledTotal fs.round
      | some ⟨.v1, id, qty⟩ => .resolve id qty fs.remaining fs.filledTotal fs.round
      | some ⟨.atomic, id, qty⟩ => .refuse id qty fs.round

/-! ## Choosing a quote -/

structure PriceResponse where
  bid : Option ExactFloat
  ask : Option ExactFloat
  last : ExactFloat

def midPrice (r : PriceResponse) : ExactFloat :=
  match r.bid, r.ask with
  | some b, some a => if (finite 0).lt b && (finite 0).lt a then (b.add a).scale (1 / 2) else r.last
  | _, _ => r.last

/-- The limit of the parameters, or 3% beyond the mid. -/
def roundLimit (params : FillParams) (price : Except String PriceResponse) : Option ExactFloat :=
  match params.priceLimit, price with
  | some limit, _ => some limit
  | none, .error _ => none
  | none, .ok r =>
    let mid := midPrice r
    if mid.le (finite 0) then none
    else some (match params.direction with
      | .buy => mid.scale (103 / 100)
      | .sell => mid.scale (97 / 100))

/-- A quote of either protocol. -/
structure QuoteInfo where
  quoteId : String
  price : String
  quantity : String
  deriving DecidableEq

structure RfqResponse where
  quotes : List QuoteInfo
  /-- The `max_quantity` of each rejection. -/
  maxQuantities : List (Option String)

def withinLimit (direction : FillDirection) (limit price : ExactFloat) : Bool :=
  match direction with
  | .buy => price.le limit
  | .sell => limit.le price

def acceptable (direction : FillDirection) (limit : ExactFloat) (q : QuoteInfo) : Bool :=
  withinLimit direction limit ((parse q.price).getD (finite 0))

/-- The price a quote is ranked by. -/
def rankPrice (direction : FillDirection) (q : QuoteInfo) : ExactFloat :=
  (parse q.price).getD (match direction with
    | .buy => .greatest
    | .sell => .inf true)

/-- Lowest price for buy, highest for sell: the first minimum, the last maximum. -/
def pickBest (direction : FillDirection) : List QuoteInfo → Option QuoteInfo
  | [] => none
  | q :: qs => some (qs.foldl (fun best x =>
      let less := (rankPrice direction x).lt (rankPrice direction best)
      match direction with
      | .buy => if less then x else best
      | .sell => if less then best else x) q)

/-- What is asked for in a round; none when the order is complete. -/
def requestAmount (params : FillParams) (remaining : ExactFloat) : Option ExactFloat :=
  let amount := remaining.min params.maxSettlement
  if amount.lt params.minSettlement then none else some amount

/-- The larger of the best size hint so far and a next one of use. -/
def betterHint (params : FillParams) (best : Option ExactFloat) (hint : Option String) :
    Option ExactFloat :=
  match hint.bind parse with
  | some v =>
    if params.minSettlement.le v then
      some (match best with
        | some current => current.max v
        | none => v)
    else best
  | none => best

/-- The largest size hint of use, if it is below what was asked for. -/
def adaptedMax (params : FillParams) (request : ExactFloat) (hints : List (Option String)) :
    Option ExactFloat :=
  (hints.foldl (betterHint params) none).filter fun v => v.lt request

/-- The quote to accept with the amount requested for it: the best within the limit, else the best
at the adapted amount. -/
def chooseQuote (params : FillParams) (limit request : ExactFloat)
    (first retry : Except String RfqResponse) : Option (QuoteInfo × ExactFloat) :=
  match first with
  | .error _ => none
  | .ok r =>
    match pickBest params.direction (r.quotes.filter (acceptable params.direction limit)) with
    | some best => some (best, request)
    | none =>
      match adaptedMax params request r.maxQuantities, retry with
      | some adapted, .ok r =>
        (pickBest params.direction (r.quotes.filter (acceptable params.direction limit))).map
          (·, adapted)
      | _, _ => none

/-- The amount of a request as it is sent, with ten decimals. -/
def sentAmount (requested : ℚ) : ℚ := ScaledInt.value (tenDecimals requested)

structure QuoteAnswers where
  price : Except String PriceResponse
  first : Except String RfqResponse
  retry : Except String RfqResponse

/-- A quote for which the loop calls accept. -/
structure AcceptedQuote where
  quote : QuoteInfo
  requested : ExactFloat
  limit : ExactFloat
  deriving DecidableEq

/-- A round that asks for `request`, up to the accept. -/
def quoteRound (params : FillParams) (request : ExactFloat) (a : QuoteAnswers) :
    Option AcceptedQuote := do
  let limit ← roundLimit params a.price
  let (quote, requested) ← chooseQuote params limit request a.first a.retry
  return ⟨quote, requested, limit⟩

/-! ## How a settle ends -/

/-- What the settlement status says about a multicall of unknown outcome. -/
inductive SettleCheck
  | committed (stage : Nat)
  | ended (stage : Nat)
  | notEstablished (why : String)

/-- A V1 settle, by what its result means for the loop. -/
inductive V1Settle
  | ok
  | stop
  | retry
  | unknown (check : SettleCheck)

/-- An atomic settle; an error either stops the loop or is retried. -/
inductive SwapEnd
  | filled (filledBase : ℚ)
  | requote
  | abort
  | dryRun
  | stop
  | error

inductive SettleEnd
  | v1 (e : V1Settle)
  | atomic (e : SwapEnd)

/-- An outcome that shows that nothing committed clears the marker. -/
def SettleEnd.nothingCommitted : SettleEnd → Bool
  | v1 .stop | v1 .retry => true
  | v1 .ok | v1 (.unknown _) => false
  | atomic .requote | atomic .dryRun | atomic .stop | atomic .error => true
  | atomic (.filled _) | atomic .abort => false

inductive AfterSettle
  | fills (qty : ExactFloat)
  | goesOn
  | exits
  /-- The loop stops with the marker saved again. -/
  | exitsMarked

/-- The base quantity that the loop reads from an accepted V1 quote. -/
def v1Qty (quote : QuoteInfo) : ExactFloat := (parse quote.quantity).getD (finite 0)

def afterSettle (quote : QuoteInfo) : SettleEnd → AfterSettle
  | .v1 .ok | .v1 (.unknown (.committed _)) => .fills (v1Qty quote)
  | .v1 .retry => .goesOn
  | .v1 .stop => .exits
  | .v1 (.unknown _) => .exitsMarked
  | .atomic (.filled filledBase) => .fills (finite filledBase)
  | .atomic .requote | .atomic .error => .goesOn
  | .atomic .dryRun | .atomic .stop => .exits
  | .atomic .abort => .exitsMarked

/-! ## Runs -/

inductive FillStage
  | idle
  | accepted (a : AcceptedQuote)
  /-- The marker is saved and the settle runs. -/
  | settling (a : AcceptedQuote) (mark : UnresolvedRound)
  deriving DecidableEq

/-- What a running loop has in memory. -/
structure FillProgress where
  filled : ExactFloat
  remaining : ExactFloat
  round : Nat
  stage : FillStage
  deriving DecidableEq

/-- A round whose settle was started; only the ledger knows all of it. -/
structure FillRound where
  accepted : AcceptedQuote
  /-- The base quantity that it trades. -/
  own : ℚ
  /-- Whether it commits, then or later. -/
  commits : Bool
  deriving DecidableEq

/-- The state file, the loop while it runs, and the rounds there were. -/
structure FillWorld where
  file : Option SavedFillState
  loop : Option FillProgress
  /-- The rounds of the current order. -/
  rounds : List FillRound
  /-- The earlier orders: their rounds, and the total saved for each when it was left. -/
  past : List (Option ExactFloat × List FillRound)
  accepted : List AcceptedQuote
  deriving DecidableEq

inductive FillEvent
  /-- A start: whether the first save works, what the status says of a saved V1 round, and whether
  the save after it works. -/
  | start (probeSaved : Bool) (check : SettleCheck) (saved : Bool)
  | quote (answers : QuoteAnswers)
  /-- The accepted quote comes to no settle. -/
  | giveUp (exits : Bool)
  /-- The settle under this id: the base amount text of the envelope, the base quantity that is
  traded, and whether it commits. -/
  | settleStart (id : String) (envelopeBase : Option String) (base : ℚ) (commits saved : Bool)
  | settleEnd (e : SettleEnd) (saved : Bool)
  /-- A crash, or the end of the loop. -/
  | stop

namespace FillWorld

variable (params : FillParams) (w : FillWorld)

/-- A save reads the state file first. -/
def save (saved : Bool) (s : SavedFillState) : FillWorld :=
  if saved && w.file.all SavedFillState.loads then { w with file := some s } else w

/-- The saved order's progress once its V1 round is resolved; it is saved before the loop goes on. -/
def resumeSavedV1Round (qty remaining filled : ExactFloat) (round : Nat) (check : SettleCheck)
    (saved : Bool) : FillWorld :=
  let count (counted : ExactFloat) : FillWorld :=
    let filled := filled.add counted
    let remaining := remaining.sub counted
    { w.save saved (fillSnapshot params filled remaining round none) with
      loop := some ⟨filled, remaining, round, .idle⟩ }
  match check with
  | .committed _ => count qty
  | .ended _ => count (finite 0)
  | .notEstablished _ => w

def start (probeSaved : Bool) (check : SettleCheck) (saved : Bool) : FillWorld :=
  if w.file.all SavedFillState.loads = false then w
  else
    match validateParams params, restorePlan w.file params with
    | .error _, _ => w
    | .ok _, .refuse _ _ _ => w
    | .ok _, plan =>
      if probeSaved = false then w
      else
        let probed : FillWorld :=
          { w with
            file := some (w.file.getD (fillSnapshot params (finite 0) params.totalAmount 0 none)) }
        match plan with
        | .fresh =>
          { probed with
            loop := some ⟨finite 0, params.totalAmount, 0, .idle⟩
            rounds := []
            past := (w.file.map SavedFillState.filledTotal, w.rounds) :: w.past }
        | .resume remaining filled round =>
          { probed with loop := some ⟨filled, remaining, round, .idle⟩ }
        | .resolve _ qty remaining filled round =>
          probed.resumeSavedV1Round params qty remaining filled round check saved
        | .refuse _ _ _ => w

/-- The marker of a round. -/
def markerOf (id : String) (envelopeBase : Option String) (quote : QuoteInfo) : UnresolvedRound :=
  if params.atomic then
    ⟨.atomic, quote.quoteId, (parse (envelopeBase.getD quote.quantity)).getD (finite 0)⟩
  else ⟨.v1, id, v1Qty quote⟩

/-- The marker is saved, or nothing is submitted and the loop stops. -/
def settleStart (p : FillProgress) (a : AcceptedQuote) (id : String) (envelopeBase : Option String)
    (base : ℚ) (commits saved : Bool) : FillWorld :=
  let mark := markerOf params id envelopeBase a.quote
  if saved && w.file.all SavedFillState.loads then
    { w with
      file := some (fillSnapshot params p.filled p.remaining p.round (some mark))
      loop := some { p with stage := .settling a mark }
      rounds := w.rounds ++ [⟨a, base, commits⟩] }
  else { w with loop := none }

def settleEnd (p : FillProgress) (a : AcceptedQuote) (mark : UnresolvedRound) (e : SettleEnd)
    (saved : Bool) : FillWorld :=
  let cleared :=
    if e.nothingCommitted then w.save saved (fillSnapshot params p.filled p.remaining p.round none)
    else w
  match afterSettle a.quote e with
  | .fills qty =>
    let filled := p.filled.add qty
    let remaining := p.remaining.sub qty
    { cleared.save saved (fillSnapshot params filled remaining p.round none) with
      loop := some ⟨filled, remaining, p.round, .idle⟩ }
  | .goesOn => { cleared with loop := some { p with stage := .idle } }
  | .exits => { cleared with loop := none }
  | .exitsMarked =>
    { cleared.save saved (fillSnapshot params p.filled p.remaining p.round (some mark)) with
      loop := none }

def quote (p : FillProgress) (answers : QuoteAnswers) : FillWorld :=
  if p.remaining.le (finite 0) then { w with loop := none }
  else
    let round := min (p.round + 1) (2 ^ 32 - 1)
    match requestAmount params p.remaining with
    | none => { w with loop := none }
    | some request =>
      match quoteRound params request answers with
      | none => { w with loop := some { p with round } }
      | some a =>
        { w with
          loop := some { p with round, stage := .accepted a }
          accepted := w.accepted ++ [a] }

/-- One event; one that does not fit the loop's stage does nothing. -/
def apply (e : FillEvent) : FillWorld :=
  match e, w.loop with
  | .start probeSaved check saved, none => w.start params probeSaved check saved
  | .quote answers, some p =>
    match p.stage with
    | .idle => w.quote params p answers
    | _ => w
  | .giveUp exits, some p =>
    match p.stage with
    | .accepted _ => { w with loop := if exits then none else some { p with stage := .idle } }
    | _ => w
  | .settleStart id envelopeBase base commits saved, some p =>
    match p.stage with
    | .accepted a => w.settleStart params p a id envelopeBase base commits saved
    | _ => w
  | .settleEnd e saved, some p =>
    match p.stage with
    | .settling a mark => w.settleEnd params p a mark e saved
    | _ => w
  | .stop, _ => { w with loop := none }
  | _, _ => w

end FillWorld

end BookAgent.CloudAgent
