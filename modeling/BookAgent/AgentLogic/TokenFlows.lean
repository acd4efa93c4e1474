import Mathlib.Tactic.Linarith
import Mathlib.Tactic.Positivity
import BookAgent.AgentLogic.Liquidity
import BookAgent.AgentLogic.OrderTracker

/-!
# Token flows

The flows beside the balances (`agent-logic/src/liquidity.rs`): what settlements take out of a
token and bring in, averaged over time, and the coefficient that tells how soon the token runs out
at that rate. Floating-point numbers are read as the exact numbers they stand for.
-/

namespace BookAgent.AgentLogic

open BookAgent.Lib

structure TokenFlow where
  /-- Average net outflow per hour, positive when depleting. -/
  netOutflowPerHour : ℚ
  lastUpdate : Instant
  pendingOutflow : ℚ
  pendingInflow : ℚ
  deriving DecidableEq

/-- A liquidity manager with its flows, and the settings of the averages. -/
structure FlowManager where
  manager : LiquidityManager
  flows : Pool String TokenFlow
  emaAlpha : ℚ
  depletionMaxHours : ℚ
  depletionMinHours : ℚ

namespace TokenFlow

def new (now : Instant) : TokenFlow := ⟨0, now, 0, 0⟩

/-- The pending flow enters the average, a second after the last time at the earliest. -/
def flush (flow : TokenFlow) (alpha : ℚ) (now : Instant) : TokenFlow :=
  let elapsedSecs : ℚ := ((now - flow.lastUpdate : Nat) : ℚ) / 1000000000
  if elapsedSecs < 1 then flow
  else
    let rate := (flow.pendingOutflow - flow.pendingInflow) / (elapsedSecs / 3600)
    ⟨alpha * rate + (1 - alpha) * flow.netOutflowPerHour, now, 0, 0⟩

end TokenFlow

namespace FlowManager

/-- The flow of a token, or the one that a first record inserts. -/
def flow (m : FlowManager) (token : String) (now : Instant) : TokenFlow :=
  (m.flows.lookup token).getD (.new now)

def recordOutflow (m : FlowManager) (token : String) (amount : ℚ) (now : Instant) : FlowManager :=
  let flow := m.flow token now
  { m with flows := m.flows.insert token { flow with pendingOutflow := flow.pendingOutflow + amount } }

def recordInflow (m : FlowManager) (token : String) (amount : ℚ) (now : Instant) : FlowManager :=
  let flow := m.flow token now
  { m with flows := m.flows.insert token { flow with pendingInflow := flow.pendingInflow + amount } }

/-- From hours to depletion to a coefficient, linear between the two settings. -/
def hoursToCoefficient (m : FlowManager) (hours : ℚ) : ℚ :=
  if m.depletionMaxHours ≤ hours then 0
  else if hours ≤ m.depletionMinHours then 10
  else 10 * (m.depletionMaxHours - hours) / (m.depletionMaxHours - m.depletionMinHours)

/-- The flow of the token is flushed first, if there is one. -/
def flushed (m : FlowManager) (token : String) (now : Instant) : FlowManager :=
  match m.flows.lookup token with
  | none => m
  | some flow => { m with flows := m.flows.insert token (flow.flush m.emaAlpha now) }

/-- What is there of a token, for CC after the fees and the reserve. -/
def effectiveAvailable (m : FlowManager) (resolved : String) : ℚ :=
  let available := (m.manager.state.token resolved).available
  if resolved = ccToken then
    max (available - m.manager.feeReserveCc - m.manager.state.feeTotal) 0
  else available

/-- How soon the token runs out: 0 when it does not, 10 when it has. -/
def depletionCoefficient (m : FlowManager) (token : String) (now : Instant) : ℚ × FlowManager :=
  let resolved := m.manager.state.resolveAlias token
  let m := m.flushed resolved now
  let netOutflow := ((m.flows.lookup resolved).map TokenFlow.netOutflowPerHour).getD 0
  if netOutflow ≤ 0 then (0, m)
  else
    let effective := m.effectiveAvailable resolved
    if effective ≤ 0 then (10, m) else (m.hoursToCoefficient (effective / netOutflow), m)

/-- Nothing takes a coefficient below zero or above ten. -/
theorem hoursToCoefficient_range (m : FlowManager) (hours : ℚ) :
    0 ≤ m.hoursToCoefficient hours ∧ m.hoursToCoefficient hours ≤ 10 := by
  unfold hoursToCoefficient
  split
  · norm_num
  · rename_i hmax
    split
    · norm_num
    · rename_i hmin
      rw [not_le] at hmax hmin
      have hspan : 0 < m.depletionMaxHours - m.depletionMinHours := by linarith
      constructor
      · have : 0 ≤ m.depletionMaxHours - hours := by linarith
        positivity
      · rw [div_le_iff₀ hspan]
        linarith

theorem depletionCoefficient_range (m : FlowManager) (token : String) (now : Instant) :
    0 ≤ (m.depletionCoefficient token now).1 ∧ (m.depletionCoefficient token now).1 ≤ 10 := by
  unfold depletionCoefficient
  dsimp only
  split
  · norm_num
  · split
    · norm_num
    · exact hoursToCoefficient_range _ _

end FlowManager

end BookAgent.AgentLogic
