import BookAgent.AgentLogic.GridVisit
import BookAgent.Lib.Binary64
import BookAgent.Lib.Rotation

/-!
# The grid cycle

`update_cycle` (`order_manager.rs`): the enabled markets are visited in rotation, until a shutdown or
the soft deadline, and the next cycle resumes at the first market that was not visited.
-/

namespace BookAgent.AgentLogic

open BookAgent.Lib Rotation

/-- What the order manager keeps from cycle to cycle; `markets` are the enabled ones. -/
structure GridManager where
  markets : List GridMarket
  grids : String → MarketGrid
  resumeFrom : Nat := 0

/-- The visits, the shutdown checks and the clock of one cycle; the n-th before its n-th visit. -/
structure CycleAnswers where
  stop : Nat → Bool
  now : Nat → Instant
  deadline : Instant
  visit : Nat → VisitAnswers

/-- What a cycle did; `visits` has the indices of the markets it visited. -/
structure Cycled where
  manager : GridManager
  report : CycleReport := {}
  visits : List Nat := []

/-- The first market is always visited. -/
def pastSoftDeadline (visited : Nat) (now deadline : Instant) : Bool :=
  decide (0 < visited) && decide (deadline ≤ now)

def countU32 (n : Nat) : Nat := min n (2 ^ 32 - 1)

namespace GridManager

def total (om : GridManager) : Nat := om.markets.length

def resume (om : GridManager) : Nat := if om.resumeFrom < om.total then om.resumeFrom else 0

/-- The markets with their indices, from the one that is next. -/
def rotation (om : GridManager) : List (GridMarket × Nat) := om.markets.zipIdx.rotate om.resume

def visit [FloatOps] (c : Cycled) (market : GridMarket) (index : Nat) (a : VisitAnswers) : Cycled :=
  let done := (c.manager.grids market.marketId).visitMarket market a c.report
  { manager := { c.manager with
      grids := fun id => if id = market.marketId then done.grid else c.manager.grids id }
    report := done.report
    visits := c.visits ++ [index] }

/-- The markets that are left of the cycle. -/
def cycleFrom [FloatOps] (a : CycleAnswers) (total : Nat) : Nat → List (GridMarket × Nat) → Cycled → Cycled
  | _, [], c => c
  | visited, (market, index) :: rest, c =>
    let deferred := { c.report with deferred := countU32 (total - visited) }
    if a.stop visited then { c with report := deferred }
    else if pastSoftDeadline visited (a.now visited) a.deadline then
      { c with manager := { c.manager with resumeFrom := index }, report := deferred }
    else cycleFrom a total (visited + 1) rest (visit c market index (a.visit visited))

def updateCycle [FloatOps] (om : GridManager) (a : CycleAnswers) : Cycled :=
  cycleFrom a om.total 0 om.rotation { manager := { om with resumeFrom := 0 } }

variable {om : GridManager} {a : CycleAnswers}

theorem resume_lt (h : 0 < om.total) : om.resume < om.total := by
  unfold resume
  split
  · assumption
  · exact h

theorem length_rotation : om.rotation.length = om.total := by
  simp [rotation, total]

theorem rotation_getElem? {i : Nat} (h : i < om.total) :
    om.rotation[i]?.map Prod.snd = some ((om.resume + i) % om.total) := by
  have hlt : (om.resume + i) % om.total < om.markets.length := Nat.mod_lt _ (by omega)
  have hi : i < om.markets.zipIdx.length := List.length_zipIdx.symm ▸ h
  rw [rotation, getElem?_rotate hi, List.length_zipIdx, List.getElem?_zipIdx]
  change ((om.markets[(om.resume + i) % om.total]?).map _).map _ = _
  rw [List.getElem?_eq_getElem hlt]
  simp [total]

/-- Of the markets that are left, the cycle visits some, from the first on; if it leaves any out, the
next one starts there. -/
theorem cycleFrom_visits [FloatOps] (hstop : ∀ n, a.stop n = false) (total visited : Nat)
    (rest : List (GridMarket × Nat)) (c : Cycled) :
    ∃ n ≤ rest.length, (cycleFrom a total visited rest c).visits =
        c.visits ++ (rest.take n).map Prod.snd ∧
      (cycleFrom a total visited rest c).manager.markets = c.manager.markets ∧
      (visited = 0 → 0 < rest.length → 0 < n) ∧
      (cycleFrom a total visited rest c).manager.resumeFrom =
        (rest[n]?.map Prod.snd).getD c.manager.resumeFrom := by
  induction rest generalizing visited c with
  | nil => exact ⟨0, le_rfl, by simp [cycleFrom], rfl, by simp, rfl⟩
  | cons entry rest ih =>
    obtain ⟨market, index⟩ := entry
    simp only [cycleFrom, hstop, Bool.false_eq_true, if_false]
    split
    · rename_i hpast
      refine ⟨0, Nat.zero_le _, by simp, rfl, fun hzero => ?_, rfl⟩
      simp [pastSoftDeadline, hzero] at hpast
    · obtain ⟨n, hn, hvisits, hmarkets, -, hresume⟩ := ih (visited + 1) (visit c market index
        (a.visit visited))
      refine ⟨n + 1, Nat.succ_le_succ hn, ?_, hmarkets, fun _ _ => Nat.succ_pos n, hresume⟩
      rw [hvisits, visit, List.append_assoc, List.take_succ_cons, List.map_cons, List.singleton_append]

/-- A cycle that no shutdown cuts short visits a block of the rotation. -/
theorem updateCycle_visits [FloatOps] (hstop : ∀ n, a.stop n = false) (hpos : 0 < om.total) :
    ∃ n, 0 < n ∧ n ≤ om.total ∧
      (om.updateCycle a).visits = (List.range n).map (fun i => (om.resume + i) % om.total) ∧
      (om.updateCycle a).manager.markets = om.markets ∧
      (om.updateCycle a).manager.resumeFrom =
        if n = om.total then 0 else (om.resume + n) % om.total := by
  obtain ⟨n, hn, hvisits, hmarkets, hfirst, hresume⟩ := cycleFrom_visits hstop om.total 0 om.rotation
    { manager := { om with resumeFrom := 0 } }
  rw [length_rotation] at hn hfirst
  refine ⟨n, hfirst rfl hpos, hn, ?_, hmarkets, ?_⟩
  · rw [updateCycle, hvisits, List.nil_append]
    refine List.ext_getElem? fun i => ?_
    rw [List.getElem?_map, List.getElem?_map, List.getElem?_take]
    split
    · rename_i hi
      rw [rotation_getElem? (by omega), List.getElem?_range hi]
      rfl
    · rename_i hi
      rw [List.getElem?_eq_none (by simpa using hi)]
      rfl
  · rw [updateCycle, hresume]
    split
    · rename_i hall
      rw [List.getElem?_eq_none (by rw [length_rotation]; omega)]
      rfl
    · rw [rotation_getElem? (by omega)]
      rfl

/-- The cycles one after the other. -/
def runCycles [FloatOps] (om : GridManager) (cycles : List CycleAnswers) : GridManager :=
  cycles.foldl (fun om a => (om.updateCycle a).manager) om

theorem markets_runCycles [FloatOps] {cycles : List CycleAnswers} (hstop : ∀ a ∈ cycles, ∀ n, a.stop n = false)
    (hpos : 0 < om.total) : (om.runCycles cycles).markets = om.markets := by
  induction cycles generalizing om with
  | nil => rfl
  | cons a cycles ih =>
    obtain ⟨-, -, -, -, hmarkets, -⟩ := updateCycle_visits (hstop a List.mem_cons_self) hpos
    have hpos' : 0 < (om.updateCycle a).manager.total := by rw [total, hmarkets]; exact hpos
    exact (ih (fun a ha => hstop a (List.mem_cons_of_mem _ ha)) hpos').trans hmarkets

/-- A market that a cycle leaves out is nearer to its turn in the next. -/
theorem updateCycle_turn [FloatOps] (hstop : ∀ n, a.stop n = false) {j : Nat} (hj : j < om.total) :
    j ∈ (om.updateCycle a).visits ∨ (om.updateCycle a).manager.markets = om.markets ∧
      ∃ n, 0 < n ∧ n ≤ wait om.total om.resume j ∧
        (om.updateCycle a).manager.resume = (om.resume + n) % om.total := by
  have hpos : 0 < om.total := by omega
  obtain ⟨n, hn, hle, hvisits, hmarkets, hresume⟩ := updateCycle_visits hstop hpos
  rcases Nat.lt_or_ge (wait om.total om.resume j) n with hserved | hwaits
  · refine .inl ?_
    rw [hvisits, List.mem_map]
    exact ⟨_, List.mem_range.mpr hserved, turn_wait (resume_lt hpos) hj⟩
  · refine .inr ⟨hmarkets, n, hn, hwaits, ?_⟩
    have hlt : n ≠ om.total := fun heq => by
      have hwait : wait om.total om.resume j < om.total := wait_lt hpos
      omega
    rw [if_neg hlt] at hresume
    have htotal : (om.updateCycle a).manager.total = om.total := congrArg List.length hmarkets
    rw [resume, hresume, htotal]
    exact if_pos (Nat.mod_lt _ hpos)

/-- No market is starved, whatever the deadlines and the clocks: of as many cycles as there are
markets, one visits the market; and no cycle visits a market twice. -/
theorem cycles_visit_all [FloatOps] {om : GridManager} {cycles : List CycleAnswers}
    (hstop : ∀ a ∈ cycles, ∀ n, a.stop n = false) (hmany : om.markets.length ≤ cycles.length)
    {j : Nat} (hj : j < om.markets.length) :
    (∃ before a after, cycles = before ++ a :: after ∧
      j ∈ ((om.runCycles before).updateCycle a).visits) ∧
      ∀ before a after, cycles = before ++ a :: after →
        ((om.runCycles before).updateCycle a).visits.Nodup := by
  have hj' : j < om.total := hj
  have hpos : 0 < om.total := Nat.lt_of_le_of_lt (Nat.zero_le j) hj
  refine ⟨?_, fun before a after hcycles => ?_⟩
  · refine served_of_rounds resume (fun om a => (om.updateCycle a).manager)
      (fun om a j => j ∈ (om.updateCycle a).visits) (fun om' => om'.markets = om.markets) cycles om hj'
      rfl (fun om' hsame => ?_) (fun om' hsame a ha => ?_) ((wait_lt hpos).trans_le hmany)
    · have htotal : om'.total = om.total := congrArg List.length hsame
      exact htotal ▸ resume_lt (htotal ▸ hpos)
    · have htotal : om'.total = om.total := congrArg List.length hsame
      have hlt : j < om'.total := hj.trans_eq htotal.symm
      rcases updateCycle_turn (hstop a ha) hlt with hin | ⟨hmarkets, hturn⟩
      · exact .inl hin
      · exact .inr ⟨hmarkets.trans hsame, htotal ▸ hturn⟩
  · have hbefore : ∀ a ∈ before, ∀ n, a.stop n = false := fun a ha =>
      hstop a (hcycles ▸ List.mem_append_left _ ha)
    have htotal : (om.runCycles before).total = om.total :=
      congrArg List.length (markets_runCycles hbefore hpos)
    have hpos' : 0 < (om.runCycles before).total := htotal ▸ hpos
    obtain ⟨n, -, hn, hvisits, -, -⟩ := updateCycle_visits
      (hstop a (hcycles ▸ List.mem_append_right _ List.mem_cons_self)) hpos'
    rw [hvisits]
    exact nodup_turns hn

section Example

attribute [local instance] Binary64.ops

/-- A visit whose price fetch fails. -/
def failingVisit : VisitAnswers where
  now := 0
  stop _ := false
  balances := []
  balancesSetAt := none
  balanceStaleAfterSecs := 0
  pricedAt := 0
  feeReserveCc := 0
  shapedBefore := []
  shaped := []
  shapeChanged := false
  price := .error "unavailable"
  orders := .ok []
  tick := 1
  retryOrder ids := ids
  retryOrder_perm ids := .refl ids
  retried _ := true
  cancel _ := true
  place _ := .failed

def twoMarkets : GridManager where
  markets := [⟨"CC-USDC", [⟨-1, "1"⟩], [], 1⟩, ⟨"BTC-USDC", [⟨-1, "1"⟩], [], 1⟩]
  grids _ := {}

/-- Each cycle is late after its first market. -/
def lateCycle : CycleAnswers := ⟨fun _ => false, fun _ => 1, 1, fun _ => failingVisit⟩

/-- Two cycles that are both late visit the second market too. -/
theorem twoMarkets_visits_all : (∃ before a after, [lateCycle, lateCycle] = before ++ a :: after ∧
    1 ∈ ((twoMarkets.runCycles before).updateCycle a).visits) ∧
      ∀ before a after, [lateCycle, lateCycle] = before ++ a :: after →
        ((twoMarkets.runCycles before).updateCycle a).visits.Nodup :=
  cycles_visit_all (by simp [lateCycle]) (by decide) (by decide)

end Example

end GridManager

end BookAgent.AgentLogic
