import BookAgent.AgentLogic.TerminalProposals

/-!
# Syncs and collections

`sync_on_chain_contracts` merges every contract of an answer, and `collect_results` takes
every result that has come in, where an event of a run is about one. Here both are taken
whole, and a run is one of events, syncs and collections in any order.
-/

namespace BookAgent.AgentLogic

open BookAgent.Lib

def SettlementState.cid (state : SettlementState) : ContractKind → Option String
  | .dvpProposal => state.dvpProposalCid
  | .dvp => state.dvpCid
  | .allocation => state.allocationCid

/-- The result is sent. -/
def TaskPhase.isFinished : TaskPhase → Bool
  | .finished _ => true
  | _ => false

/-- A contract discovered via on-chain sync. -/
structure DiscoveredContract where
  settlementId : String
  contractId : String
  contractType : String

/-- A result to be applied. -/
structure CompletedResult where
  proposalId : String
  result : AdvanceResult
  /-- `cid_found`. -/
  found : Bool

/-- What the first pass of a collection leaves to do: the proposals that ended while their
task ran, whose reservations are to be released, and the results. -/
structure Received where
  orphaned : List String
  completed : List CompletedResult

/-- An event, or a whole sync or collection. -/
inductive ExecutorStep (D : Type)
  | event (e : ExecutorEvent D)
  /-- `due` is `sync_due`; there is no answer when the backend fails or times out. -/
  | syncOnChainContracts (due : Bool) (answer : Option (List DiscoveredContract))
  /-- `tids` are the pending tasks in the order they are asked for their results. -/
  | collectResults (tids : List Nat) (now : Int)

namespace SettlementExecutor

variable {D : Type} [ValuedAmount D]

/-! ## The sync -/

def syncContract (x : SettlementExecutor D) (contract : DiscoveredContract) : SettlementExecutor D :=
  match x.activeSettlements.lookup contract.settlementId with
  | none => x
  | some state =>
    let store (f : SettlementState → SettlementState) :=
      (x.setStage contract.settlementId f).clearFailed contract.settlementId
    if contract.contractType = "DvpProposal" ∧ state.dvpProposalCid = none then
      store fun s => { s with dvpProposalCid := some contract.contractId }
    else if contract.contractType = "Dvp" ∧ state.dvpCid = none then
      store fun s => { s with dvpCid := some contract.contractId }
    else if contract.contractType = "Allocation" ∧ state.allocationCid = none then
      store fun s => { s with allocationCid := some contract.contractId }
    else x

def syncOnChainContracts (x : SettlementExecutor D) (due : Bool)
    (answer : Option (List DiscoveredContract)) : SettlementExecutor D :=
  if x.activeSettlements.keys.isEmpty || !due then x
  else match answer with
    | none => x
    | some contracts => contracts.foldl syncContract x

/-! ## The collection -/

/-- The first pass asks a task for its result. -/
def receive (s : SettlementExecutor D × Received) (tid : Nat) : SettlementExecutor D × Received :=
  let (x, got) := s
  match x.tasks.lookup tid with
  | some ⟨pid, final, .finished result⟩ =>
    let found := cidSinceFound result final (x.activeSettlements.lookup pid)
    let x := { x with tasks := x.tasks.erase tid }.endProgress pid
    let completed := got.completed ++ [⟨pid, result, found⟩]
    match x.activeSettlements.lookup pid with
    | some state =>
      ({ x with activeSettlements := x.activeSettlements.insert pid (mergeState final state) },
        { got with completed := completed })
    | none => (x, ⟨got.orphaned ++ [pid], completed⟩)
  | some ⟨pid, _, .dropped⟩ => ({ x with tasks := x.tasks.erase tid }.endProgress pid, got)
  | _ => (x, got)

def receiveAll (x : SettlementExecutor D) (tids : List Nat) : SettlementExecutor D × Received :=
  tids.foldl receive (x, ⟨[], []⟩)

/-- What a task reserved after its proposal ended is released. -/
def releaseOrphan (x : SettlementExecutor D) (pid : String) : SettlementExecutor D :=
  (x.markFailed pid).releaseCommitment pid

/-- The last pass applies the results. -/
def applyCompleted (now : Int) (x : SettlementExecutor D) (c : CompletedResult) :
    SettlementExecutor D :=
  let x := (x.tell c.proposalId c.result).applyResult c.proposalId c.result now
  if c.found && decide (c.proposalId ∈ x.activeSettlements) then x.clearFailed c.proposalId else x

def collectResults (x : SettlementExecutor D) (tids : List Nat) (now : Int) : SettlementExecutor D :=
  let (x, got) := x.receiveAll tids
  got.completed.foldl (applyCompleted now) (got.orphaned.foldl releaseOrphan x)

def step [SignatureCrates] (x : SettlementExecutor D) : ExecutorStep D → SettlementExecutor D
  | .event e => x.apply e
  | .syncOnChainContracts due answer => x.syncOnChainContracts due answer
  | .collectResults tids now => x.collectResults tids now

/-! ## Their parts are events -/

variable {x : SettlementExecutor D}

/-- The first task that is asked is collected as by the event. -/
theorem collectResults_singleton (tid : Nat) (now : Int) :
    x.collectResults [tid] now = x.collect tid now := by
  unfold collectResults receiveAll collect takeState
  simp only [List.foldl_cons, List.foldl_nil, receive]
  rcases ht : x.tasks.lookup tid with _ | ⟨pid, final, phase⟩
  · rfl
  · cases phase with
    | finished result =>
      let asked := { x with tasks := x.tasks.erase tid }.endProgress pid
      dsimp only
      cases hactive : asked.activeSettlements.lookup pid <;> rfl
    | dropped => rfl
    | ready => rfl
    | asking shuttingDown => rfl
    | committing step => rfl
    | latching step => rfl
    | recording step => rfl
    | acting step => rfl
    | refusing => rfl
    | allocating => rfl

theorem cid_addContract_self (state : SettlementState) (kind : ContractKind) (cid : String) :
    (addContract state kind cid).cid kind = (state.cid kind).or (some cid) := by
  cases kind <;> rfl

omit [ValuedAmount D] in
theorem setStage_congr {pid : String} {state : SettlementState}
    {f g : SettlementState → SettlementState}
    (hactive : x.activeSettlements.lookup pid = some state) (h : f state = g state) :
    x.setStage pid f = x.setStage pid g := by
  unfold setStage
  rw [hactive]
  dsimp only
  rw [h]

omit [ValuedAmount D] in
/-- A contract of a kind that the entry has none of is taken. -/
theorem contractFound_of_new {pid cid : String} {kind : ContractKind} {state : SettlementState}
    (hactive : x.activeSettlements.lookup pid = some state) (hnew : state.cid kind = none) :
    x.contractFound pid kind cid
      = (x.setStage pid fun s => addContract s kind cid).clearFailed pid := by
  have changed : addContract state kind cid ≠ state := by
    intro same
    have taken := cid_addContract_self state kind cid
    rw [same, hnew] at taken
    cases taken
  unfold contractFound
  rw [hactive]
  exact if_neg changed

omit [ValuedAmount D] in
/-- Merging a contract is the event that finds it, or nothing. -/
theorem syncContract_eq (c : DiscoveredContract) : x.syncContract c = x ∨
    ∃ kind, x.syncContract c = x.contractFound c.settlementId kind c.contractId := by
  unfold syncContract
  split
  · exact .inl rfl
  · rename_i state hactive
    -- `f` stores the contract as the event does
    have merged (kind : ContractKind) (f : SettlementState → SettlementState)
        (hnew : state.cid kind = none) (hf : f state = addContract state kind c.contractId) :
        (x.setStage c.settlementId f).clearFailed c.settlementId
          = x.contractFound c.settlementId kind c.contractId := by
      rw [contractFound_of_new hactive hnew,
        setStage_congr (g := fun s => addContract s kind c.contractId) hactive hf]
    dsimp only
    split_ifs with hproposal hdvp hallocation
    · exact .inr ⟨_, merged .dvpProposal _ hproposal.2 (by simp [addContract, hproposal.2])⟩
    · exact .inr ⟨_, merged .dvp _ hdvp.2 (by simp [addContract, hdvp.2])⟩
    · exact .inr ⟨_, merged .allocation _ hallocation.2 (by simp [addContract, hallocation.2])⟩
    · exact .inl rfl

/-- A sync is a run of events that each find a contract. -/
theorem reachable_sync [SignatureCrates] (due : Bool) (answer : Option (List DiscoveredContract)) :
    Reachable (fun _ e => ∃ pid kind cid, e = .contractFound pid kind cid) apply x
      (x.syncOnChainContracts due answer) := by
  have merged (contracts : List DiscoveredContract) : Reachable
      (fun _ e => ∃ pid kind cid, e = .contractFound pid kind cid) apply x
      (contracts.foldl syncContract x) := by
    induction contracts using List.reverseRecOn with
    | nil => exact .start
    | append_singleton contracts c ih =>
      rw [List.foldl_append, List.foldl_cons, List.foldl_nil]
      rcases syncContract_eq (x := contracts.foldl syncContract x) c with same | ⟨kind, found⟩
      · rw [same]
        exact ih
      · rw [found]
        exact ih.step ⟨_, kind, _, rfl⟩
  unfold syncOnChainContracts
  split
  · exact .start
  · split
    · exact .start
    · exact merged _

/-! ## The tasks they leave -/

section Tasks

variable {i tid : Nat} {tids : List Nat} {now : Int} {t : SettlementTask}

omit [ValuedAmount D] in
/-- A task that is asked and has finished is gone. -/
theorem lookup_receive {s : SettlementExecutor D × Received}
    (h : (receive s tid).1.tasks.lookup i = some t) :
    s.1.tasks.lookup i = some t ∧ (i = tid → t.phase.isFinished = false) := by
  have of_erase (h : (s.1.tasks.erase tid).lookup i = some t) :
      s.1.tasks.lookup i = some t ∧ (i = tid → t.phase.isFinished = false) := by
    refine ⟨Pool.lookup_of_erase h, ?_⟩
    rintro rfl
    rw [AList.lookup_erase] at h
    cases h
  unfold receive at h
  dsimp only at h
  split at h
  · split at h <;> exact of_erase h
  · exact of_erase h
  · rename_i hfinished _
    refine ⟨h, ?_⟩
    rintro rfl
    obtain ⟨pid, state, phase⟩ := t
    cases phase with
    | finished result => exact (hfinished pid state result h).elim
    | _ => rfl

omit [ValuedAmount D] in
theorem lookup_foldl_receive {s : SettlementExecutor D × Received}
    (h : (tids.foldl receive s).1.tasks.lookup i = some t) :
    s.1.tasks.lookup i = some t ∧ (i ∈ tids → t.phase.isFinished = false) := by
  induction tids generalizing s with
  | nil => exact ⟨h, fun hmem => absurd hmem List.not_mem_nil⟩
  | cons tid tids ih =>
    obtain ⟨hafter, hasked⟩ := ih h
    obtain ⟨hbefore, hfirst⟩ := lookup_receive hafter
    refine ⟨hbefore, fun hmem => ?_⟩
    rcases List.mem_cons.mp hmem with heq | hmem
    · exact hfirst heq
    · exact hasked hmem

omit [ValuedAmount D] in
theorem nextTask_receive (s : SettlementExecutor D × Received) :
    (receive s tid).1.nextTask = s.1.nextTask := by
  unfold receive
  dsimp only
  split
  · split <;> rfl
  · rfl
  · rfl

theorem tasks_applyResult {pid : String} {result : AdvanceResult} :
    (x.applyResult pid result now).tasks = x.tasks := by
  have stage (f : SettlementState → SettlementState) : (x.setStage pid f).tasks = x.tasks := by
    unfold setStage
    split <;> rfl
  have failed (count : Nat) : (x.applyFailure pid count now).tasks = x.tasks := by
    unfold applyFailure
    split
    · unfold giveUp cancelIfPreAllocation
      simp only [clearFailed, deactivate, reject, markFailed, releaseCommitment, note]
    · rfl
  cases result with
  | stepCompleted => exact stage _
  | preconfirmed => exact stage _
  | rejected => rfl
  | terminal => rfl
  | wait => rfl
  | error e => exact failed _
  | timeout => exact failed _
  | needsAllocate => rfl

theorem tasks_applyCompleted (c : CompletedResult) :
    (x.applyCompleted now c).tasks = x.tasks := by
  have kept : ((x.tell c.proposalId c.result).applyResult c.proposalId c.result now).tasks = x.tasks :=
    tasks_applyResult
  unfold applyCompleted
  dsimp only
  split <;> exact kept

theorem nextTask_applyCompleted (c : CompletedResult) :
    (x.applyCompleted now c).nextTask = x.nextTask := by
  have told : Tallies x (x.tell c.proposalId c.result) := Tallies.refl.note fun _ => rfl
  have kept : Tallies x ((x.tell c.proposalId c.result).applyResult c.proposalId c.result now) :=
    told.applyResult
  unfold applyCompleted
  dsimp only
  split <;> exact kept.nextTask

/-- The tasks are taken in the first pass. -/
theorem tasks_collectResults : (x.collectResults tids now).tasks = (x.receiveAll tids).1.tasks ∧
    (x.collectResults tids now).nextTask = (x.receiveAll tids).1.nextTask := by
  let s := x.receiveAll tids
  have released : (s.2.orphaned.foldl releaseOrphan s.1).tasks = s.1.tasks ∧
      (s.2.orphaned.foldl releaseOrphan s.1).nextTask = s.1.nextTask :=
    List.foldlRecOn (motive := fun y : SettlementExecutor D => y.tasks = s.1.tasks ∧
      y.nextTask = s.1.nextTask) _ _ ⟨rfl, rfl⟩ fun y hy pid _ => hy
  refine List.foldlRecOn (motive := fun y : SettlementExecutor D => y.tasks = s.1.tasks ∧
    y.nextTask = s.1.nextTask) _ _ released fun y hy c _ => ?_
  rw [tasks_applyCompleted, nextTask_applyCompleted]
  exact hy

/-- A collection leaves no result of a task that it asks. -/
theorem lookup_collectResults (h : (x.collectResults tids now).tasks.lookup i = some t) :
    x.tasks.lookup i = some t ∧ (i ∈ tids → t.phase.isFinished = false) := by
  rw [tasks_collectResults.1] at h
  exact lookup_foldl_receive h

theorem nextTask_collectResults : (x.collectResults tids now).nextTask = x.nextTask := by
  rw [tasks_collectResults.2]
  refine List.foldlRecOn (motive := fun s : SettlementExecutor D × Received =>
    s.1.nextTask = x.nextTask) _ _ rfl fun s hs tid _ => ?_
  rw [nextTask_receive]
  exact hs

end Tasks

/-- Every step leaves the numbers still to be given out free, a restart included. -/
theorem numbered_step [SignatureCrates] (h : x.Numbered) (s : ExecutorStep D) :
    (x.step s).Numbered := by
  cases s with
  | event e =>
    cases hrestart : e.isRestart with
    | false => exact numbered_apply h e hrestart
    | true =>
      cases e with
      | restart => exact (justStarted_restart ..).orderly.numbered
      | _ => cases hrestart
  | syncOnChainContracts due answer =>
    refine (reachable_sync due answer).invariant Numbered h fun y e hy he => ?_
    obtain ⟨pid, kind, cid, rfl⟩ := he
    exact numbered_apply hy _ rfl
  | collectResults tids now =>
    intro tid hmem
    obtain ⟨t, ht⟩ := Pool.mem_iff_lookup.mp hmem
    have hnext : (x.step (.collectResults tids now)).nextTask = x.nextTask := nextTask_collectResults
    rw [hnext]
    exact h tid (Pool.mem_iff_lookup.mpr ⟨t, (lookup_collectResults ht).1⟩)

end SettlementExecutor

end BookAgent.AgentLogic
