import Mathlib.Data.Set.Basic
import BookAgent.AgentLogic.LeftReservations
import BookAgent.AgentLogic.TaskTurns

/-!
# Contracts once found

The ids of a proposal's contracts reach the executor in two ways: a sync merges them into
the entry, and a task brings them with the copy of the entry that it has worked on. None is
lost on the way, whatever comes between.
-/

namespace BookAgent.AgentLogic

open BookAgent.Lib

/-! ## What a state and a result know -/

/-- The kinds of contract that the state has an id of. -/
def SettlementState.contracts (state : SettlementState) : Set ContractKind :=
  {kind | (state.cid kind).isSome = true}

namespace AdvanceResult

def cid (result : AdvanceResult) (kind : ContractKind) : Option String :=
  match result, kind with
  | .stepCompleted _ dvpProposalCid _ _, .dvpProposal => dvpProposalCid
  | .stepCompleted _ _ dvpCid _, .dvp => dvpCid
  | .stepCompleted _ _ _ allocationCid, .allocation => allocationCid
  | _, _ => none

/-- The kinds of contract that the result brings an id of. -/
def contracts (result : AdvanceResult) : Set ContractKind :=
  {kind | (result.cid kind).isSome = true}

theorem contracts_applyToState (result : AdvanceResult) (state : SettlementState) :
    (result.applyToState state).contracts = result.contracts ∪ state.contracts := by
  have cids (kind : ContractKind) :
      (result.applyToState state).cid kind = (result.cid kind).or (state.cid kind) := by
    cases result <;> cases kind <;> rfl
  ext kind
  simp [contracts, SettlementState.contracts, cids, Option.isSome_or]

end AdvanceResult

namespace SettlementExecutor

theorem contracts_mergeState (final state : SettlementState) :
    (mergeState final state).contracts = final.contracts ∪ state.contracts := by
  have cids (kind : ContractKind) :
      (mergeState final state).cid kind = (final.cid kind).or (state.cid kind) := by
    cases kind <;> rfl
  ext kind
  simp [SettlementState.contracts, cids, Option.isSome_or]

theorem contracts_addContract (state : SettlementState) (kind : ContractKind) (cid : String) :
    state.contracts ⊆ (addContract state kind cid).contracts := by
  intro other hother
  cases kind <;> cases other <;>
    simp_all [SettlementState.contracts, SettlementState.cid, addContract]

variable {D : Type} [ValuedAmount D] [SignatureCrates] {x y z : SettlementExecutor D}
  {pid q : String} {kind : ContractKind}

/-- The kinds of contract that the entry of the proposal has an id of. -/
def entryContracts (x : SettlementExecutor D) (pid : String) : Set ContractKind :=
  {kind | ∃ state, x.activeSettlements.lookup pid = some state ∧ kind ∈ state.contracts}

/-- The kinds of contract that a finished task has an id of, in its state or its result. -/
def sentContracts (x : SettlementExecutor D) (pid : String) (tid : Nat) : Set ContractKind :=
  {kind | ∃ state result, x.tasks.lookup tid = some ⟨pid, state, .finished result⟩ ∧
    kind ∈ state.contracts ∪ result.contracts}

/-! ## Entries -/

omit [SignatureCrates] in
theorem activeSettlements_applyCompleted (now : Int) (c : CompletedResult) :
    (x.applyCompleted now c).activeSettlements
      = ((x.tell c.proposalId c.result).applyResult c.proposalId c.result now).activeSettlements := by
  unfold applyCompleted
  dsimp only
  split <;> rfl

/-- An entry that is left is one that was there, with the contracts it had. -/
def Retains (pid : String) (x y : SettlementExecutor D) : Prop :=
  pid ∈ y.activeSettlements →
    pid ∈ x.activeSettlements ∧ x.entryContracts pid ⊆ y.entryContracts pid

namespace Retains

omit [ValuedAmount D] [SignatureCrates]

theorem refl : Retains pid x x := fun hactive => ⟨hactive, subset_rfl⟩

theorem trans (h : Retains pid x y) (h' : Retains pid y z) : Retains pid x z := by
  intro hactive
  obtain ⟨hmid, hlater⟩ := h' hactive
  obtain ⟨hfirst, hearlier⟩ := h hmid
  exact ⟨hfirst, hearlier.trans hlater⟩

theorem of_lookup (h : y.activeSettlements.lookup pid = x.activeSettlements.lookup pid) :
    Retains pid x y := by
  intro hactive
  rw [← AList.lookup_isSome, h, AList.lookup_isSome] at hactive
  refine ⟨hactive, ?_⟩
  rintro kind ⟨state, hstate, hkind⟩
  exact ⟨state, h.trans hstate, hkind⟩

/-- Entries are dropped. -/
theorem of_erase (h : y.activeSettlements = x.activeSettlements.erase q) : Retains pid x y := by
  by_cases hpid : pid = q
  · intro hactive
    rw [h, hpid] at hactive
    exact absurd rfl (AList.mem_erase.mp hactive).1
  · refine of_lookup ?_
    rw [h, AList.lookup_erase_ne hpid]

/-- An entry is written over with one that has its contracts. -/
theorem of_insert {state state' : SettlementState} (hold : x.activeSettlements.lookup q = some state)
    (h : y.activeSettlements = x.activeSettlements.insert q state')
    (hstate : state.contracts ⊆ state'.contracts) : Retains pid x y := by
  by_cases hpid : pid = q
  · subst hpid
    refine fun _ => ⟨Pool.mem_iff_lookup.mpr ⟨state, hold⟩, ?_⟩
    rintro kind ⟨s, hs, hkind⟩
    rw [hold] at hs
    obtain rfl := Option.some.inj hs
    refine ⟨state', ?_, hstate hkind⟩
    rw [h, AList.lookup_insert]
  · refine of_lookup ?_
    rw [h, AList.lookup_insert_ne hpid]

theorem setStage {f : SettlementState → SettlementState}
    (hf : ∀ s, s.contracts ⊆ (f s).contracts) : Retains pid x (x.setStage q f) := by
  unfold SettlementExecutor.setStage
  split
  · exact refl
  · rename_i state hold
    exact of_insert hold rfl (hf state)

theorem contractFound {cid : String} : Retains pid x (x.contractFound q kind cid) := by
  unfold SettlementExecutor.contractFound
  split
  · exact refl
  · split
    · exact refl
    · exact (setStage fun s => contracts_addContract s kind cid).trans (of_lookup rfl)

theorem applyResult [ValuedAmount D] {result : AdvanceResult} {now : Int} :
    Retains pid x (x.applyResult q result now) := by
  have failed (count : Nat) : Retains pid x (x.applyFailure q count now) := by
    unfold SettlementExecutor.applyFailure
    split
    · exact of_erase (activeSettlements_giveUp now)
    · exact of_lookup rfl
  unfold SettlementExecutor.applyResult
  split
  · refine (setStage fun s => ?_).trans (of_lookup rfl)
    rw [AdvanceResult.contracts_applyToState]
    exact Set.subset_union_right
  · exact (setStage (f := fun s => { s with stage := .proposalReceived }) fun s => subset_rfl).trans
      (of_lookup rfl)
  · exact of_erase (q := q) rfl
  · exact of_erase (q := q) rfl
  · exact of_lookup rfl
  · exact failed _
  · exact failed _
  · exact refl

theorem applyCompleted [ValuedAmount D] {now : Int} {c : CompletedResult} :
    Retains pid x (x.applyCompleted now c) := by
  have told : Retains pid x (x.tell c.proposalId c.result) := of_lookup rfl
  have applied : Retains pid (x.tell c.proposalId c.result)
      ((x.tell c.proposalId c.result).applyResult c.proposalId c.result now) := applyResult
  refine (told.trans applied).trans (of_lookup ?_)
  rw [activeSettlements_applyCompleted]

theorem receive {s : SettlementExecutor D × Received} {tid : Nat} :
    Retains pid s.1 (SettlementExecutor.receive s tid).1 := by
  unfold SettlementExecutor.receive
  dsimp only
  split
  · split
    · rename_i hactive
      refine of_insert hactive rfl ?_
      rw [contracts_mergeState]
      exact Set.subset_union_right
    · exact of_lookup rfl
  · exact of_lookup rfl
  · exact refl

end Retains

/-! ## Collections -/

section Pass

variable {s : SettlementExecutor D × Received} {i tid : Nat}

omit [ValuedAmount D] [SignatureCrates]

/-- The result of an active proposal is kept to be applied, and its state merged at once. -/
theorem receive_finished {final state : SettlementState} {result : AdvanceResult}
    (ht : s.1.tasks.lookup tid = some ⟨pid, final, .finished result⟩)
    (hactive : s.1.activeSettlements.lookup pid = some state) :
    (receive s tid).1.activeSettlements = s.1.activeSettlements.insert pid (mergeState final state) ∧
      ∃ found, (receive s tid).2.completed = s.2.completed ++ [⟨pid, result, found⟩] := by
  have active : ({ s.1 with tasks := s.1.tasks.erase tid }.endProgress pid).activeSettlements.lookup pid
      = some state := hactive
  unfold receive
  dsimp only
  rw [ht]
  dsimp only
  rw [active]
  exact ⟨rfl, _, rfl⟩

theorem lookup_receive_ne (h : tid ≠ i) :
    (receive s i).1.tasks.lookup tid = s.1.tasks.lookup tid := by
  unfold receive
  dsimp only
  split
  · split <;> exact AList.lookup_erase_ne h
  · exact AList.lookup_erase_ne h
  · rfl

theorem completed_receive : s.2.completed ⊆ (receive s i).2.completed := by
  unfold receive
  dsimp only
  split
  · split <;> exact List.subset_append_left _ _
  · exact List.Subset.refl _
  · exact List.Subset.refl _

end Pass

omit [SignatureCrates] in
/-- A proposal that is left active has an entry with the contracts of the result. -/
theorem contracts_applyResult {result : AdvanceResult} {now : Int}
    (hactive : pid ∈ (x.applyResult pid result now).activeSettlements) :
    result.contracts ⊆ (x.applyResult pid result now).entryContracts pid := by
  intro kind hkind
  cases result with
  | stepCompleted stage dvpProposalCid dvpCid allocationCid =>
    obtain ⟨state, hstate⟩ := Pool.mem_iff_lookup.mp (Retains.applyResult hactive).1
    unfold applyResult setStage
    rw [hstate]
    refine ⟨_, AList.lookup_insert .., ?_⟩
    rw [AdvanceResult.contracts_applyToState]
    exact .inl hkind
  | _ => cases hkind

omit [SignatureCrates] in
theorem contracts_applyCompleted {now : Int} {c : CompletedResult}
    (hactive : c.proposalId ∈ (x.applyCompleted now c).activeSettlements) :
    c.result.contracts ⊆ (x.applyCompleted now c).entryContracts c.proposalId := by
  unfold entryContracts
  rw [activeSettlements_applyCompleted] at hactive ⊢
  exact contracts_applyResult hactive

/-- A contract of an active proposal is in its entry, or is still to get there: from its task,
or with a result that is received and not yet applied. -/
def Accounted (pid : String) (tid : Nat) (kind : ContractKind) (x : SettlementExecutor D)
    (completed : List CompletedResult) : Prop :=
  pid ∈ x.activeSettlements →
    kind ∈ x.entryContracts pid ∪ x.sentContracts pid tid ∨
      ∃ c ∈ completed, c.proposalId = pid ∧ kind ∈ c.result.contracts

namespace Accounted

variable {tid i : Nat}

omit [SignatureCrates]

omit [ValuedAmount D] in
theorem receive {s : SettlementExecutor D × Received} (h : Accounted pid tid kind s.1 s.2.completed) :
    Accounted pid tid kind (SettlementExecutor.receive s i).1
      (SettlementExecutor.receive s i).2.completed := by
  intro hactive
  obtain ⟨hbefore, hretained⟩ := Retains.receive hactive
  rcases h hbefore with (hentry | ⟨final, result, ht, hkind⟩) | ⟨c, hc, hpid, hkind⟩
  · exact .inl (.inl (hretained hentry))
  · by_cases htid : tid = i
    · subst htid
      obtain ⟨state, hstate⟩ := Pool.mem_iff_lookup.mp hbefore
      obtain ⟨hmerged, found, hcompleted⟩ := receive_finished ht hstate
      rcases hkind with hkind | hkind
      · refine .inl (.inl ⟨mergeState final state, ?_, ?_⟩)
        · rw [hmerged, AList.lookup_insert]
        · rw [contracts_mergeState]
          exact .inl hkind
      · refine .inr ⟨⟨pid, result, found⟩, ?_, rfl, hkind⟩
        rw [hcompleted]
        exact List.mem_append_right _ List.mem_cons_self
    · refine .inl (.inr ⟨final, result, ?_, hkind⟩)
      rw [lookup_receive_ne htid]
      exact ht
  · exact .inr ⟨c, completed_receive hc, hpid, hkind⟩

/-- The results are applied one after the other. -/
theorem applyCompleted {now : Int} {c : CompletedResult}
    {rest : List CompletedResult} (h : Accounted pid tid kind x (c :: rest)) :
    Accounted pid tid kind (x.applyCompleted now c) rest := by
  intro hactive
  obtain ⟨hbefore, hretained⟩ := Retains.applyCompleted hactive
  rcases h hbefore with (hentry | ⟨final, result, ht, hkind⟩) | ⟨c', hc, hpid, hkind⟩
  · exact .inl (.inl (hretained hentry))
  · refine .inl (.inr ⟨final, result, ?_, hkind⟩)
    rw [tasks_applyCompleted]
    exact ht
  · rcases List.mem_cons.mp hc with heq | hrest
    · subst heq
      subst hpid
      exact .inl (.inl (contracts_applyCompleted hactive hkind))
    · exact .inr ⟨c', hrest, hpid, hkind⟩

theorem foldl_applyCompleted {now : Int} {cs : List CompletedResult}
    (h : Accounted pid tid kind x cs) :
    Accounted pid tid kind (cs.foldl (SettlementExecutor.applyCompleted now) x) [] := by
  induction cs generalizing x with
  | nil => exact h
  | cons c cs ih => exact ih h.applyCompleted

end Accounted

omit [SignatureCrates] in
theorem Retains.collectResults {tids : List Nat} {now : Int} :
    Retains pid x (x.collectResults tids now) := by
  let s := x.receiveAll tids
  have received : Retains pid x s.1 :=
    List.foldlRecOn (motive := fun s : SettlementExecutor D × Received => Retains pid x s.1) _ _
      .refl fun s hs tid _ => hs.trans .receive
  have released : Retains pid x (s.2.orphaned.foldl releaseOrphan s.1) :=
    List.foldlRecOn _ _ received fun y hy q _ => hy.trans (.of_lookup rfl)
  exact List.foldlRecOn (motive := Retains pid x) _ _ released
    fun y hy c _ => hy.trans .applyCompleted

omit [SignatureCrates] in
/-- A collection that leaves the proposal active puts into its entry what it takes from a task. -/
theorem accounted_collectResults {tid : Nat} {tids : List Nat} {now : Int}
    (h : kind ∈ x.entryContracts pid ∪ x.sentContracts pid tid) :
    Accounted pid tid kind (x.collectResults tids now) [] := by
  let s := x.receiveAll tids
  have received : Accounted pid tid kind s.1 s.2.completed :=
    List.foldlRecOn (motive := fun s : SettlementExecutor D × Received =>
      Accounted pid tid kind s.1 s.2.completed) _ _ (fun _ => .inl h) fun s hs i _ => hs.receive
  have released : Accounted pid tid kind (s.2.orphaned.foldl releaseOrphan s.1) s.2.completed :=
    List.foldlRecOn (motive := fun y : SettlementExecutor D =>
      Accounted pid tid kind y s.2.completed) _ _ received fun y hy q _ => hy
  exact released.foldl_applyCompleted

/-! ## Events -/

/-- Every event but a collection leaves the entry of a proposal with the contracts it had, if it
leaves one. -/
theorem contracts_step {e : ExecutorEvent D} {v : ProposalView D} {state state' : SettlementState}
    (hcollect : ∀ tid now, e ≠ .collect tid now) (step : ProposalStep x pid e v)
    (hbefore : (x.view pid).active = some state) (hafter : v.active = some state') :
    state.contracts ⊆ state'.contracts := by
  have same (h : v.active = (x.view pid).active) : state.contracts ⊆ state'.contracts := by
    rw [h, hbefore] at hafter
    obtain rfl := Option.some.inj hafter
    exact subset_rfl
  have gone (h : v.active = none) : state.contracts ⊆ state'.contracts := by
    rw [h] at hafter
    cases hafter
  have new (hnew : (x.view pid).IsNew) : state.contracts ⊆ state'.contracts := by
    rw [hnew.1] at hbefore
    cases hbefore
  cases step with
  | settledBefore _ hnew => exact new hnew
  | refused _ hnew => exact new hnew
  | implausible _ hnew => exact new hnew
  | aborted _ hnew => exact new hnew
  | expired _ hnew => exact new hnew
  | resumed _ hnew => exact new hnew
  | adopted _ hnew => exact new hnew
  | settled => exact gone rfl
  | ended => exact gone rfl
  | @found kind cid old hactive =>
    rw [hbefore] at hactive
    obtain rfl := Option.some.inj hactive
    obtain rfl := Option.some.inj hafter
    exact contracts_addContract state kind cid
  | @collected tid now => exact absurd rfl (hcollect tid now)
  | @collectedDropped tid now => exact absurd rfl (hcollect tid now)
  | unconfirmed hactive hstage =>
    refine gone ?_
    split <;> rfl
  | restarted hactive => exact gone hactive
  | _ => exact same rfl

theorem entryContracts_apply (h : x.Numbered) (e : ExecutorEvent D)
    (hrestart : e.isRestart = false) (hcollect : ∀ tid now, e ≠ .collect tid now)
    (hactive : pid ∈ (x.apply e).activeSettlements) :
    x.entryContracts pid ⊆ (x.apply e).entryContracts pid := by
  rintro kind ⟨state, hstate, hkind⟩
  obtain ⟨state', hstate'⟩ := Pool.mem_iff_lookup.mp hactive
  rcases h.steps pid hrestart with same | step
  · have active : (x.apply e).activeSettlements.lookup pid = x.activeSettlements.lookup pid :=
      congrArg ProposalView.active same
    exact ⟨state, active.trans hstate, hkind⟩
  · exact ⟨state', hstate', contracts_step hcollect step hstate hstate' hkind⟩

/-! ## Runs -/

/-- The proposal stays active. -/
def StaysActive (pid : String) (x : SettlementExecutor D) (s : ExecutorStep D) : Prop :=
  pid ∈ (x.step s).activeSettlements

/-- The contracts of the entry stay there, and those of a finished task stay with it or get into
the entry. -/
structure Advances (pid : String) (x y : SettlementExecutor D) : Prop where
  entry : x.entryContracts pid ⊆ y.entryContracts pid
  sent : ∀ tid, x.sentContracts pid tid ⊆ y.entryContracts pid ∪ y.sentContracts pid tid

namespace Advances

omit [ValuedAmount D] [SignatureCrates]

theorem refl : Advances pid x x where
  entry := subset_rfl
  sent _ := Set.subset_union_right

theorem trans (h : Advances pid x y) (h' : Advances pid y z) : Advances pid x z where
  entry := h.entry.trans h'.entry
  sent tid := by
    refine (h.sent tid).trans (Set.union_subset ?_ (h'.sent tid))
    exact h'.entry.trans Set.subset_union_left

end Advances

omit [SignatureCrates] in
theorem advances_collectResults {tids : List Nat} {now : Int}
    (hactive : pid ∈ (x.collectResults tids now).activeSettlements) :
    Advances pid x (x.collectResults tids now) where
  entry := (Retains.collectResults hactive).2
  sent tid := by
    intro kind hkind
    rcases accounted_collectResults (.inr hkind) hactive with hthere | ⟨c, hc, -⟩
    · exact hthere
    · cases hc

theorem advances_apply (h : x.Numbered) (e : ExecutorEvent D)
    (hactive : pid ∈ (x.apply e).activeSettlements) : Advances pid x (x.apply e) := by
  cases hrestart : e.isRestart with
  | true =>
    cases e with
    | restart completed rejected cutoffMs config privateKey liquidityManager =>
      exact absurd hactive (AList.notMem_empty pid)
    | _ => cases hrestart
  | false =>
    by_cases hcollect : ∃ tid now, e = .collect tid now
    · obtain ⟨tid, now, rfl⟩ := hcollect
      have one : x.apply (.collect tid now) = x.collectResults [tid] now :=
        (collectResults_singleton tid now).symm
      rw [one] at hactive ⊢
      exact advances_collectResults hactive
    · have other (tid : Nat) (now : Int) : e ≠ .collect tid now :=
        fun he => hcollect ⟨tid, now, he⟩
      refine ⟨entryContracts_apply h e hrestart other hactive, ?_⟩
      rintro tid kind ⟨state, result, ht, hkind⟩
      refine .inr ⟨state, result, tasksStay_apply h e hrestart tid _ ht fun hturn => ?_, hkind⟩
      cases e with
      | collect i now => exact other i now rfl
      | dropTask i => cases hturn.2
      | _ => exact hturn

theorem advances_sync (h : x.Numbered) {due : Bool} {answer : Option (List DiscoveredContract)}
    (hactive : pid ∈ (x.syncOnChainContracts due answer).activeSettlements) :
    Advances pid x (x.syncOnChainContracts due answer) := by
  suffices inv : (x.syncOnChainContracts due answer).Numbered ∧
      (pid ∈ (x.syncOnChainContracts due answer).activeSettlements →
        Advances pid x (x.syncOnChainContracts due answer)) from inv.2 hactive
  refine (reachable_sync due answer).invariant
    (fun y => y.Numbered ∧ (pid ∈ y.activeSettlements → Advances pid x y)) ⟨h, fun _ => .refl⟩
    fun y e inv he => ?_
  obtain ⟨q, kind, cid, rfl⟩ := he
  refine ⟨numbered_apply inv.1 _ rfl, fun hafter => ?_⟩
  have hbefore : pid ∈ y.activeSettlements := (Retains.contractFound hafter).1
  exact (inv.2 hbefore).trans (advances_apply inv.1 _ hafter)

/-- A step that leaves the proposal active. -/
theorem advances_step (h : x.Numbered) (s : ExecutorStep D) (hactive : x.StaysActive pid s) :
    Advances pid x (x.step s) := by
  cases s with
  | event e => exact advances_apply h e hactive
  | syncOnChainContracts due answer => exact advances_sync h hactive
  | collectResults tids now => exact advances_collectResults hactive

/-- As long as a proposal stays active, the contracts of its entry stay there. Those of a finished
task stay with it until it is asked for its result, and are in the entry from then on. -/
theorem contracts_kept {x₀ : SettlementExecutor D} (hstart : x₀.JustStarted)
    (run : Reachable (fun _ _ => True) step x₀ x) (later : Reachable (StaysActive pid) step x y) :
    x.entryContracts pid ⊆ y.entryContracts pid ∧
      ∀ tid, x.sentContracts pid tid ⊆ y.entryContracts pid ∪ y.sentContracts pid tid ∧
        ∀ tids now, tid ∈ tids → pid ∈ (y.collectResults tids now).activeSettlements →
          x.sentContracts pid tid ⊆ (y.collectResults tids now).entryContracts pid := by
  have numbered : x.Numbered :=
    run.invariant _ hstart.orderly.numbered fun z s hz _ => numbered_step hz s
  have inv : y.Numbered ∧ Advances pid x y :=
    later.invariant (fun z => z.Numbered ∧ Advances pid x z) ⟨numbered, .refl⟩
      fun z s hz hactive => ⟨numbered_step hz.1 s, hz.2.trans (advances_step hz.1 s hactive)⟩
  refine ⟨inv.2.entry, fun tid => ⟨inv.2.sent tid, ?_⟩⟩
  intro tids now hasked hactive kind hkind
  rcases (inv.2.trans (advances_collectResults hactive)).sent tid hkind with hentry | hsent
  · exact hentry
  · obtain ⟨state, result, ht, -⟩ := hsent
    have unfinished := (lookup_collectResults ht).2 hasked
    cases unfinished

end SettlementExecutor

/-! ## A result still to be collected -/

namespace SettlementExecutor

section Example

local instance syncingCrates : SignatureCrates := signedCrates

/-- The task of the purchase has created the DVP proposal, and its result is not collected yet. -/
def proposed : SettlementExecutor Int :=
  [.event (.proposalCreated purchase (quietFeed bidding)), .event (.spawn "p" false),
    .event (.beginStep 0), .event (.answerStep 0 (.ok { feeDue with buyerNextAction := 3 }) 0),
    .event (.commitStep 0 0 noDigits), .event (.latchStep 0), .event (.actStep 0 (.ok "c") 0),
    .event (.beginStep 0), .event (.answerStep 0 (.ok { feeDue with buyerNextAction := 7 }) 0),
    .event (.actStep 0 (.error "") 0)].foldl step bidding

/-- A sync finds the Dvp of the purchase meanwhile. -/
def syncedProposed : SettlementExecutor Int :=
  proposed.step (.syncOnChainContracts true (some [⟨"p", "d", "Dvp"⟩]))

theorem reachable_proposed : Reachable (fun _ _ => True) step bidding proposed :=
  Reachable.start.foldl (by simp [Admits])

theorem active_syncedProposed : "p" ∈ syncedProposed.activeSettlements := by decide +kernel

theorem task_proposed : proposed.tasks.lookup 0 = some ⟨"p",
    { SettlementState.new purchase true with stage := .dvpProposed, dvpProposalCid := some "c" },
    .finished .wait⟩ := rfl

theorem sent_proposed : .dvpProposal ∈ proposed.sentContracts "p" 0 :=
  ⟨_, _, task_proposed, .inl rfl⟩

theorem contracts_kept_syncedProposed :
    .dvpProposal ∈ (syncedProposed.collectResults [0] 0).entryContracts "p" := by
  have started : bidding.JustStarted := ⟨rfl, rfl, rfl⟩
  have kept := contracts_kept started reachable_proposed (.step .start active_syncedProposed)
  exact (kept.2 0).2 [0] 0 List.mem_cons_self (by decide +kernel) sent_proposed

/-- The entry has no DVP proposal yet. -/
theorem proposal_not_in_entry :
    bidding.JustStarted ∧ Reachable (fun _ _ => True) step bidding proposed ∧
      .dvpProposal ∈ proposed.sentContracts "p" 0 ∧
      Reachable (StaysActive "p") step proposed syncedProposed ∧
      .dvpProposal ∉ syncedProposed.entryContracts "p" := by
  refine ⟨⟨rfl, rfl, rfl⟩, reachable_proposed, sent_proposed,
    .step .start active_syncedProposed, ?_⟩
  rintro ⟨state, hstate, hkind⟩
  have entry : (syncedProposed.activeSettlements.lookup "p").map (fun s => s.dvpProposalCid)
      = some none := by decide +kernel
  rw [hstate] at entry
  have unknown : state.dvpProposalCid = none := Option.some.inj entry
  have known : state.dvpProposalCid.isSome = true := hkind
  rw [unknown] at known
  cases known

end Example

end SettlementExecutor

end BookAgent.AgentLogic
