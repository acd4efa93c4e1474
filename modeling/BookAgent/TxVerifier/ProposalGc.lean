import BookAgent.TxVerifier.RootExercise

/-!
# Cancelling and rejecting a proposal

What acceptance of a direct `DvpProposal_Cancel` or `DvpProposal_Reject`
establishes. The inspector looks at the root and at its children; what lies
deeper is not looked at, and that is the only thing the guarantee depends on.
-/

namespace BookAgent.TxVerifier

open BookAgent.Lib Inspect

/-! ## What the tree creates -/

section Gc

/-- A direct archive of a proposal. -/
structure GcRequest where
  party : String
  dvpProposalCid : String
  choice : String

def gcRequest : OperationExpectation → Option GcRequest
  | .cancelDvpProposal party cid => some ⟨party, cid, "DvpProposal_Cancel"⟩
  | .rejectDvpProposal party cid => some ⟨party, cid, "DvpProposal_Reject"⟩
  | _ => none

/-- A cancel may create nothing, a reject only a `RejectedDvpProposal`. -/
def MayCreate (choice : String) (c : Create) : Prop :=
  choice = "DvpProposal_Reject" ∧ isDvpTemplate "RejectedDvpProposal" c = true

/-- The only root archives the proposal for the party, and the whole tree below
it creates nothing the choice does not allow. -/
def TouchesNothingElse (req : GcRequest) (p : PreparedTransaction) : Prop :=
  ∃ tx e, p.transaction = some tx ∧ tx.roots.length = 1 ∧ exercisedRoot p = some e ∧
    e.choiceId = req.choice ∧ e.contractId = req.dvpProposalCid ∧
    req.party ∈ e.actingParties ∧
    ∀ n c, Reaches (buildNodesDict tx) tx.roots n → asCreate n = some c → MayCreate req.choice c

/-- The nodes below the children of the root create nothing the choice does not
allow. -/
def NothingBelowChildren (req : GcRequest) (p : PreparedTransaction) : Prop :=
  ∀ tx e, p.transaction = some tx → exercisedRoot p = some e →
    ∀ id ∈ e.children, ∀ child, (buildNodesDict tx).lookup id = some child →
      ∀ n c, Reaches (buildNodesDict tx) child.childIds n → asCreate n = some c →
        MayCreate req.choice c

/-- What the inspector establishes of an accepted transaction. -/
theorem accepted_gc {p : PreparedTransaction} {req : GcRequest} {r : InspectionResult}
    (h : inspectDvpProposalGc p req.party req.dvpProposalCid req.choice = .ok r)
    (hacc : r.accepted = true) :
    ∃ tx e, p.transaction = some tx ∧ tx.roots.length = 1 ∧ exercisedRoot p = some e ∧
      e.choiceId = req.choice ∧ e.contractId = req.dvpProposalCid ∧ req.party ∈ e.actingParties ∧
      ∀ c ∈ childCreates (buildNodesDict tx) e.children, MayCreate req.choice c := by
  obtain ⟨summary, warnings, passed, -⟩ := accepted_iff.mp ⟨h, hacc⟩
  simp only [bind_ok, ensure_ok, checkActAs_ok, warnUnless_ok, checkChoice_ok, checkTemplate_ok,
    checkActingParties_ok, ensureAll_ok, pure_ok, and_assoc, exists_and_left, exists_eq_left,
    exists_const] at passed
  obtain ⟨parts, _, hparts, hroots, -, hchoice, -, hcid, hacting, hcreates, -⟩ := passed
  obtain ⟨hof, -⟩ := extractRootExercise_ok hparts
  rw [hof.nodesDict] at hcreates
  exact ⟨parts.tx, parts.rootExercise, hof.transaction, hroots, hof.root, hchoice, hcid, hacting,
    hcreates⟩

theorem mem_childCreates {dict : NodesDict} {ids : List String} {id : String} {n : Node}
    {c : Create} (hid : id ∈ ids) (hn : dict.lookup id = some n) (hc : asCreate n = some c) :
    c ∈ childCreates dict ids :=
  List.mem_filterMap.mpr ⟨id, hid, by rw [hn, Option.bind_some, hc]⟩

/-- **Exactly when an accepted archive touches nothing else.** -/
theorem touchesNothingElse_iff {decode : Bytes → Option PreparedTransaction} {bytes : Bytes}
    {e : OperationExpectation} {req : GcRequest} {r : InspectionResult}
    (he : gcRequest e = some req) (h : inspect decode bytes e = .ok r) (hacc : r.accepted = true) :
    ∃ p, decode bytes = some p ∧ (TouchesNothingElse req p ↔ NothingBelowChildren req p) := by
  obtain ⟨run, hrun, hgc⟩ : ∃ run, inspector e = some run ∧
      run = (inspectDvpProposalGc · req.party req.dvpProposalCid req.choice) := by
    cases e <;> simp only [gcRequest, reduceCtorEq, Option.some.injEq] at he <;> subst he <;>
      exact ⟨_, rfl, rfl⟩
  subst hgc
  obtain ⟨p, hp, hr⟩ := (inspect_eq_ok hrun).mp h
  obtain ⟨tx, root, htx, hroots, hroot, hchoice, hcid, hacting, hcreates⟩ := accepted_gc hr hacc
  obtain ⟨rootId, hrootId⟩ := List.length_eq_one_iff.mp hroots
  obtain ⟨rootNode, hrootNode, hex⟩ : ∃ n, (buildNodesDict tx).lookup rootId = some n ∧
      asExercise n = some root := by
    rw [exercisedRoot, htx, Option.bind_some, hrootId, List.head?_cons, Option.bind_some] at hroot
    exact Option.bind_eq_some_iff.mp hroot
  have children : rootNode.childIds = root.children := by
    rw [Node.childIds, asExercise_eq_some hex]
  refine ⟨p, hp, fun htouch => ?_, fun hbelow => ?_⟩
  · -- whatever lies below a child is reached from the root
    obtain ⟨tx', -, htx', -, -, -, -, -, hall⟩ := htouch
    obtain rfl := Option.some.inj (htx.symm.trans htx')
    intro tx' e' htx' he' id hid child hchild n c hn hc
    obtain rfl := Option.some.inj (htx.symm.trans htx')
    obtain rfl := Option.some.inj (hroot.symm.trans he')
    refine hall n c (.child (hrootId ▸ List.mem_singleton_self rootId) hrootNode ?_) hc
    rw [children]
    exact .child hid hchild hn
  · refine ⟨tx, root, htx, hroots, hroot, hchoice, hcid, hacting, fun n c hn hc => ?_⟩
    rw [hrootId] at hn
    cases hn with
    | here hid hlookup =>
      rw [List.mem_singleton.mp hid, hrootNode] at hlookup
      obtain rfl := Option.some.inj hlookup
      rw [asCreate_of_exercise hex] at hc
      cases hc
    | child hid hlookup hn =>
      rw [List.mem_singleton.mp hid, hrootNode] at hlookup
      obtain rfl := Option.some.inj hlookup
      rw [children] at hn
      cases hn with
      | here hid hchild => exact hcreates c (mem_childCreates hid hchild hc)
      | child hid hchild hn => exact hbelow tx root htx hroot _ hid _ hchild n c hn hc

end Gc

/-! ## Trees below a root -/

section Nested

def cancelNode : Node :=
  exerciseNode "0" (plainExercise "DvpProposal_Cancel" "00aa" "alice" ["1"])

def middleNode : Node := exerciseNode "1" (plainExercise "Anything" "00bb" "alice" ["2"])

def proposalNode : Node :=
  createNode "2" (plainCreateOf "Utility.Settlement.App.V1.Model.Dvp" "DvpProposal")

/-- A cancel whose only child exercises something that creates a `DvpProposal`. -/
def nestedCreate : PreparedTransaction :=
  exercising "alice" (plainExercise "DvpProposal_Cancel" "00aa" "alice" ["1"])
    [middleNode, proposalNode]

def rejectedNode : Node :=
  createNode "1" (plainCreateOf "Utility.Settlement.App.V1.Model.Dvp" "RejectedDvpProposal")

def unlockNode : Node := exerciseNode "2" (plainExercise "Unlock" "00bb" "alice" ["3"])

def archiveNode : Node := exerciseNode "3" (plainExercise "Archive" "00cc" "alice" [])

/-- A reject that creates its record and unlocks something, which archives a
third contract. -/
def recordedReject : PreparedTransaction :=
  exercising "alice" (plainExercise "DvpProposal_Reject" "00aa" "alice" ["1", "2"])
    [rejectedNode, unlockNode, archiveNode]

/-- The condition on a reject with a tree below it, where it is met. -/
theorem recordedReject_touchesNothingElse_iff :
    NothingBelowChildren ⟨"alice", "00aa", "DvpProposal_Reject"⟩ recordedReject ∧
      (TouchesNothingElse ⟨"alice", "00aa", "DvpProposal_Reject"⟩ recordedReject ↔
        NothingBelowChildren ⟨"alice", "00aa", "DvpProposal_Reject"⟩ recordedReject) := by
  constructor
  · intro tx e htx he id hid child hchild n c hn hc
    obtain rfl := Option.some.inj htx
    obtain rfl := Option.some.inj he
    have below : id = "1" ∧ child = rejectedNode ∨ id = "2" ∧ child = unlockNode := by
      rcases List.mem_cons.mp hid with rfl | hid
      · exact .inl ⟨rfl, (Option.some.inj hchild).symm⟩
      · obtain rfl := List.mem_singleton.mp hid
        exact .inr ⟨rfl, (Option.some.inj hchild).symm⟩
    rcases below with ⟨-, rfl⟩ | ⟨-, rfl⟩
    · cases hn with
      | here hmem => cases hmem
      | child hmem => cases hmem
    · cases hn with
      | here hmem hlookup =>
        -- the archive creates nothing
        obtain rfl := List.mem_singleton.mp hmem
        obtain rfl := Option.some.inj hlookup
        cases hc
      | child hmem hlookup hn =>
        obtain rfl := List.mem_singleton.mp hmem
        obtain rfl := Option.some.inj hlookup
        cases hn with
        | here hmem => cases hmem
        | child hmem => cases hmem
  · have accepted : accepts (inspect (fun _ => some recordedReject) []
        (.rejectDvpProposal "alice" "00aa")) = true := by decide +kernel
    obtain ⟨r, hr, hacc⟩ := accepts_iff.mp accepted
    obtain ⟨p, hp, hiff⟩ := touchesNothingElse_iff rfl hr hacc
    obtain rfl := Option.some.inj hp
    exact hiff

/-- The nested create passes the inspection. -/
theorem nestedCreate_accepted :
    (∃ r, inspect (fun _ => some nestedCreate) [] (.cancelDvpProposal "alice" "00aa") = .ok r ∧
      r.accepted = true) ∧
    ¬ TouchesNothingElse ⟨"alice", "00aa", "DvpProposal_Cancel"⟩ nestedCreate := by
  refine ⟨accepts_iff.mp (by decide +kernel), ?_⟩
  rintro ⟨tx, e, htx, -, -, -, -, -, hall⟩
  have root : (buildNodesDict tx).lookup "0" = some cancelNode := by
    rw [← Option.some.inj htx]
    rfl
  have middle : (buildNodesDict tx).lookup "1" = some middleNode := by
    rw [← Option.some.inj htx]
    rfl
  have proposal : (buildNodesDict tx).lookup "2" = some proposalNode := by
    rw [← Option.some.inj htx]
    rfl
  have hroots : tx.roots = ["0"] := by rw [← Option.some.inj htx]
  have reached : Reaches (buildNodesDict tx) tx.roots proposalNode :=
    hroots ▸ .child List.mem_cons_self root (.child List.mem_cons_self middle
      (.here List.mem_cons_self proposal))
  exact absurd (hall _ _ reached rfl).1 (by decide)

end Nested

end BookAgent.TxVerifier
