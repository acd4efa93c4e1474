import BookAgent.TxVerifier.Inspector

/-!
# The root exercise

The exercise that the inspectors of exercises look at: the one found under the
first root id. The common checks say where the parts they hand on come from.
-/

namespace BookAgent.TxVerifier

open BookAgent.Lib Inspect

/-! ## The root exercise -/

section RootExercise

/-- The exercise under the first root id. -/
def exercisedRoot (p : PreparedTransaction) : Option Exercise :=
  p.transaction.bind fun tx =>
    (tx.roots.head?.bind fun id => (buildNodesDict tx).lookup id).bind asExercise

/-- The parties the submitter acts as. -/
def submitterActAs (p : PreparedTransaction) : List String :=
  ((p.metadata.bind (·.submitterInfo)).map (·.actAs)).getD []

/-- What the parts of a transaction are read from. -/
structure TxParts.Of (p : PreparedTransaction) (parts : TxParts) : Prop where
  transaction : p.transaction = some parts.tx
  metadata : p.metadata = some parts.metadata
  submitter : parts.metadata.submitterInfo = some parts.submitter
  nodesDict : parts.nodesDict = buildNodesDict parts.tx
  root : exercisedRoot p = some parts.rootExercise

variable {p : PreparedTransaction} {parts : TxParts} {w w' : List String}

theorem extractRootExercise_ok {opName : String}
    (h : extractRootExercise p opName w = .ok (parts, w')) : parts.Of p ∧ w' = w := by
  simp only [extractRootExercise, bind_ok, orReject_ok, pure_ok, and_assoc, exists_and_left,
    exists_eq_left] at h
  obtain ⟨tx, htx, m, hm, s, hs, id, hid, n, hn, e, he, rfl, rfl⟩ := h
  refine ⟨⟨htx, hm, hs, rfl, ?_⟩, rfl⟩
  rw [exercisedRoot, htx, Option.bind_some, hid, Option.bind_some, hn, Option.bind_some, he]

theorem TxParts.Of.mem_actAs {party : String} (h : parts.Of p)
    (hact : party ∈ parts.submitter.actAs) : party ∈ submitterActAs p := by
  rw [submitterActAs, h.metadata, Option.bind_some, h.submitter]
  exact hact

theorem asExercise_eq_some {n : Node} {e : Exercise} (h : asExercise n = some e) :
    getNodeType n = some (.exercise e) := by
  unfold asExercise at h
  split at h
  · next he => rw [he, Option.some.inj h]
  · cases h

theorem asCreate_of_exercise {n : Node} {e : Exercise} (h : asExercise n = some e) :
    asCreate n = none := by
  rw [asCreate, asExercise_eq_some h]

end RootExercise

/-! ## Values that are read or reported -/

section Reported

/-- A value that is read is right, and one that cannot be read is in the
warnings. -/
def Reported (actual : Option String) (ok : String → Bool) (unread : String)
    (warnings : List String) : Prop :=
  match actual with
  | some a => ok a = true
  | none => unread ∈ warnings

theorem Reported.mono {actual : Option String} {ok : String → Bool} {unread : String}
    {w w' : List String} (h : Reported actual ok unread w) (hw : w ⊆ w') :
    Reported actual ok unread w' := by
  cases actual with
  | none => exact hw h
  | some a => exact h

/-- Nothing is left to read where no warning was given. -/
theorem Reported.read {actual : Option String} {ok : String → Bool} {unread : String}
    (h : Reported actual ok unread []) : ∃ a, actual = some a ∧ ok a = true := by
  cases actual with
  | none => cases h
  | some a => exact ⟨a, rfl, h⟩

end Reported

/-! ## Small transactions -/

section Small

def createNode (nodeId : String) (c : Create) : Node :=
  { nodeId, versionedNode := some ⟨some (.create c)⟩ }

def exerciseNode (nodeId : String) (e : Exercise) : Node :=
  { nodeId, versionedNode := some ⟨some (.exercise e)⟩ }

/-- A Create of a template, with an empty argument. -/
def plainCreateOf (moduleName entityName : String) : Create where
  lfVersion := "2.1"
  contractId := "00"
  packageName := "app"
  templateId := some { packageId := "p", moduleName, entityName }
  argument := some (.record { recordId := none, fields := [] })
  signatories := []
  stakeholders := []

/-- A consuming exercise by one party, without an argument. -/
def plainExercise (choiceId contractId party : String) (children : List String) : Exercise where
  lfVersion := "2.1"
  contractId := contractId
  packageName := "app"
  templateId := none
  signatories := [party]
  stakeholders := [party]
  actingParties := [party]
  interfaceId := none
  choiceId := choiceId
  chosenValue := none
  consuming := true
  children := children
  exerciseResult := none
  choiceObservers := []

def recordOf (fields : List (String × Value)) : Value :=
  .record { recordId := none, fields := fields.map fun f => ⟨f.1, some f.2⟩ }

def actingFor (party : String) : Metadata where
  submitterInfo := some { actAs := [party], commandId := "cmd" }
  synchronizerId := ""
  mediatorGroup := 0
  transactionUuid := ""
  preparationTime := 0
  inputContracts := []
  minLedgerEffectiveTime := none
  maxLedgerEffectiveTime := none
  maxRecordTime := none

/-- One exercise root with the node id `0`, and the nodes below it. -/
def exercising (party : String) (e : Exercise) (below : List Node) : PreparedTransaction where
  transaction := some
    { version := "2.1", roots := ["0"], nodes := exerciseNode "0" e :: below, nodeSeeds := [] }
  metadata := some (actingFor party)

end Small

end BookAgent.TxVerifier
