import BookAgent.TxVerifier.Hasher
import Mathlib.Data.Multiset.Basic

/-!
# What a prepared transaction commits to

The content of a transaction, free of its representation: contract ids are
bytes, party lists are multisets, the nodes below the roots form a forest in
which node ids no longer occur, and unreachable nodes are gone. `commitment`
reads it off a `PreparedTransaction`; it exists whenever the hash does.
-/

namespace BookAgent.TxVerifier

open BookAgent.Lib

/-! ## Content types -/

/-- A Daml value whose members are all present. -/
inductive LfValue where
  | unit
  | bool (b : Bool)
  | int64 (v : Int64)
  | numeric (s : String)
  | timestamp (v : Int64)
  | date (v : Int32)
  | party (s : String)
  | text (s : String)
  | contractId (cid : Bytes)
  | optional (value : Option LfValue)
  | list (elements : List LfValue)
  | textMap (entries : List (String × LfValue))
  | record (recordId : Option Identifier) (fields : List (String × LfValue))
  | variant (variantId : Option Identifier) (constructor : String) (value : LfValue)
  | enum (enumId : Option Identifier) (constructor : String)
  | genMap (entries : List (LfValue × LfValue))

structure CreateContent where
  lfVersion : String
  contractId : Bytes
  packageName : String
  templateId : Identifier
  argument : LfValue
  signatories : Multiset String
  stakeholders : Multiset String

structure ExerciseContent where
  lfVersion : String
  contractId : Bytes
  packageName : String
  templateId : Identifier
  signatories : Multiset String
  stakeholders : Multiset String
  actingParties : Multiset String
  interfaceId : Option Identifier
  choiceId : String
  chosenValue : LfValue
  consuming : Bool
  exerciseResult : Option LfValue
  choiceObservers : Multiset String

structure FetchContent where
  lfVersion : String
  contractId : Bytes
  packageName : String
  templateId : Identifier
  signatories : Multiset String
  stakeholders : Multiset String
  interfaceId : Option Identifier
  actingParties : Multiset String

/-- A node with everything below it. -/
inductive NodeTree where
  | create (seed : Option Bytes) (content : CreateContent)
  | exercise (seed : Bytes) (content : ExerciseContent) (children : List NodeTree)
  | fetch (content : FetchContent)
  | rollback (children : List NodeTree)

structure MetadataContent where
  actAs : Multiset String
  commandId : String
  transactionUuid : String
  mediatorGroup : UInt32
  synchronizerId : String
  minLedgerEffectiveTime : Option UInt64
  maxLedgerEffectiveTime : Option UInt64
  preparationTime : UInt64
  inputContracts : List (UInt64 × CreateContent)
  /-- Hashed under V3 only. -/
  maxRecordTime : Option (Option UInt64)

/-- Everything the final hash stands for. -/
structure Commitment where
  version : String
  roots : List NodeTree
  metadata : MetadataContent

/-! ## Reading the content -/

section Content

variable [Hex]

/-- The meaning of a value with `left` levels of nesting still allowed. -/
def lfValueAt : (left : Nat) → Value → Option LfValue
  | 0, _ => none
  | next + 1, value =>
    match value with
    | .unset => none
    | .unit => some .unit
    | .bool b => some (.bool b)
    | .int64 v => some (.int64 v)
    | .numeric s => some (.numeric s)
    | .timestamp v => some (.timestamp v)
    | .date v => some (.date v)
    | .party s => some (.party s)
    | .text s => some (.text s)
    | .contractId s => (Hex.decode s).map .contractId
    | .optional none => some (.optional none)
    | .optional (some inner) => (lfValueAt next inner).map fun v => .optional (some v)
    | .list elements => (elements.mapM (lfValueAt next)).map .list
    | .textMap entries =>
      (entries.mapM fun e : TextMapEntry Value =>
        (e.value.bind (lfValueAt next)).map fun v => (e.key, v)).map .textMap
    | .record r =>
      (r.fields.mapM fun f : RecordField Value =>
        (f.value.bind (lfValueAt next)).map fun v => (f.label, v)).map
        (.record r.recordId)
    | .variant variantId constructor value =>
      (value.bind (lfValueAt next)).map (.variant variantId constructor)
    | .enum enumId constructor => some (.enum enumId constructor)
    | .genMap entries =>
      (entries.mapM fun e : GenMapEntry Value => (e.key.bind (lfValueAt next)).bind fun k =>
        (e.value.bind (lfValueAt next)).map fun v => (k, v)).map .genMap

def lfValue (value : Value) : Option LfValue := lfValueAt maxValueDepth value

def createContent (c : Create) : Option CreateContent := do
  let cid ← Hex.decode c.contractId
  let tid ← c.templateId
  let argument ← c.argument.bind lfValue
  return { lfVersion := c.lfVersion, contractId := cid, packageName := c.packageName,
           templateId := tid, argument, signatories := c.signatories,
           stakeholders := c.stakeholders }

/-- The optional result: `none` when it is present but has no meaning. -/
def resultContent : Option Value → Option (Option LfValue)
  | some v => (lfValue v).map some
  | none => some none

def exerciseContent (e : Exercise) : Option ExerciseContent := do
  let cid ← Hex.decode e.contractId
  let tid ← e.templateId
  let chosenValue ← e.chosenValue.bind lfValue
  let exerciseResult ← resultContent e.exerciseResult
  return { lfVersion := e.lfVersion, contractId := cid, packageName := e.packageName,
           templateId := tid, signatories := e.signatories, stakeholders := e.stakeholders,
           actingParties := e.actingParties, interfaceId := e.interfaceId,
           choiceId := e.choiceId, chosenValue, consuming := e.consuming, exerciseResult,
           choiceObservers := e.choiceObservers }

def fetchContent (f : Fetch) : Option FetchContent := do
  let cid ← Hex.decode f.contractId
  let tid ← f.templateId
  return { lfVersion := f.lfVersion, contractId := cid, packageName := f.packageName,
           templateId := tid, signatories := f.signatories, stakeholders := f.stakeholders,
           interfaceId := f.interfaceId, actingParties := f.actingParties }

/-- A node, given how the forest of its children is read. -/
def nodeTree (childForest : List String → Option (List NodeTree)) (walk : NodeWalk)
    (node : Node) : Option NodeTree :=
  match getNodeType node with
  | some (.create c) => (createContent c).map (.create (walk.seeds.lookup node.nodeId))
  | some (.exercise e) => do
    let seed ← walk.seeds.lookup node.nodeId
    let content ← exerciseContent e
    let children ← childForest e.children
    return .exercise seed content children
  | some (.fetch f) => (fetchContent f).map .fetch
  | some (.rollback r) => (childForest r.children).map .rollback
  | none => none

/-- The forest below a list of node ids, with `left` levels still allowed. -/
def forestAt (walk : NodeWalk) : (left : Nat) → List String → Option (List NodeTree)
  | 0, ids => if ids = [] then some [] else none
  | left + 1, ids =>
    ids.mapM fun id => (walk.nodes.lookup id).bind (nodeTree (forestAt walk left) walk)

def inputContent (ic : InputContract) : Option (UInt64 × CreateContent) :=
  (ic.contract.bind createContent).map fun c => (ic.createdAt, c)

def metadataContent (m : Metadata) (isV3 : Bool) : Option MetadataContent := do
  let submitter ← m.submitterInfo
  let inputContracts ← m.inputContracts.mapM inputContent
  return { actAs := submitter.actAs, commandId := submitter.commandId,
           transactionUuid := m.transactionUuid, mediatorGroup := m.mediatorGroup,
           synchronizerId := m.synchronizerId,
           minLedgerEffectiveTime := m.minLedgerEffectiveTime,
           maxLedgerEffectiveTime := m.maxLedgerEffectiveTime,
           preparationTime := m.preparationTime, inputContracts,
           maxRecordTime := if isV3 then some m.maxRecordTime else none }

/-- What a prepared transaction commits to under a hashing scheme version. -/
def commitment (p : PreparedTransaction) (hashingSchemeVersion : String) :
    Option Commitment := do
  let tx ← p.transaction
  let m ← p.metadata
  let roots ← forestAt (nodeWalk tx) maxNodeDepth tx.roots
  let metadata ← metadataContent m (parseHashingVersion hashingSchemeVersion)
  return { version := tx.version, roots, metadata }

end Content

end BookAgent.TxVerifier
