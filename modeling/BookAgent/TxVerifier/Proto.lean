import Mathlib.Data.List.AList

/-!
# Prepared transactions

The protobuf messages of a prepared transaction as `prost` decodes them: a
message field is an `Option`, a `oneof` is an inductive type, an unset `oneof`
is `unset` or `none`, and the scalar types keep their width. Fields that
neither the hasher nor the inspector reads (`event_blob`,
`global_key_mapping`) are left out.
-/

namespace BookAgent.TxVerifier

/-- Wire bytes (`Vec<u8>`). -/
abbrev Bytes := List UInt8

/-- Dot-separated identifier of a template, an interface or a data type. -/
structure Identifier where
  packageId : String
  moduleName : String
  entityName : String
deriving DecidableEq

/-- A labelled field of a record; the value may be missing on the wire. -/
structure RecordField (V : Type) where
  label : String
  value : Option V

structure Record (V : Type) where
  recordId : Option Identifier
  fields : List (RecordField V)

structure TextMapEntry (V : Type) where
  key : String
  value : Option V

structure GenMapEntry (V : Type) where
  key : Option V
  value : Option V

/-- A Daml value: the sixteen members of the `sum` oneof, and `unset` for a
message whose oneof is not set. -/
inductive Value where
  | unset
  | unit
  | bool (b : Bool)
  | int64 (v : Int64)
  | numeric (s : String)
  | timestamp (v : Int64)
  | date (v : Int32)
  | party (s : String)
  | text (s : String)
  | contractId (s : String)
  | optional (value : Option Value)
  | list (elements : List Value)
  | textMap (entries : List (TextMapEntry Value))
  | record (r : Record Value)
  | variant (variantId : Option Identifier) (constructor : String) (value : Option Value)
  | enum (enumId : Option Identifier) (constructor : String)
  | genMap (entries : List (GenMapEntry Value))

structure Create where
  lfVersion : String
  contractId : String
  packageName : String
  templateId : Option Identifier
  argument : Option Value
  signatories : List String
  stakeholders : List String

structure Exercise where
  lfVersion : String
  contractId : String
  packageName : String
  templateId : Option Identifier
  signatories : List String
  stakeholders : List String
  actingParties : List String
  interfaceId : Option Identifier
  choiceId : String
  chosenValue : Option Value
  consuming : Bool
  children : List String
  exerciseResult : Option Value
  choiceObservers : List String

structure Fetch where
  lfVersion : String
  contractId : String
  packageName : String
  templateId : Option Identifier
  signatories : List String
  stakeholders : List String
  actingParties : List String
  interfaceId : Option Identifier

structure Rollback where
  children : List String

inductive NodeType where
  | create (c : Create)
  | exercise (e : Exercise)
  | fetch (f : Fetch)
  | rollback (r : Rollback)

/-- The `v1` member of the `versioned_node` oneof. -/
structure V1Node where
  nodeType : Option NodeType

structure Node where
  nodeId : String
  versionedNode : Option V1Node

structure NodeSeed where
  nodeId : Int32
  seed : Bytes

structure DamlTransaction where
  version : String
  roots : List String
  nodes : List Node
  nodeSeeds : List NodeSeed

structure SubmitterInfo where
  actAs : List String
  commandId : String

/-- A disclosed contract; `v1` is the only member of its `contract` oneof. -/
structure InputContract where
  contract : Option Create
  createdAt : UInt64

structure Metadata where
  submitterInfo : Option SubmitterInfo
  synchronizerId : String
  mediatorGroup : UInt32
  transactionUuid : String
  preparationTime : UInt64
  inputContracts : List InputContract
  minLedgerEffectiveTime : Option UInt64
  maxLedgerEffectiveTime : Option UInt64
  maxRecordTime : Option UInt64

structure PreparedTransaction where
  transaction : Option DamlTransaction
  metadata : Option Metadata

/-! ## Lookup by node id -/

section NodesDict

/-- Nodes by id. -/
abbrev NodesDict := AList fun _ : String => Node

/-- Nodes inserted in list order, so a later node replaces an earlier one of
the same id. -/
def buildNodesDict (tx : DamlTransaction) : NodesDict :=
  tx.nodes.foldl (fun dict n => dict.insert n.nodeId n) ∅

/-- The `NodeType` of a node, when the node carries one. -/
def getNodeType (n : Node) : Option NodeType :=
  n.versionedNode.bind (·.nodeType)

/-- Ids of the nodes an exercise or a rollback names as its children. -/
def Node.childIds (n : Node) : List String :=
  match getNodeType n with
  | some (.exercise e) => e.children
  | some (.rollback r) => r.children
  | _ => []

/-- The nodes found from a list of ids, going down through children. -/
inductive Reaches (nodes : NodesDict) : List String → Node → Prop
  | here {ids : List String} {id : String} {node : Node} :
    id ∈ ids → nodes.lookup id = some node → Reaches nodes ids node
  | child {ids : List String} {id : String} {node n : Node} :
    id ∈ ids → nodes.lookup id = some node → Reaches nodes node.childIds n →
    Reaches nodes ids n

end NodesDict

end BookAgent.TxVerifier
