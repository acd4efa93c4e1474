import BookAgent.Lib.Fallible
import BookAgent.Lib.Text
import BookAgent.TxVerifier.Proto
import Mathlib.Data.List.Sort

/-!
# The three-layer transaction hash

`compute_final_hash` and everything below it, as functions to the bytes they
append to the accumulator. SHA-256 is a parameter from byte strings to 32-byte
digests, and so is hexadecimal text.

The nesting counters run downwards here: `left` is the number of levels still
allowed, so `left = MAX + 1 - depth`, the walk starts at `left = MAX`
(`depth = 1`) and `depth > MAX` is `left = 0`.
-/

namespace BookAgent.TxVerifier

open BookAgent.Lib

/-- A 32-byte hash (`[u8; 32]`). -/
abbrev Digest := { b : Bytes // b.length = 32 }

/-! ## Constants -/

/-- `HashPurpose.PreparedSubmission = 48`. -/
def hashPurpose : Bytes := [0x00, 0x00, 0x00, 0x30]

def nodeEncodingV1 : UInt8 := 0x01
def metadataEncodingV1 : UInt8 := 0x01

/-- Scheme version of the final hash, V2 also over V3 metadata. -/
def hashingSchemeV2 : UInt8 := 0x02

/-- Deepest node nesting followed (roots are level 1). -/
def maxNodeDepth : Nat := 256

/-- Deepest value nesting encoded (a top-level value is level 1). -/
def maxValueDepth : Nat := 128

def createTag : UInt8 := 0x00
def exerciseTag : UInt8 := 0x01
def fetchTag : UInt8 := 0x02
def rollbackTag : UInt8 := 0x03

def unitTag : UInt8 := 0x00
def boolTag : UInt8 := 0x01
def int64Tag : UInt8 := 0x02
def numericTag : UInt8 := 0x03
def timestampTag : UInt8 := 0x04
def dateTag : UInt8 := 0x05
def partyTag : UInt8 := 0x06
def textTag : UInt8 := 0x07
def contractIdTag : UInt8 := 0x08
def optionalTag : UInt8 := 0x09
def listTag : UInt8 := 0x0A
def textMapTag : UInt8 := 0x0B
def recordTag : UInt8 := 0x0C
def variantTag : UInt8 := 0x0D
def enumTag : UInt8 := 0x0E
def genMapTag : UInt8 := 0x0F

/-! ## Accumulator -/

section Acc

variable [Hex]

def boolVal (v : Bool) : Bytes := [if v then 1 else 0]

def i32Val (v : Int32) : Bytes := beBytes 4 v.toUInt32.toNat

def i64Val (v : Int64) : Bytes := beBytes 8 v.toUInt64.toNat

/-- A proto `uint32` as a signed `i32`. -/
def u32Val (v : UInt32) : Bytes := i32Val v.toInt32

/-- A proto `uint64` as a signed `i64`. -/
def u64Val (v : UInt64) : Bytes := i64Val v.toInt64

/-- `n as i32`: the low 32 bits of a length. -/
def lenAsI32 (n : Nat) : Int32 := (UInt32.ofNat n).toInt32

/-- Length-prefixed bytes. -/
def bytesVal (b : Bytes) : Bytes := i32Val (lenAsI32 b.length) ++ b

/-- Length-prefixed UTF-8 string. -/
def strVal (s : String) : Bytes := i32Val (lenAsI32 (utf8 s).length) ++ utf8 s

/-- The first `n` characters of a string. -/
def short (s : String) (n : Nat) : String := String.ofList (s.toList.take n)

/-- Length-prefixed bytes of a hexadecimal string. -/
def hexBytes (s : String) : Except String Bytes := do
  let decoded ← context s!"invalid hex: {short s 20}..." (Hex.decode s)
  return bytesVal decoded

/-- The sorted strings as a repeated string. -/
def stringSet (vals : List String) : Bytes :=
  let sorted := vals.insertionSort (· ≤ ·)
  i32Val (lenAsI32 sorted.length) ++ (sorted.map strVal).flatten

/-- `0x01` and the encoding, or `0x00`. -/
def optionalVal {α : Type} (enc : α → Bytes) : Option α → Bytes
  | some a => 0x01 :: enc a
  | none => [0x00]

end Acc

/-! ## Identifiers and values -/

section Values

variable [Hex]

/-- A dotted name as a repeated string. -/
def dottedVal (s : String) : Bytes :=
  i32Val (lenAsI32 (splitDots s).length) ++ ((splitDots s).map strVal).flatten

def encodeIdentifier (id : Identifier) : Bytes :=
  strVal id.packageId ++ (dottedVal id.moduleName ++ dottedVal id.entityName)

def encodeOptionalIdentifier (id : Option Identifier) : Bytes :=
  optionalVal encodeIdentifier id

/-- Label of a record field; the empty label stands for none. -/
def encodeLabel (label : String) : Bytes :=
  if label = "" then [0x00] else 0x01 :: strVal label

/-- `encode_value_at` with `left` levels still allowed. -/
def encodeValueAt : (left : Nat) → Value → Except String Bytes
  | 0, _ => .error s!"value nesting exceeds {maxValueDepth} levels"
  | next + 1, value =>
    match value with
    | .unset => .error "Value has no sum field set"
    | .unit => .ok [unitTag]
    | .bool b => .ok (boolTag :: boolVal b)
    | .int64 v => .ok (int64Tag :: i64Val v)
    | .numeric s => .ok (numericTag :: strVal s)
    | .timestamp v => .ok (timestampTag :: i64Val v)
    | .date v => .ok (dateTag :: i32Val v)
    | .party s => .ok (partyTag :: strVal s)
    | .text s => .ok (textTag :: strVal s)
    | .contractId hexStr => do
      let b ← hexBytes hexStr
      return contractIdTag :: b
    | .optional (some inner) => do
      let b ← encodeValueAt next inner
      return optionalTag :: 0x01 :: b
    | .optional none => .ok [optionalTag, 0x00]
    | .list elements => do
      let bs ← elements.mapM (encodeValueAt next)
      return listTag :: (i32Val (lenAsI32 elements.length) ++ bs.flatten)
    | .textMap entries => do
      let bs ← entries.mapM fun entry => do
        let v ← context "TextMap entry missing value" entry.value
        let b ← encodeValueAt next v
        return strVal entry.key ++ b
      return textMapTag :: (i32Val (lenAsI32 entries.length) ++ bs.flatten)
    | .record r => do
      let bs ← r.fields.mapM fun field => do
        let v ← context "Record field missing value" field.value
        let b ← encodeValueAt next v
        return encodeLabel field.label ++ b
      return recordTag :: (encodeOptionalIdentifier r.recordId ++
        (i32Val (lenAsI32 r.fields.length) ++ bs.flatten))
    | .variant variantId constructor value => do
      let v ← context "Variant missing value" value
      let b ← encodeValueAt next v
      return variantTag :: (encodeOptionalIdentifier variantId ++ (strVal constructor ++ b))
    | .enum enumId constructor =>
      .ok (enumTag :: (encodeOptionalIdentifier enumId ++ strVal constructor))
    | .genMap entries => do
      let bs ← entries.mapM fun entry => do
        let k ← context "GenMap entry missing key" entry.key
        let kb ← encodeValueAt next k
        let v ← context "GenMap entry missing value" entry.value
        let vb ← encodeValueAt next v
        return kb ++ vb
      return genMapTag :: (i32Val (lenAsI32 entries.length) ++ bs.flatten)

def encodeValue (value : Value) : Except String Bytes := encodeValueAt maxValueDepth value

end Values

/-! ## Node encoding -/

section Nodes

variable [Hex]

/-- Seeds by node id. -/
abbrev SeedMap := AList fun _ : String => Bytes

/-- Seeds keyed by the decimal text of their node id; the first entry for an
id wins. -/
def buildSeedMap (nodeSeeds : List NodeSeed) : SeedMap :=
  nodeSeeds.foldl (fun map ns =>
    let id := toString ns.nodeId.toInt
    if id ∈ map then map else map.insert id ns.seed) ∅

/-- Lookup tables of one transaction. The ids already hashed (`seen`) are
threaded through the walk. -/
structure NodeWalk where
  nodes : NodesDict
  seeds : SeedMap

/-- A Create node without the node encoding version, for transaction nodes and
for disclosed contracts. The seed is raw bytes, without its length. -/
def encodeCreateNode (create : Create) (seed : Option Bytes) : Except String Bytes := do
  let cid ← hexBytes create.contractId
  let tid ← context "Create missing template_id" create.templateId
  let arg ← context "Create missing argument" create.argument
  let argument ← encodeValue arg
  return strVal create.lfVersion ++ (createTag :: (optionalVal id seed ++ (cid ++
    (strVal create.packageName ++ (encodeIdentifier tid ++ (argument ++
    (stringSet create.signatories ++ stringSet create.stakeholders)))))))

/-- The optional result of an exercise. -/
def encodeResult : Option Value → Except String Bytes
  | some v => do
    let b ← encodeValue v
    return 0x01 :: b
  | none => .ok [0x00]

/-- An Exercise node; `encodeChildren` is `encode_node_ids` one level down. -/
def encodeExerciseNode
    (encodeChildren : List String → List String → Except String (Bytes × List String))
    (exercise : Exercise) (nodeId : String) (walk : NodeWalk) (seen : List String) :
    Except String (Bytes × List String) := do
  let seed ← context "Exercise node must have a seed" (walk.seeds.lookup nodeId)
  let cid ← hexBytes exercise.contractId
  let tid ← context "Exercise missing template_id" exercise.templateId
  let chosen ← context "Exercise missing chosen_value" exercise.chosenValue
  let chosenValue ← encodeValue chosen
  let result ← encodeResult exercise.exerciseResult
  let (children, seen) ← encodeChildren exercise.children seen
  return (strVal exercise.lfVersion ++ (exerciseTag :: (seed ++ (cid ++
    (strVal exercise.packageName ++ (encodeIdentifier tid ++
    (stringSet exercise.signatories ++ (stringSet exercise.stakeholders ++
    (stringSet exercise.actingParties ++ (encodeOptionalIdentifier exercise.interfaceId ++
    (strVal exercise.choiceId ++ (chosenValue ++ (boolVal exercise.consuming ++
    (result ++ (stringSet exercise.choiceObservers ++ children)))))))))))))), seen)

def encodeFetchNode (fetch : Fetch) : Except String Bytes := do
  let cid ← hexBytes fetch.contractId
  let tid ← context "Fetch missing template_id" fetch.templateId
  return strVal fetch.lfVersion ++ (fetchTag :: (cid ++ (strVal fetch.packageName ++
    (encodeIdentifier tid ++ (stringSet fetch.signatories ++ (stringSet fetch.stakeholders ++
    (encodeOptionalIdentifier fetch.interfaceId ++ stringSet fetch.actingParties)))))))

/-- A Rollback node; it has no `lf_version`. -/
def encodeRollbackNode
    (encodeChildren : List String → List String → Except String (Bytes × List String))
    (rollback : Rollback) (seen : List String) : Except String (Bytes × List String) := do
  let (children, seen) ← encodeChildren rollback.children seen
  return (rollbackTag :: children, seen)

/-- The dispatch of `hash_node` on the node type. -/
def encodeNodeType
    (encodeChildren : List String → List String → Except String (Bytes × List String))
    (nodeType : NodeType) (nodeId : String) (walk : NodeWalk) (seen : List String) :
    Except String (Bytes × List String) :=
  match nodeType with
  | .create create => (·, seen) <$> encodeCreateNode create (walk.seeds.lookup nodeId)
  | .exercise exercise => encodeExerciseNode encodeChildren exercise nodeId walk seen
  | .fetch fetch => (·, seen) <$> encodeFetchNode fetch
  | .rollback rollback => encodeRollbackNode encodeChildren rollback seen

/-- What `hash_node` accumulates before it hashes. -/
def nodeBytes
    (encodeChildren : List String → List String → Except String (Bytes × List String))
    (walk : NodeWalk) (node : Node) (seen : List String) :
    Except String (Bytes × List String) := do
  let versioned ← context "Node missing versioned_node" node.versionedNode
  let nodeType ← context "v1 Node missing node_type" versioned.nodeType
  let (body, seen) ← encodeNodeType encodeChildren nodeType node.nodeId walk seen
  return (nodeEncodingV1 :: body, seen)

variable (sha256 : Bytes → Digest)

def hashNode
    (encodeChildren : List String → List String → Except String (Bytes × List String))
    (walk : NodeWalk) (node : Node) (seen : List String) :
    Except String (Digest × List String) := do
  let (acc, seen) ← nodeBytes encodeChildren walk node seen
  return (sha256 acc, seen)

/-- The loop of `encode_node_ids`: each id is marked seen, looked up and hashed. -/
def hashEach
    (encodeChildren : List String → List String → Except String (Bytes × List String))
    (walk : NodeWalk) : List String → List String → Except String (Bytes × List String)
  | [], seen => .ok ([], seen)
  | nodeId :: nodeIds, seen =>
    if nodeId ∈ seen then .error s!"Node '{nodeId}' referenced more than once"
    else do
      let node ← context s!"Node '{nodeId}' not found in transaction" (walk.nodes.lookup nodeId)
      let (h, seen) ← hashNode sha256 encodeChildren walk node (nodeId :: seen)
      let (hs, seen) ← hashEach encodeChildren walk nodeIds seen
      return (h.val ++ hs, seen)

/-- `encode_node_ids` with `left` levels still allowed. -/
def encodeNodeIds (walk : NodeWalk) :
    (left : Nat) → List String → List String → Except String (Bytes × List String)
  | 0, nodeIds, seen =>
    if nodeIds ≠ [] then .error s!"transaction nesting exceeds {maxNodeDepth} levels"
    else .ok (i32Val (lenAsI32 nodeIds.length), seen)
  | left + 1, nodeIds, seen => do
    let (hs, seen) ← hashEach sha256 (encodeNodeIds walk left) walk nodeIds seen
    return (i32Val (lenAsI32 nodeIds.length) ++ hs, seen)

end Nodes

/-! ## The three layers -/

section Layers

variable [Hex]

variable (sha256 : Bytes → Digest)

def nodeWalk (tx : DamlTransaction) : NodeWalk where
  nodes := buildNodesDict tx
  seeds := buildSeedMap tx.nodeSeeds

/-- What `hash_transaction` accumulates. -/
def transactionBytes (tx : DamlTransaction) : Except String Bytes := do
  let (roots, _) ← encodeNodeIds sha256 (nodeWalk tx) maxNodeDepth tx.roots []
  return hashPurpose ++ (strVal tx.version ++ roots)

/-- Layer 1. -/
def hashTransaction (tx : DamlTransaction) : Except String Digest := do
  let acc ← transactionBytes sha256 tx
  return sha256 acc

/-- What is hashed for one disclosed contract. -/
def inputContractBytes (create : Create) : Except String Bytes := do
  let b ← encodeCreateNode create none
  return nodeEncodingV1 :: b

def encodeInputContract (ic : InputContract) : Except String Bytes := do
  let create ← context "Input contract missing v1 create" ic.contract
  let acc ← inputContractBytes create
  return u64Val ic.createdAt ++ (sha256 acc).val

/-- What `hash_metadata` accumulates. -/
def metadataBytes (metadata : Metadata) (isV3 : Bool) : Except String Bytes := do
  let submitter ← context "Metadata missing submitter_info" metadata.submitterInfo
  let contracts ← metadata.inputContracts.mapM (encodeInputContract sha256)
  return hashPurpose ++ (metadataEncodingV1 :: (stringSet submitter.actAs ++
    (strVal submitter.commandId ++ (strVal metadata.transactionUuid ++
    (u32Val metadata.mediatorGroup ++ (strVal metadata.synchronizerId ++
    (optionalVal u64Val metadata.minLedgerEffectiveTime ++
    (optionalVal u64Val metadata.maxLedgerEffectiveTime ++
    (u64Val metadata.preparationTime ++
    (i32Val (lenAsI32 metadata.inputContracts.length) ++ (contracts.flatten ++
    (if isV3 then optionalVal u64Val metadata.maxRecordTime else []))))))))))))

/-- Layer 2. -/
def hashMetadata (metadata : Metadata) (isV3 : Bool) : Except String Digest := do
  let acc ← metadataBytes sha256 metadata isV3
  return sha256 acc

/-- Whether the hashing scheme version names V3. -/
def parseHashingVersion (s : String) : Bool :=
  s = "HASHING_SCHEME_VERSION_V3" ∨ s = "V3" ∨ s = "3"

/-- What the final hash is taken over. -/
def finalBytes (txHash metaHash : Digest) : Bytes :=
  hashPurpose ++ (hashingSchemeV2 :: (txHash.val ++ metaHash.val))

/-- Layer 3. -/
def computeFinalHash (prepared : PreparedTransaction) (hashingSchemeVersion : String) :
    Except String Digest := do
  let tx ← context "PreparedTransaction missing transaction" prepared.transaction
  let metadata ← context "PreparedTransaction missing metadata" prepared.metadata
  let isV3 := parseHashingVersion hashingSchemeVersion
  let txHash ← hashTransaction sha256 tx
  let metaHash ← hashMetadata sha256 metadata isV3
  return sha256 (finalBytes txHash metaHash)

/-- The all-zero hash returned when the computation fails. -/
def sentinel : Digest := ⟨List.replicate 32 0, rfl⟩

/-- `compute_hash`; `decode` is the protobuf decoder. -/
def computeHash (decode : Bytes → Option PreparedTransaction) (preparedBytes : Bytes)
    (hashingSchemeVersion : String) : Except String Digest := do
  let prepared ← context "Failed to decode PreparedTransaction" (decode preparedBytes)
  match computeFinalHash sha256 prepared hashingSchemeVersion with
  | .ok hash => return hash
  | .error _ => return sentinel

end Layers

end BookAgent.TxVerifier
