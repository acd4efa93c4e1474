import BookAgent.Lib.ParseFloat
import BookAgent.TxVerifier.Hasher
import BookAgent.TxVerifier.Inspection

/-!
# Transaction field inspection

The inspectors of the operations that are verified, and the dispatch of
`inspect`. An inspector reads the prepared transaction against one expectation.
-/

namespace BookAgent.TxVerifier

open BookAgent.Lib Inspect

/-! ## Value extraction -/

section Extraction

/-- The value of the first field with the label. -/
def getRecordField (record : Record Value) (label : String) : Option Value :=
  (record.fields.find? (·.label == label)).bind (·.value)

def asRecord : Value → Option (Record Value)
  | .record r => some r
  | _ => none

def getParty : Value → Option String
  | .party s => some s
  | _ => none

def getNumeric : Value → Option String
  | .numeric s => some s
  | _ => none

def getText : Value → Option String
  | .text s => some s
  | _ => none

def getContractId : Value → Option String
  | .contractId s => some s
  | _ => none

def asList : Value → Option (List Value)
  | .list l => some l
  | _ => none

/-- An `InstrumentQuantity` record. -/
structure InstrumentQuantity where
  id : Option String
  admin : Option String
  amount : Option String

def extractInstrumentQuantity (iq : Record Value) : InstrumentQuantity :=
  let instrument := (getRecordField iq "instrument").bind asRecord
  { id := (instrument.bind (getRecordField · "id")).bind getText
    admin := (instrument.bind (getRecordField · "admin")).bind getParty
    amount := (getRecordField iq "amount").bind getNumeric }

/-- Module and entity name match; the package id is ignored. -/
def templateMatches (id : Identifier) (moduleName entityName : String) : Bool :=
  id.moduleName == moduleName && id.entityName == entityName

/-- Equal texts, or binary64 readings less than `1e-9` apart. -/
def numericEq (a b : String) : Bool :=
  a == b || match parseF64 a, parseF64 b with
    | some fa, some fb => decide ((fa - fb).abs < 1e-9)
    | _, _ => false

example : numericEq "1" "1.0000000000" = true ∧ numericEq "1" "1.00000001" = false := by
  decide +kernel

end Extraction

/-! ## Nodes -/

section Nodes

def asExercise (n : Node) : Option Exercise :=
  match getNodeType n with
  | some (.exercise e) => some e
  | _ => none

def asCreate (n : Node) : Option Create :=
  match getNodeType n with
  | some (.create c) => some c
  | _ => none

def asFetch (n : Node) : Option Fetch :=
  match getNodeType n with
  | some (.fetch f) => some f
  | _ => none

/-- The first exercise of the choice among the nodes with the given ids. -/
def findExerciseByChoice (choiceId : String) (nodeIds : List String) (dict : NodesDict) :
    Option Exercise :=
  (nodeIds.filterMap fun id => (dict.lookup id).bind asExercise).find? (·.choiceId == choiceId)

/-- The create nodes among the nodes with the given ids. -/
def childCreates (dict : NodesDict) (nodeIds : List String) : List Create :=
  nodeIds.filterMap fun id => (dict.lookup id).bind asCreate

/-- Contents of a debug-printed string, escaped as `str`'s `Debug` does for ASCII. -/
def escapeDebug (c : Char) : String :=
  if c = '"' then "\\\"" else if c = '\\' then "\\\\" else if c = '\n' then "\\n"
  else if c = '\r' then "\\r" else if c = '\t' then "\\t" else if c.toNat = 0 then "\\0"
  else if c.toNat < 0x20 ∨ c.toNat = 0x7F then
    "\\u\x7b" ++ String.ofList (Nat.toDigits 16 c.toNat) ++ "\x7d"
  else String.ofList [c]

/-- `{:?}` of a list of strings. -/
def debugStrings (l : List String) : String :=
  "[" ++ ", ".intercalate (l.map fun s => "\"" ++ String.join (s.toList.map escapeDebug) ++ "\"")
    ++ "]"

def nodeSummary (tx : DamlTransaction) : String :=
  s!"{tx.nodes.length} nodes ({(tx.nodes.filterMap asExercise).length} exercise, " ++
    s!"{(tx.nodes.filterMap asFetch).length} fetch, {(tx.nodes.filterMap asCreate).length} create)"

end Nodes

/-! ## Common parts -/

section Common

structure TxParts where
  tx : DamlTransaction
  submitter : SubmitterInfo
  metadata : Metadata
  nodesDict : NodesDict
  rootExercise : Exercise

/-- The root exercise of an operation, every failure a rejection. -/
def extractRootExercise (prepared : PreparedTransaction) (opName : String) :
    Inspect TxParts := do
  let tx ← orReject prepared.transaction s!"{opName}: missing transaction"
    "PreparedTransaction missing transaction"
  let metadata ← orReject prepared.metadata s!"{opName}: missing metadata"
    "PreparedTransaction missing metadata"
  let submitter ← orReject metadata.submitterInfo s!"{opName}: missing submitter_info"
    "Metadata missing submitter_info"
  let rootId ← orReject tx.roots.head? s!"{opName}: no root nodes" "Transaction has no root nodes"
  let rootNode ← orReject ((buildNodesDict tx).lookup rootId) s!"{opName}: root node not found"
    "Root node not found in nodes dict"
  let rootExercise ← orReject (asExercise rootNode) s!"{opName}: root is not Exercise"
    "Root node is not an Exercise node"
  return { tx, submitter, metadata, nodesDict := buildNodesDict tx, rootExercise }

/-- `act_as` must hold the party; `role` and `what` are the inspector's words for it. -/
def checkActAs (submitter : SubmitterInfo) (party summary role : String) : Inspect Unit :=
  ensure (party ∈ submitter.actAs) summary
    s!"act_as {debugStrings submitter.actAs} does not contain {role} {party}"

def checkActingParties (e : Exercise) (party summary role : String) : Inspect Unit :=
  ensure (party ∈ e.actingParties) summary
    s!"acting_parties {debugStrings e.actingParties} does not contain {role} {party}"

def checkChoice (e : Exercise) (opName choice : String) : Inspect Unit :=
  ensure (e.choiceId = choice) s!"{opName}: wrong choice_id: {e.choiceId}"
    s!"Expected choice_id={choice}, got={e.choiceId}"

/-- A template that is present must match. -/
def checkTemplate (e : Exercise) (opName moduleName entityName : String) : Inspect Unit :=
  ensureValue e.templateId (templateMatches · moduleName entityName = true)
    (fun tid => s!"{opName}: wrong template: {tid.moduleName}.{tid.entityName}")
    (fun tid => s!"Expected {entityName} template, got {tid.moduleName}.{tid.entityName}")

def transferSender (transfer : Record Value) : Option String :=
  (getRecordField transfer "sender").bind getParty

def transferReceiver (transfer : Record Value) : Option String :=
  (getRecordField transfer "receiver").bind getParty

def transferAmount (transfer : Record Value) : Option String :=
  (getRecordField transfer "amount").bind getNumeric

/-- The text of `instrumentId.id` in a transfer. -/
def transferInstrument (transfer : Record Value) : Option String :=
  (((getRecordField transfer "instrumentId").bind asRecord).bind (getRecordField · "id")).bind
    getText

/-- The instrument of a transfer must be Amulet where it can be read. -/
def checkAmulet (transfer : Record Value) (opName : String) : Inspect Unit :=
  ensureOrWarn (transferInstrument transfer) (· = "Amulet")
    (fun iid => s!"{opName}: wrong instrument: {iid}")
    (fun iid => s!"instrumentId.id={iid}, expected=Amulet") "Could not extract instrumentId.id"

variable {w w' : List String} {u : Unit} {summary role opName : String}

@[simp] theorem checkActAs_ok {s : SubmitterInfo} {party : String} :
    checkActAs s party summary role w = .ok (u, w') ↔ party ∈ s.actAs ∧ w' = w :=
  ensure_ok

@[simp] theorem checkActingParties_ok {e : Exercise} {party : String} :
    checkActingParties e party summary role w = .ok (u, w') ↔
      party ∈ e.actingParties ∧ w' = w :=
  ensure_ok

@[simp] theorem checkChoice_ok {e : Exercise} {choice : String} :
    checkChoice e opName choice w = .ok (u, w') ↔ e.choiceId = choice ∧ w' = w :=
  ensure_ok

@[simp] theorem checkTemplate_ok {e : Exercise} {moduleName entityName : String} :
    checkTemplate e opName moduleName entityName w = .ok (u, w') ↔
      (∀ tid, e.templateId = some tid → templateMatches tid moduleName entityName = true) ∧
        w' = w :=
  ensureValue_ok

@[simp] theorem checkAmulet_ok {transfer : Record Value} :
    checkAmulet transfer opName w = .ok (u, w') ↔
      (∀ iid, transferInstrument transfer = some iid → iid = "Amulet") ∧
        w' = w ++ if (transferInstrument transfer).isSome then []
          else ["Could not extract instrumentId.id"] :=
  ensureOrWarn_ok

end Common

/-! ## Transfers -/

section Transfers

def inspectTransferCc (prepared : PreparedTransaction) (senderParty receiverParty expectedAmount
    expectedCommandId : String) : Except String InspectionResult := Inspect.result do
  let tx ← require "PreparedTransaction missing transaction" prepared.transaction
  let metadata ← require "PreparedTransaction missing metadata" prepared.metadata
  let submitter ← require "Metadata missing submitter_info" metadata.submitterInfo
  checkActAs submitter senderParty "TransferCc metadata check failed" "sender_party"
  warnUnless (submitter.commandId = expectedCommandId)
    s!"command_id mismatch: expected={expectedCommandId}, got={submitter.commandId}"
  let rootId ← orReject tx.roots.head? "TransferCc: no root nodes" "Transaction has no root nodes"
  let rootNode ← require "Root node not found in nodes dict" ((buildNodesDict tx).lookup rootId)
  let rootExercise ← orReject (asExercise rootNode) "TransferCc: root is not Exercise"
    "Root node is not an Exercise node"
  checkChoice rootExercise "TransferCc" "TransferFactory_Transfer"
  let tid ← orReject rootExercise.templateId "TransferCc: root exercise missing template_id"
    "Root exercise missing template_id"
  warnUnless (templateMatches tid "Splice.ExternalPartyAmuletRules" "ExternalPartyAmuletRules")
    (s!"Unexpected template: {tid.moduleName}.{tid.entityName} " ++
      "(expected Splice.ExternalPartyAmuletRules)")
  checkActingParties rootExercise senderParty "TransferCc: sender not in acting_parties" "sender"
  let chosen ← require "Root exercise missing chosen_value" rootExercise.chosenValue
  let chosenRecord ← require "chosen_value is not a Record" (asRecord chosen)
  let transferVal ← require "chosen_value missing 'transfer'" (getRecordField chosenRecord "transfer")
  let transfer ← require "'transfer' field is not a Record" (asRecord transferVal)
  ensureValue (transferSender transfer) (· = senderParty)
    (fun _ => "TransferCc: wrong sender in transfer")
    (fun sender => s!"transfer.sender={sender}, expected={senderParty}")
  ensure (getRecordField transfer "receiver").isSome "TransferCc: missing receiver field"
    "transfer record missing 'receiver' field"
  ensureValue (transferReceiver transfer) (· = receiverParty)
    (fun _ => "TransferCc: wrong receiver in transfer")
    (fun receiver => s!"transfer.receiver={receiver}, expected={receiverParty}")
  -- a field of another type is passed over, only a missing one is worth a warning
  ensureValue (transferAmount transfer) (numericEq · expectedAmount = true)
    (fun _ => "TransferCc: wrong amount")
    (fun amt => s!"transfer.amount={amt}, expected={expectedAmount}")
  warnUnless (getRecordField transfer "amount").isSome "Could not extract transfer.amount"
  checkAmulet transfer "TransferCc"
  let preapprovalSend := findExerciseByChoice "TransferPreapproval_Send" rootExercise.children
    (buildNodesDict tx)
  warnUnless preapprovalSend.isSome "TransferPreapproval_Send not found in root children"
  warnValue preapprovalSend (fun ps =>
      (findExerciseByChoice "AmuletRules_Transfer" ps.children (buildNodesDict tx)).isSome = true)
    (fun _ => "AmuletRules_Transfer not found in TransferPreapproval_Send children") []
  return s!"TransferCc VERIFIED: {expectedAmount} CC {short senderParty 8} → " ++
    s!"{short receiverParty 8} | " ++ nodeSummary tx

/-- Whether an exercise of the choice is a child or a grandchild, through an
exercise. -/
def exerciseWithinTwo (choiceId : String) (e : Exercise) (dict : NodesDict) : Bool :=
  (findExerciseByChoice choiceId e.children dict).isSome ||
    (e.children.filterMap fun id => (dict.lookup id).bind asExercise).any fun ex =>
      (findExerciseByChoice choiceId ex.children dict).isSome

/-- A `Holding` create whose argument names the party as owner. -/
def isHoldingOf (party : String) (c : Create) : Bool :=
  c.templateId.any (·.entityName == "Holding") &&
    ((c.argument.bind asRecord).bind (getRecordField · "owner")).bind getParty == some party

def inspectAcceptCip56 (prepared : PreparedTransaction) (receiverParty expectedContractId : String) :
    Except String InspectionResult := Inspect.result do
  let tx ← require "PreparedTransaction missing transaction" prepared.transaction
  let metadata ← require "PreparedTransaction missing metadata" prepared.metadata
  let submitter ← require "Metadata missing submitter_info" metadata.submitterInfo
  checkActAs submitter receiverParty "AcceptCip56 metadata check failed" "receiver_party"
  let rootId ← orReject tx.roots.head? "AcceptCip56: no root nodes" "Transaction has no root nodes"
  let rootNode ← require "Root node not found in nodes dict" ((buildNodesDict tx).lookup rootId)
  let rootExercise ← orReject (asExercise rootNode) "AcceptCip56: root is not Exercise"
    "Root node is not an Exercise node"
  checkChoice rootExercise "AcceptCip56" "TransferInstruction_Accept"
  ensure (rootExercise.contractId = expectedContractId) "AcceptCip56: wrong contract_id"
    s!"contract_id={rootExercise.contractId}, expected={expectedContractId}"
  checkActingParties rootExercise receiverParty "AcceptCip56: receiver not in acting_parties"
    "receiver"
  warnValue rootExercise.interfaceId
    (templateMatches · "Splice.Api.Token.TransferInstructionV1" "TransferInstruction" = true)
    (fun iface => s!"Unexpected interface_id: {iface.moduleName}.{iface.entityName} " ++
      "(expected Splice.Api.Token.TransferInstructionV1.TransferInstruction)")
    ["Root exercise missing interface_id"]
  ensure rootExercise.consuming "AcceptCip56: exercise is not consuming"
    "Root exercise must be consuming (TransferOffer is consumed on accept)"
  warnUnless (exerciseWithinTwo "TransferRule_Transfer" rootExercise (buildNodesDict tx))
    "TransferRule_Transfer not found in exercise tree"
  warnUnless ((tx.nodes.filterMap asCreate).any (isHoldingOf receiverParty))
    "No Holding Create found with owner=receiver_party"
  return s!"AcceptCip56 VERIFIED: receiver {receiverParty} accepts TransferOffer " ++
    s!"{expectedContractId} | " ++ nodeSummary tx

def inspectPayFee (prepared : PreparedTransaction) (senderParty feeParty proposalId
    feeType : String) : Except String InspectionResult := Inspect.result do
  let parts ← extractRootExercise prepared "PayFee"
  checkActAs parts.submitter senderParty "PayFee: sender not in act_as" "sender_party"
  warnUnless ((s!"fee-{feeType}-").toList <+: parts.submitter.commandId.toList)
    (s!"command_id {parts.submitter.commandId} does not start with expected prefix " ++
      s!"fee-{feeType}-")
  warnUnless (proposalId.toList <:+ parts.submitter.commandId.toList)
    s!"command_id {parts.submitter.commandId} does not end with proposal_id {proposalId}"
  checkChoice parts.rootExercise "PayFee" "TransferFactory_Transfer"
  warnValue parts.rootExercise.templateId
    (templateMatches · "Splice.ExternalPartyAmuletRules" "ExternalPartyAmuletRules" = true)
    (fun tid => s!"Unexpected template: {tid.moduleName}.{tid.entityName}") []
  checkActingParties parts.rootExercise senderParty "PayFee: sender not in acting_parties" "sender"
  onValue (parts.rootExercise.chosenValue.bind asRecord) (fun cr =>
    onValue ((getRecordField cr "transfer").bind asRecord) (fun transfer => do
      ensureValue (transferReceiver transfer) (· = feeParty) (fun _ => "PayFee: wrong receiver")
        (fun receiver => s!"transfer.receiver={receiver}, expected fee_party={feeParty}")
      warnUnless (getRecordField transfer "receiver").isSome "Could not extract transfer.receiver"
      checkAmulet transfer "PayFee")
      (warn "Could not extract 'transfer' from chosen_value"))
    (warn "Could not parse chosen_value as Record")
  return s!"PayFee({feeType}) VERIFIED: {short senderParty 8} pays fee to {short feeParty 8} " ++
    s!"for {proposalId} | " ++ nodeSummary parts.tx

end Transfers

/-! ## Requests: one Create root -/

section Requests

/-- The root id, when there is exactly one. -/
def onlyRoot (tx : DamlTransaction) : Option String :=
  match tx.roots with
  | [rootId] => some rootId
  | _ => none

/-- The common start of the request inspectors. The root is the first node of
the list with the root id. -/
def extractRootCreate (prepared : PreparedTransaction) (opName party : String) :
    Inspect Create := do
  let tx ← require "PreparedTransaction missing transaction" prepared.transaction
  let metadata ← require "PreparedTransaction missing metadata" prepared.metadata
  let submitter ← require "Metadata missing submitter_info" metadata.submitterInfo
  checkActAs submitter party s!"{opName}: party not in act_as" "party"
  let rootId ← orReject (onlyRoot tx) s!"{opName}: expected 1 root, got {tx.roots.length}"
    s!"Expected 1 root node, got {tx.roots.length}"
  warnUnless (tx.nodes.length = 1) s!"Expected 1 node, got {tx.nodes.length}"
  let rootNode ← require "Root node not found" (tx.nodes.find? (·.nodeId == rootId))
  orReject (asCreate rootNode) s!"{opName}: root is not a Create node"
    "Root node must be a Create node"

def checkCreateTemplate (opName expected : String) (tid : Identifier) (ok : Bool) :
    Inspect Unit :=
  ensure ok s!"{opName}: wrong template {tid.moduleName}.{tid.entityName}"
    s!"Expected {expected} template, got {tid.moduleName}.{tid.entityName}"

/-- A field that must be the party. -/
def checkPartyField (record : Record Value) (opName label party of : String) : Inspect Unit :=
  ensure ((getRecordField record label).bind getParty = some party)
    s!"{opName}: {label} field does not match {of}"
    (label ++ "=" ++ ((getRecordField record label).bind getParty).getD "<missing>" ++
      s!", expected={party}")

def checkSignatories (create : Create) (opName party : String) : Inspect Unit :=
  ensure (party ∈ create.signatories) s!"{opName}: party not in signatories"
    s!"signatories {debugStrings create.signatories} does not contain party {party}"

/-- The daily amount only warns; the server may format it differently. -/
def checkDailyAmount (record : Record Value) (amount : String) : Inspect Unit :=
  warnValue ((getRecordField record "amountPerDayUsd").bind getNumeric)
    (numericEq · amount = true)
    (fun actual => s!"amountPerDayUsd mismatch: tx={actual}, expected={amount}")
    ["amountPerDayUsd field missing or not numeric"]

variable {w w' : List String} {u : Unit} {opName party : String}

@[simp] theorem checkCreateTemplate_ok {expected : String} {tid : Identifier} {ok : Bool} :
    checkCreateTemplate opName expected tid ok w = .ok (u, w') ↔ ok = true ∧ w' = w :=
  ensure_ok

@[simp] theorem checkPartyField_ok {record : Record Value} {label what : String} :
    checkPartyField record opName label party what w = .ok (u, w') ↔
      (getRecordField record label).bind getParty = some party ∧ w' = w :=
  ensure_ok

@[simp] theorem checkSignatories_ok {create : Create} :
    checkSignatories create opName party w = .ok (u, w') ↔
      party ∈ create.signatories ∧ w' = w :=
  ensure_ok

@[simp] theorem checkDailyAmount_ok {record : Record Value} {amount : String} :
    checkDailyAmount record amount w = .ok (u, w') ↔
      w' = w ++ ((getRecordField record "amountPerDayUsd").bind getNumeric).elim
        ["amountPerDayUsd field missing or not numeric"] fun actual =>
          if numericEq actual amount = true then []
          else [s!"amountPerDayUsd mismatch: tx={actual}, expected={amount}"] :=
  warnValue_ok

def inspectRequestUserService (prepared : PreparedTransaction) (party : String) :
    Except String InspectionResult := Inspect.result do
  let create ← extractRootCreate prepared "RequestUserService" party
  let tid ← require "Create node missing template_id" create.templateId
  checkCreateTemplate "RequestUserService" "UserServiceRequest" tid
    (templateMatches tid "Utility.Settlement.App.V1.Service.User" "UserServiceRequest")
  let arg ← require "Create node missing argument" create.argument
  let record ← require "Create argument is not a Record" (asRecord arg)
  checkPartyField record "RequestUserService" "user" party "party"
  checkSignatories create "RequestUserService" party
  let operator := ((getRecordField record "operator").bind getParty).getD "<unknown>"
  return s!"RequestUserService VERIFIED: user {party} requests service from operator " ++
    s!"{operator} | 1 Create node"

def isCip56Preapproval (tid : Identifier) : Bool :=
  templateMatches tid "Utility.Registry.App.V0.Model.TransferPreapproval" "TransferPreapproval"

def isSplicePreapproval (tid : Identifier) : Bool :=
  templateMatches tid "Splice.Wallet.TransferPreapproval" "TransferPreapprovalProposal"

def inspectRequestPreapproval (prepared : PreparedTransaction) (party : String) :
    Except String InspectionResult := Inspect.result do
  let create ← extractRootCreate prepared "RequestPreapproval" party
  let tid ← require "Create node missing template_id" create.templateId
  checkCreateTemplate "RequestPreapproval" "TransferPreapproval" tid
    (isCip56Preapproval tid || isSplicePreapproval tid)
  let arg ← require "Create node missing argument" create.argument
  let record ← require "Create argument is not a Record" (asRecord arg)
  checkPartyField record "RequestPreapproval" "receiver" party "party"
  checkSignatories create "RequestPreapproval" party
  let provider := (((getRecordField record "provider").or
    (getRecordField record "operator")).bind getParty).getD "<unknown>"
  let templateType := if isCip56Preapproval tid then "CIP-56" else "Splice"
  return s!"RequestPreapproval VERIFIED ({templateType}): receiver {party} preapproval with " ++
    s!"{provider} | 1 Create node"

def inspectRecurringPayasyougo (prepared : PreparedTransaction) (party appParty amount : String) :
    Except String InspectionResult := Inspect.result do
  let create ← extractRootCreate prepared "RequestRecurringPayasyougo" party
  let tid ← require "Create node missing template_id" create.templateId
  checkCreateTemplate "RequestRecurringPayasyougo" "RecurringPaymentRequest" tid
    (templateMatches tid "RecurringPaymentRequest" "RecurringPaymentRequest")
  let arg ← require "Create node missing argument" create.argument
  let record ← require "Create argument is not a Record" (asRecord arg)
  checkPartyField record "RequestRecurringPayasyougo" "user" party "party"
  checkPartyField record "RequestRecurringPayasyougo" "app" appParty "app_party"
  checkDailyAmount record amount
  checkSignatories create "RequestRecurringPayasyougo" party
  let actual := ((getRecordField record "amountPerDayUsd").bind getNumeric).getD amount
  return s!"RequestRecurringPayasyougo VERIFIED: user {short party 16} requests from app " ++
    s!"{short appParty 16}, amount={actual}/day | 1 Create node"

def inspectRecurringPrepaid (prepared : PreparedTransaction) (party appParty amount : String) :
    Except String InspectionResult := Inspect.result do
  let parts ← extractRootExercise prepared "RequestRecurringPrepaid"
  checkActAs parts.submitter party "RequestRecurringPrepaid: party not in act_as" "party"
  checkChoice parts.rootExercise "RequestRecurringPrepaid"
    "RecurringPaymentAppService_LockFundsForRequest"
  warnValue parts.rootExercise.templateId
    (templateMatches · "RecurringPaymentAppService" "RecurringPaymentAppService" = true)
    (fun tid => s!"Unexpected template: {tid.moduleName}.{tid.entityName}") []
  checkActingParties parts.rootExercise party
    "RequestRecurringPrepaid: party not in acting_parties" "party"
  onValue (parts.rootExercise.chosenValue.bind asRecord) (fun cr => do
    checkPartyField cr "RequestRecurringPrepaid" "user" party "party"
    checkDailyAmount cr amount)
    (warn "Could not parse chosen_value as Record")
  warnUnless (appParty ∈ parts.rootExercise.signatories)
    (s!"signatories {debugStrings parts.rootExercise.signatories} does not contain app_party " ++
      appParty)
  return s!"RequestRecurringPrepaid VERIFIED: user {short party 16} requests from app " ++
    s!"{short appParty 16}, amount={amount}/day | " ++ nodeSummary parts.tx

end Requests

/-! ## Settlement -/

section Settlement

/-- `terms.id` of a record. -/
def termsId (r : Record Value) : Option String :=
  (((getRecordField r "terms").bind asRecord).bind (getRecordField · "id")).bind getText

def isDvpTemplate (entityName : String) (c : Create) : Bool :=
  c.templateId.any (templateMatches · "Utility.Settlement.App.V1.Model.Dvp" entityName)

def inspectProposeDvp (prepared : PreparedTransaction) (buyerParty proposalId
    synchronizerId : String) : Except String InspectionResult := Inspect.result do
  let parts ← extractRootExercise prepared "ProposeDvp"
  checkActAs parts.submitter buyerParty "ProposeDvp: buyer not in act_as" "buyer_party"
  warnUnless (synchronizerId = "" ∨ parts.metadata.synchronizerId = synchronizerId)
    (s!"synchronizer_id mismatch: expected={synchronizerId}, " ++
      s!"got={parts.metadata.synchronizerId}")
  warnUnless (parts.submitter.commandId = s!"dvp-propose-{proposalId}")
    (s!"command_id mismatch: expected=dvp-propose-{proposalId}, " ++
      s!"got={parts.submitter.commandId}")
  checkChoice parts.rootExercise "ProposeDvp" "UserService_ProposeDvp"
  checkTemplate parts.rootExercise "ProposeDvp" "Utility.Settlement.App.V1.Service.User"
    "UserService"
  checkActingParties parts.rootExercise buyerParty "ProposeDvp: buyer not in acting_parties"
    "buyer"
  onValue (parts.rootExercise.chosenValue.bind asRecord) (fun cr =>
    ensureOrWarn (termsId cr) (· = proposalId) (fun _ => "ProposeDvp: wrong terms.id")
      (fun tid => s!"chosen_value.terms.id={tid}, expected={proposalId}")
      "Could not extract chosen_value.terms.id") (pure ())
  let created := (childCreates parts.nodesDict parts.rootExercise.children).filter
    (isDvpTemplate "DvpProposal")
  ensureAll (created.filterMap fun c => (c.argument.bind asRecord).bind termsId)
    (fun cid => cid = proposalId)
    (fun _ => "ProposeDvp: created DvpProposal has wrong terms.id")
    (fun cid => s!"DvpProposal.terms.id={cid}, expected={proposalId}")
  warnUnless (created ≠ []) "No DvpProposal Create node found in children"
  return s!"ProposeDvp VERIFIED: buyer {short buyerParty 8} proposes {proposalId} | " ++
    nodeSummary parts.tx

/-- A direct `DvpProposal_Cancel` or `DvpProposal_Reject`; the choice is also the
operation's name. -/
def inspectDvpProposalGc (prepared : PreparedTransaction) (party dvpProposalCid choice : String) :
    Except String InspectionResult := Inspect.result do
  let parts ← extractRootExercise prepared choice
  ensure (parts.tx.roots.length = 1) s!"{choice}: expected 1 root, got {parts.tx.roots.length}"
    s!"Transaction has {parts.tx.roots.length} root nodes, expected exactly 1"
  checkActAs parts.submitter party s!"{choice}: party not in act_as" "party"
  warnUnless (parts.submitter.commandId = s!"dvp-proposal-gc-{dvpProposalCid}")
    (s!"command_id mismatch: expected=dvp-proposal-gc-{dvpProposalCid}, " ++
      s!"got={parts.submitter.commandId}")
  checkChoice parts.rootExercise choice choice
  checkTemplate parts.rootExercise choice "Utility.Settlement.App.V1.Model.Dvp" "DvpProposal"
  ensure (parts.rootExercise.contractId = dvpProposalCid) s!"{choice}: wrong contract_id"
    s!"contract_id={parts.rootExercise.contractId}, expected={dvpProposalCid}"
  checkActingParties parts.rootExercise party s!"{choice}: party not in acting_parties" "party"
  let tname := fun c : Create => (c.templateId.map fun t =>
    s!"{t.moduleName}.{t.entityName}").getD "unknown"
  ensureAll (childCreates parts.nodesDict parts.rootExercise.children)
    (fun c => choice = "DvpProposal_Reject" ∧ isDvpTemplate "RejectedDvpProposal" c = true)
    (fun c => s!"{choice}: unexpected Create of {tname c}")
    (fun c => s!"{choice} must not create {tname c} — only DvpProposal_Reject may create " ++
      "RejectedDvpProposal")
  return s!"{choice} VERIFIED: party {short party 8} archives {short dvpProposalCid 16} | " ++
    nodeSummary parts.tx

/-- A term that is only checked when an expectation is given for it; an
unreadable one warns. -/
def checkTerm (expected : String) (actual : Option String) (ok : String → Bool)
    (summary unread : String) (reason : String → String) : Inspect Unit :=
  if expected = "" then pure ()
  else ensureOrWarn actual (ok · = true) (fun _ => summary) reason unread

/-- The terms of one leg of a DVP: the delivery (`deliveries`) or the payment
(`payments`). -/
def checkLeg (terms : Record Value) (leg field amount instrumentId instrumentAdmin : String) :
    Inspect Unit :=
  onValue ((((getRecordField terms field).bind asList).bind (·.head?)).bind asRecord) (fun iq => do
    let q := extractInstrumentQuantity iq
    checkTerm amount q.amount (numericEq · amount) s!"AcceptDvp: {leg} amount mismatch"
      s!"Could not extract {field}[0].amount from DvpProposal"
      (fun amt => s!"DVP {leg}={amt}, expected={amount}")
    checkTerm instrumentId q.id (· == instrumentId) s!"AcceptDvp: {leg} instrument_id mismatch"
      s!"Could not extract {field}[0].instrument.id from DvpProposal"
      (fun id => s!"DVP {leg} instrument.id={id}, expected={instrumentId}")
    checkTerm instrumentAdmin q.admin (· == instrumentAdmin)
      s!"AcceptDvp: {leg} instrument_admin mismatch"
      s!"Could not extract {field}[0].instrument.admin from DvpProposal"
      (fun admin => s!"DVP {leg} instrument.admin={short admin 20}, " ++
        s!"expected={short instrumentAdmin 20}"))
    (warn s!"Could not extract {field}[0] from DvpProposal")

/-- The first disclosed contract that is a `DvpProposal`. -/
def disclosedProposal (metadata : Metadata) : Option Create :=
  (metadata.inputContracts.filterMap (·.contract)).find? (isDvpTemplate "DvpProposal")

/-- The `terms` record of a proposal. -/
def proposalTerms (c : Create) : Option (Record Value) :=
  ((c.argument.bind asRecord).bind (getRecordField · "terms")).bind asRecord

structure AcceptDvpTerms where
  deliveryAmount : String
  paymentAmount : String
  deliveryInstrumentId : String
  deliveryInstrumentAdmin : String
  paymentInstrumentId : String
  paymentInstrumentAdmin : String

/-- Whether the disclosed proposal is looked at. -/
def AcceptDvpTerms.checked (t : AcceptDvpTerms) : Prop :=
  t.deliveryAmount ≠ "" ∨ t.deliveryInstrumentId ≠ "" ∨ t.paymentInstrumentId ≠ ""

instance (t : AcceptDvpTerms) : Decidable t.checked :=
  inferInstanceAs (Decidable (_ ∨ _))

/-- The terms of the disclosed proposal, when any of them is expected. -/
def checkDisclosed (metadata : Metadata) (expected : AcceptDvpTerms) : Inspect Unit :=
  if expected.checked then
    onValue (disclosedProposal metadata) (fun create =>
      onValue (proposalTerms create) (fun terms => do
        checkLeg terms "delivery" "deliveries" expected.deliveryAmount
          expected.deliveryInstrumentId expected.deliveryInstrumentAdmin
        checkLeg terms "payment" "payments" expected.paymentAmount
          expected.paymentInstrumentId expected.paymentInstrumentAdmin) (pure ()))
      (warn "No DvpProposal found in input_contracts to verify terms")
  else pure ()

/-- The contract id an exercise is given as `cid`. -/
def chosenCid (e : Exercise) : Option String :=
  ((e.chosenValue.bind asRecord).bind (getRecordField · "cid")).bind getContractId

def inspectAcceptDvp (prepared : PreparedTransaction) (sellerParty proposalId
    dvpProposalCid : String) (expected : AcceptDvpTerms) :
    Except String InspectionResult := Inspect.result do
  let parts ← extractRootExercise prepared "AcceptDvp"
  checkActAs parts.submitter sellerParty "AcceptDvp: seller not in act_as" "seller_party"
  warnUnless (parts.submitter.commandId = s!"dvp-accept-{proposalId}")
    (s!"command_id mismatch: expected=dvp-accept-{proposalId}, " ++
      s!"got={parts.submitter.commandId}")
  checkChoice parts.rootExercise "AcceptDvp" "UserService_AcceptDvpProposal"
  checkTemplate parts.rootExercise "AcceptDvp" "Utility.Settlement.App.V1.Service.User"
    "UserService"
  checkActingParties parts.rootExercise sellerParty "AcceptDvp: seller not in acting_parties"
    "seller"
  warnValue (chosenCid parts.rootExercise) (fun cid => dvpProposalCid = "" ∨ cid = dvpProposalCid)
    (fun cid => s!"chosen_value.cid={short cid 16} does not match expected " ++
      s!"dvp_proposal_cid={short dvpProposalCid 16}") []
  checkDisclosed parts.metadata expected
  return s!"AcceptDvp VERIFIED: seller {short sellerParty 8} accepts proposal {proposalId} | " ++
    nodeSummary parts.tx

/-- The DVP contract id is not inspected. -/
def inspectAllocate (prepared : PreparedTransaction) (party proposalId _dvpCid : String) :
    Except String InspectionResult := Inspect.result do
  let parts ← extractRootExercise prepared "Allocate"
  checkActAs parts.submitter party "Allocate: party not in act_as" "party"
  warnUnless (proposalId.toList <:+: parts.submitter.commandId.toList)
    s!"command_id {parts.submitter.commandId} does not contain proposal_id {proposalId}"
  checkChoice parts.rootExercise "Allocate" "AllocationFactory_Allocate"
  warnValue parts.rootExercise.templateId (fun tid =>
      templateMatches tid "Splice.ExternalPartyAmuletRules" "ExternalPartyAmuletRules" = true ∨
        templateMatches tid "Utility.Registry.App.V0.Service.AllocationFactory"
          "AllocationFactory" = true)
    (fun tid => s!"Unexpected template: {tid.moduleName}.{tid.entityName} " ++
      "(expected ExternalPartyAmuletRules or AllocationFactory)") []
  checkActingParties parts.rootExercise party "Allocate: party not in acting_parties" "party"
  return s!"Allocate VERIFIED: {short party 8} allocates for {proposalId} | " ++
    nodeSummary parts.tx

end Settlement

/-! ## Dispatch -/

section Dispatch

/-- What the agent expects the prepared transaction to do. -/
inductive OperationExpectation where
  | payFee (senderParty feeParty proposalId feeType : String)
  | proposeDvp (buyerParty sellerParty proposalId synchronizerId : String)
  | acceptDvp (sellerParty proposalId dvpProposalCid : String) (expected : AcceptDvpTerms)
  | allocate (party proposalId dvpCid : String)
  | cancelDvpProposal (party dvpProposalCid : String)
  | rejectDvpProposal (party dvpProposalCid : String)
  | transferCc (senderParty receiverParty amount commandId : String)
  | prepayTraffic (senderParty amount commandId : String)
  | requestPreapproval (party : String)
  | requestRecurringPrepaid (party appParty amount : String)
  | requestRecurringPayasyougo (party appParty amount : String)
  | requestUserService (party : String)
  | transferCip56 (senderParty receiverParty instrumentId instrumentAdmin amount : String)
  | acceptCip56 (receiverParty contractId : String)
  | splitCc (party : String) (outputAmounts : List String)
  | executeMulticall (party : String) (opCount : Nat)
  | lockHoldings (party amount instrumentId context : String)
  | processLockUnlockRequests (party : String) (requestCount : Nat)
  | resizeLock (party newAmount : String)
  | terminateLock (party : String)
  | atomicDvpSettle (userParty venueCid templateId quoteId ticketId : String)
    (ticketCid : Option String) (side baseAmount quoteAmount lpParty baseInstrumentId
      baseInstrumentAdmin quoteInstrumentId quoteInstrumentAdmin : String)
    (validUntilMicros : Int64) (lpInputHoldingCids userInputHoldingCids : List String)
  | issueTickets (lpParty : String) (ticketCount : Nat)
  | splitHoldings (lpParty instrumentId : String) (splitCount : Nat) (inputCids : List String)
  | createAtomicDvpVenue (lpParty pairName quotePublicKeySpkiHex : String)
  | updateVenueKey (lpParty venueCid newKeySpkiHex : String)
  | retireVenue (lpParty venueCid : String)
  | cancelTickets (lpParty : String) (ticketCount : Nat)

/-- The operation's name in the log and in the stub's summary. -/
def opName : OperationExpectation → String
  | .payFee _ _ _ feeType => s!"PayFee({feeType})"
  | .proposeDvp .. => "ProposeDvp"
  | .acceptDvp .. => "AcceptDvp"
  | .allocate .. => "Allocate"
  | .cancelDvpProposal .. => "CancelDvpProposal"
  | .rejectDvpProposal .. => "RejectDvpProposal"
  | .transferCc _ _ amount _ => s!"TransferCc({amount})"
  | .prepayTraffic _ amount _ => s!"PrepayTraffic({amount})"
  | .requestPreapproval .. => "RequestPreapproval"
  | .requestRecurringPrepaid .. => "RequestRecurringPrepaid"
  | .requestRecurringPayasyougo .. => "RequestRecurringPayasyougo"
  | .requestUserService .. => "RequestUserService"
  | .transferCip56 _ _ instrumentId _ amount => s!"TransferCip56({amount} {instrumentId})"
  | .acceptCip56 _ contractId => s!"AcceptCip56({short contractId 16})"
  | .splitCc _ outputAmounts => s!"SplitCc({outputAmounts.length} outputs)"
  | .executeMulticall _ opCount => s!"ExecuteMulticall({opCount} ops)"
  | .lockHoldings _ amount instrumentId _ => s!"LockHoldings({amount} {instrumentId})"
  | .processLockUnlockRequests _ requestCount => s!"ProcessLockUnlockRequests({requestCount} reqs)"
  | .resizeLock _ newAmount => s!"ResizeLock({newAmount})"
  | .terminateLock .. => "TerminateLock"
  | .atomicDvpSettle _ _ _ quoteId ticketId .. =>
    let mode := if ticketId = "" then "ticketless" else "ticketed"
    s!"AtomicDvpSettle({quoteId}, {mode})"
  | .issueTickets _ ticketCount => s!"IssueTickets({ticketCount} tickets)"
  | .splitHoldings _ instrumentId splitCount _ =>
    s!"SplitHoldings({splitCount} {instrumentId} splits)"
  | .createAtomicDvpVenue _ pairName _ => s!"CreateAtomicDvpVenue({pairName})"
  | .updateVenueKey .. => "UpdateVenueKey"
  | .retireVenue .. => "RetireVenue"
  | .cancelTickets _ ticketCount => s!"CancelTickets({ticketCount} tickets)"

/-- The inspector of an operation that has one. -/
def inspector : OperationExpectation →
    Option (PreparedTransaction → Except String InspectionResult)
  | .transferCc sender receiver amount commandId =>
    some (inspectTransferCc · sender receiver amount commandId)
  | .acceptCip56 receiver contractId => some (inspectAcceptCip56 · receiver contractId)
  | .requestUserService party => some (inspectRequestUserService · party)
  | .payFee sender feeParty proposalId feeType =>
    some (inspectPayFee · sender feeParty proposalId feeType)
  | .proposeDvp buyer _ proposalId synchronizerId =>
    some (inspectProposeDvp · buyer proposalId synchronizerId)
  | .acceptDvp seller proposalId cid expected =>
    some (inspectAcceptDvp · seller proposalId cid expected)
  | .allocate party proposalId dvpCid => some (inspectAllocate · party proposalId dvpCid)
  | .cancelDvpProposal party cid => some (inspectDvpProposalGc · party cid "DvpProposal_Cancel")
  | .rejectDvpProposal party cid => some (inspectDvpProposalGc · party cid "DvpProposal_Reject")
  | .requestPreapproval party => some (inspectRequestPreapproval · party)
  | .requestRecurringPayasyougo party app amount =>
    some (inspectRecurringPayasyougo · party app amount)
  | .requestRecurringPrepaid party app amount => some (inspectRecurringPrepaid · party app amount)
  | _ => none

/-- `inspect`; `decode` is the protobuf decoder. Operations without an inspector
are accepted by a stub. -/
def inspect (decode : Bytes → Option PreparedTransaction) (preparedTransactionBytes : Bytes)
    (expectation : OperationExpectation) : Except String InspectionResult :=
  match inspector expectation with
  | some run => do
    let prepared ← context "Failed to decode PreparedTransaction protobuf"
      (decode preparedTransactionBytes)
    run prepared
  | none => .ok {
      accepted := true
      summary := s!"[STUB] {opName expectation} — {preparedTransactionBytes.length} bytes, " ++
        "not yet verified"
      warnings := ["Transaction fields not yet verified for this operation"]
      rejectionReason := none }

/-- Acceptance of an operation with an inspector is that inspector's. -/
theorem inspect_eq_ok {decode : Bytes → Option PreparedTransaction} {bytes : Bytes}
    {expectation : OperationExpectation} {r : InspectionResult}
    {run : PreparedTransaction → Except String InspectionResult}
    (hrun : inspector expectation = some run) :
    inspect decode bytes expectation = .ok r ↔
      ∃ p, decode bytes = some p ∧ run p = .ok r := by
  simp only [inspect, hrun, bind_eq_ok, context_eq_ok]

end Dispatch

end BookAgent.TxVerifier
