import BookAgent.Lib.Joined
import BookAgent.Lib.KeyLines
import BookAgent.Lib.Text

/-!
# Canonical signing payloads

The payloads that requests and fee authorizations are signed over
(`message-signing`): `key=value` lines in a fixed order for each message type,
optional lines omitted when absent, lists joined by commas. Each builder gives its
lines; nothing is escaped and no value is refused.
-/

namespace BookAgent.MessageSigning

open BookAgent.Lib KeyField

/-! ## Lists -/

/-- The elements with commas between them (`join(",")`). -/
def list {α : Type} (print : α → String) (key : String) (xs : List α) : KeyField :=
  printedAs (joined print ',') key xs

/-- The elements with commas between them, omitted when there are none. -/
def listUnlessEmpty (key : String) (xs : List String) : KeyField :=
  optPrintedAs (joined id ',') key (if xs.isEmpty then none else some xs)

/-- One rung of a split: the amount, `x`, how many. -/
def splitText (split : String × UInt32) : String := split.1 ++ "x" ++ toString split.2

/-! ## Params -/

/-- What a params builder is for. -/
inductive ParamType
  | payFee | proposeDvp | acceptDvp | allocate | cancelDvpProposal | rejectDvpProposal
  | transferCc | prepayTraffic | requestPreapproval | requestRecurringPrepaid
  | requestRecurringPayasyougo | requestUserService | transferCip56 | acceptCip56 | splitCc
  | executeMultiCall | lockHoldings | processLockUnlockRequests | resizeLock | terminateLock
  | faucet | atomicDvpSettle | issueTickets | splitHoldings | createAtomicDvpVenue
  | updateVenueKey | retireVenue | cancelTickets
  deriving DecidableEq

/-- The value of the `param_type` line. -/
def ParamType.name : ParamType → String
  | .payFee => "PayFee"
  | .proposeDvp => "ProposeDvp"
  | .acceptDvp => "AcceptDvp"
  | .allocate => "Allocate"
  | .cancelDvpProposal => "CancelDvpProposal"
  | .rejectDvpProposal => "RejectDvpProposal"
  | .transferCc => "TransferCc"
  | .prepayTraffic => "PrepayTraffic"
  | .requestPreapproval => "RequestPreapproval"
  | .requestRecurringPrepaid => "RequestRecurringPrepaid"
  | .requestRecurringPayasyougo => "RequestRecurringPayasyougo"
  | .requestUserService => "RequestUserService"
  | .transferCip56 => "TransferCip56"
  | .acceptCip56 => "AcceptCip56"
  | .splitCc => "SplitCc"
  | .executeMultiCall => "ExecuteMultiCall"
  | .lockHoldings => "LockHoldings"
  | .processLockUnlockRequests => "ProcessLockUnlockRequests"
  | .resizeLock => "ResizeLock"
  | .terminateLock => "TerminateLock"
  | .faucet => "Faucet"
  | .atomicDvpSettle => "AtomicDvpSettle"
  | .issueTickets => "IssueTickets"
  | .splitHoldings => "SplitHoldings"
  | .createAtomicDvpVenue => "CreateAtomicDvpVenue"
  | .updateVenueKey => "UpdateVenueKey"
  | .retireVenue => "RetireVenue"
  | .cancelTickets => "CancelTickets"

/-- One signed LP-required fee of a settle request. -/
structure AtomicLpFee where
  receiver : String
  instrumentAdmin : String
  instrumentId : String
  amount : String
  deriving DecidableEq

/-- What a params builder prints: its type, its lines, and the fee block of a settle. -/
structure ParamLines where
  paramType : ParamType
  fields : List KeyField
  fees : List AtomicLpFee := []

/-- The four lines of each fee, numbered from `i`. -/
def feeFields (i : Nat) : List AtomicLpFee → List KeyField
  | [] => []
  | fee :: fees =>
    text ("fee_" ++ toString i ++ "_receiver") fee.receiver ::
    text ("fee_" ++ toString i ++ "_admin") fee.instrumentAdmin ::
    text ("fee_" ++ toString i ++ "_id") fee.instrumentId ::
    text ("fee_" ++ toString i ++ "_amount") fee.amount :: feeFields (i + 1) fees

/-- The fee block, omitted entirely when there are no fees. -/
def feeBlock (fees : List AtomicLpFee) : List Char :=
  if fees.isEmpty then [] else renderFields (display "fee_count" fees.length :: feeFields 0 fees)

/-- The text of the params. -/
def ParamLines.canonical (p : ParamLines) : String :=
  "param_type=" ++ p.paramType.name ++ "\n" ++
    String.ofList (renderFields p.fields ++ feeBlock p.fees)

/-! ## Builders for prepared transactions -/

def canonicalParamsPayFee (proposalId feeType : String) : ParamLines where
  paramType := .payFee
  fields := [text "proposal_id" proposalId, text "fee_type" feeType]

def canonicalParamsProposeDvp (proposalId : String) : ParamLines where
  paramType := .proposeDvp
  fields := [text "proposal_id" proposalId]

def canonicalParamsAcceptDvp (proposalId dvpProposalCid : String) : ParamLines where
  paramType := .acceptDvp
  fields := [text "proposal_id" proposalId, text "dvp_proposal_cid" dvpProposalCid]

def canonicalParamsAllocate (proposalId dvpCid : String) : ParamLines where
  paramType := .allocate
  fields := [text "proposal_id" proposalId, text "dvp_cid" dvpCid]

def canonicalParamsCancelDvpProposal (dvpProposalCid : String) : ParamLines where
  paramType := .cancelDvpProposal
  fields := [text "dvp_proposal_cid" dvpProposalCid]

def canonicalParamsRejectDvpProposal (dvpProposalCid reason : String) : ParamLines where
  paramType := .rejectDvpProposal
  fields := [text "dvp_proposal_cid" dvpProposalCid, text "reason" reason]

def canonicalParamsTransferCc (receiverParty amount : String) (description : Option String)
    (commandId : String) (settlementProposalId : Option String) : ParamLines where
  paramType := .transferCc
  fields := [text "receiver_party" receiverParty, text "amount" amount,
    opt "description" description, text "command_id" commandId,
    opt "settlement_proposal_id" settlementProposalId]

def canonicalParamsPrepayTraffic (amount : String) (description : Option String)
    (commandId : String) : ParamLines where
  paramType := .prepayTraffic
  fields := [text "amount" amount, opt "description" description, text "command_id" commandId]

def canonicalParamsRequestPreapproval (instrumentAdmin : String) : ParamLines where
  paramType := .requestPreapproval
  fields := [text "instrument_admin" instrumentAdmin]

def canonicalParamsRequestRecurringPrepaid (appParty amount lockedAmount : String) (lockDays : UInt32)
    (description reference : Option String) : ParamLines where
  paramType := .requestRecurringPrepaid
  fields := [text "app_party" appParty, text "amount" amount, text "locked_amount" lockedAmount,
    display "lock_days" lockDays, opt "description" description, opt "reference" reference]

def canonicalParamsRequestRecurringPayasyougo (appParty amount : String)
    (description reference : Option String) : ParamLines where
  paramType := .requestRecurringPayasyougo
  fields := [text "app_party" appParty, text "amount" amount, opt "description" description,
    opt "reference" reference]

def canonicalParamsRequestUserService (referenceId partyName : Option String) : ParamLines where
  paramType := .requestUserService
  fields := [opt "reference_id" referenceId, opt "party_name" partyName]

/-- The input ids are appended only when there are any. -/
def canonicalParamsTransferCip56 (instrumentId instrumentAdmin receiverParty amount : String)
    (reference : Option String) (inputHoldingCids : List String)
    (maxInputHoldings : Option UInt32) : ParamLines where
  paramType := .transferCip56
  fields := [text "instrument_id" instrumentId, text "instrument_admin" instrumentAdmin,
    text "receiver_party" receiverParty, text "amount" amount, opt "reference" reference,
    listUnlessEmpty "input_holding_cids" inputHoldingCids, optDisplay "max_input_holdings" maxInputHoldings]

def canonicalParamsAcceptCip56 (contractId : String) : ParamLines where
  paramType := .acceptCip56
  fields := [text "contract_id" contractId]

def canonicalParamsSplitCc (outputAmounts : List String) : ParamLines where
  paramType := .splitCc
  fields := [list id "output_amounts" outputAmounts]

def canonicalParamsExecuteMulticall (opCount : UInt64) : ParamLines where
  paramType := .executeMultiCall
  fields := [display "op_count" opCount]

def canonicalParamsLockHoldings (lockServiceCid amount context : String) : ParamLines where
  paramType := .lockHoldings
  fields := [text "lock_service_cid" lockServiceCid, text "amount" amount, text "context" context]

def canonicalParamsProcessLockUnlockRequests (lockControllerCid : String) (requestCount : UInt64) :
    ParamLines where
  paramType := .processLockUnlockRequests
  fields := [text "lock_controller_cid" lockControllerCid, display "request_count" requestCount]

def canonicalParamsResizeLock (lockControllerCid newAmount : String) : ParamLines where
  paramType := .resizeLock
  fields := [text "lock_controller_cid" lockControllerCid, text "new_amount" newAmount]

def canonicalParamsTerminateLock (lockControllerCid : String) : ParamLines where
  paramType := .terminateLock
  fields := [text "lock_controller_cid" lockControllerCid]

def canonicalParamsFaucet (tokenName tokenAdmin ticket : String) (dryRun : Bool) : ParamLines where
  paramType := .faucet
  fields := [text "token_name" tokenName, text "token_admin" tokenAdmin, text "ticket" ticket,
    display "dry_run" dryRun]

/-! ## Builders for atomic transactions -/

def canonicalParamsAtomicDvpSettle (venueCid quoteId ticketId user side baseAmount quoteAmount :
    String) (createdAtMicros validUntilMicros : Int64) (quoteSignatureDerHex : String)
    (ticketCid : Option String) (lpInputHoldingCids userInputHoldingCids : List String)
    (lpFees : List AtomicLpFee) : ParamLines where
  paramType := .atomicDvpSettle
  fields := [text "venue_cid" venueCid, text "quote_id" quoteId, text "ticket_id" ticketId,
    text "user" user, text "side" side, text "base_amount" baseAmount,
    text "quote_amount" quoteAmount, display "created_at_micros" createdAtMicros,
    display "valid_until_micros" validUntilMicros, text "quote_signature" quoteSignatureDerHex,
    opt "ticket_cid" ticketCid, list id "lp_input_holding_cids" lpInputHoldingCids,
    list id "user_input_holding_cids" userInputHoldingCids]
  fees := lpFees

def canonicalParamsIssueTickets (ticketIds : List String) : ParamLines where
  paramType := .issueTickets
  fields := [list id "ticket_ids" ticketIds]

def canonicalParamsSplitHoldings (instrumentId instrumentAdmin : String)
    (splits : List (String × UInt32)) (inputHoldingCids : List String) : ParamLines where
  paramType := .splitHoldings
  fields := [text "instrument_id" instrumentId, text "instrument_admin" instrumentAdmin,
    list splitText "splits" splits,
    list id "input_holding_cids" inputHoldingCids]

def canonicalParamsCreateAtomicDvpVenue (pairName baseInstrumentId baseInstrumentAdmin
    quoteInstrumentId quoteInstrumentAdmin quotePublicKeySpkiHex : String) : ParamLines where
  paramType := .createAtomicDvpVenue
  fields := [text "pair_name" pairName, text "base_instrument_id" baseInstrumentId,
    text "base_instrument_admin" baseInstrumentAdmin,
    text "quote_instrument_id" quoteInstrumentId,
    text "quote_instrument_admin" quoteInstrumentAdmin,
    text "quote_public_key" quotePublicKeySpkiHex]

def canonicalParamsUpdateVenueKey (venueCid newQuotePublicKeySpkiHex : String) : ParamLines where
  paramType := .updateVenueKey
  fields := [text "venue_cid" venueCid, text "new_quote_public_key" newQuotePublicKeySpkiHex]

def canonicalParamsRetireVenue (venueCid : String) : ParamLines where
  paramType := .retireVenue
  fields := [text "venue_cid" venueCid]

def canonicalParamsCancelTickets (ticketCids : List String) : ParamLines where
  paramType := .cancelTickets
  fields := [list id "ticket_cids" ticketCids]

/-! ## Payloads -/

/-- Payload for PrepareTransactionRequest, around the text of a params builder. -/
def canonicalPrepareRequest (operation : Int32) (paramsCanonical : String) : List UInt8 :=
  utf8 ("msg_type=PrepareTransactionRequest\noperation=" ++ toString operation ++ "\n" ++
    paramsCanonical)

/-- Payload for PrepareAtomicTransactionRequest. -/
def canonicalPrepareAtomicRequest (paramsCanonical : String) : List UInt8 :=
  utf8 ("msg_type=PrepareAtomicTransactionRequest\n" ++ paramsCanonical)

/-- An authorization: its message type and its lines. -/
def authorization (msgType : String) (fields : List KeyField) : List UInt8 :=
  utf8 ("msg_type=" ++ msgType ++ "\n" ++ String.ofList (renderFields fields))

def txFeesFields (partyId transactionId feesJson : String) : List KeyField :=
  [text "party_id" partyId, text "transaction_id" transactionId, text "fees_json" feesJson]

def canonicalTxFeesAuthorization (partyId transactionId feesJson : String) : List UInt8 :=
  authorization "TxFeesAuthorization" (txFeesFields partyId transactionId feesJson)

def payFeeFields (partyId sessionId proposalId feeType feesJson : String) : List KeyField :=
  [text "party_id" partyId, text "session_id" sessionId, text "proposal_id" proposalId,
    text "fee_type" feeType, text "fees_json" feesJson]

def canonicalPayFeeAuthorization (partyId sessionId proposalId feeType feesJson : String) :
    List UInt8 :=
  authorization "PayFeeAuthorization" (payFeeFields partyId sessionId proposalId feeType feesJson)

def offChainFields (partyId nonce sourceKind externalId feesJson : String) : List KeyField :=
  [text "party_id" partyId, text "nonce" nonce, text "source_kind" sourceKind,
    text "external_id" externalId, text "fees_json" feesJson]

def canonicalOffChainAuthorization (partyId nonce sourceKind externalId feesJson : String) :
    List UInt8 :=
  authorization "OffChainAuthorization" (offChainFields partyId nonce sourceKind externalId feesJson)

example : (canonicalParamsAcceptCip56 "00aa").canonical =
    "param_type=AcceptCip56\ncontract_id=00aa\n" := by decide +kernel

end BookAgent.MessageSigning
