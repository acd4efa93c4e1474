import BookAgent.Lib.Base64
import BookAgent.Lib.SplitLines
import BookAgent.MessageSigning.Payload

/-!
# The lines of responses and authorizations

The payloads of responses, of execute requests and of fee authorizations, read back line by
line. Each argument stands on the line that its name opens, except in the response to a
prepare request.
-/

namespace BookAgent.MessageSigning

open BookAgent.Lib KeyField

/-! ## Builders -/

/-- A message: its type and its lines. -/
def message (msgType : String) (fields : List KeyField) : List UInt8 :=
  authorization msgType fields

def canonicalPrepareResponse [Base64] (transactionId preparedTransactionHash commandId : String)
    (preparedTransaction : List UInt8) (hashingSchemeVersion : String) : List UInt8 :=
  message "PrepareTransactionResponse" [text "transaction_id" transactionId,
    text "prepared_transaction_hash" preparedTransactionHash,
    -- the values of the next two lines are the other way round
    text "command_id" (Base64.base64Encode preparedTransaction), text "prepared_transaction" commandId,
    text "hashing_scheme_version" hashingSchemeVersion]

def canonicalExecuteRequest (transactionId signature : String) : List UInt8 :=
  message "ExecuteTransactionRequest" [text "transaction_id" transactionId,
    text "signature" signature]

def canonicalExecuteResponse (success : Bool) (updateId : String)
    (contractId errorMessage rewardsAmount : Option String) (rewardsRound : Option UInt64) :
    List UInt8 :=
  message "ExecuteTransactionResponse" [display "success" success, text "update_id" updateId,
    opt "contract_id" contractId, opt "error_message" errorMessage,
    opt "rewards_amount" rewardsAmount, optDisplay "rewards_round" rewardsRound]

def canonicalPreparePayFeeRequest (proposalId feeType : String) : List UInt8 :=
  message "PreparePayFeeRequest" [text "proposal_id" proposalId, text "fee_type" feeType]

def canonicalPreparePayFeeResponse (proposalId feeType feesJson sessionId : String) : List UInt8 :=
  message "PreparePayFeeResponse" [text "proposal_id" proposalId, text "fee_type" feeType,
    text "fees_json" feesJson, text "session_id" sessionId]

def canonicalExecutePayFeeRequest (proposalId feeType feesJson sessionId : String) : List UInt8 :=
  message "ExecutePayFeeRequest" [text "proposal_id" proposalId, text "fee_type" feeType,
    text "fees_json" feesJson, text "session_id" sessionId]

def canonicalExecutePayFeeResponse (success : Bool) (errorMessage : Option String) : List UInt8 :=
  message "ExecutePayFeeResponse" [display "success" success, opt "error_message" errorMessage]

/-! ## Messages and their arguments -/

/-- A call of a builder. -/
inductive Message
  | prepareResponse (transactionId preparedTransactionHash commandId : String)
      (preparedTransaction : List UInt8) (hashingSchemeVersion : String)
  | executeRequest (transactionId signature : String)
  | executeResponse (success : Bool) (updateId : String)
      (contractId errorMessage rewardsAmount : Option String) (rewardsRound : Option UInt64)
  | preparePayFeeRequest (proposalId feeType : String)
  | preparePayFeeResponse (proposalId feeType feesJson sessionId : String)
  | executePayFeeRequest (proposalId feeType feesJson sessionId : String)
  | executePayFeeResponse (success : Bool) (errorMessage : Option String)
  | txFeesAuthorization (partyId transactionId feesJson : String)
  | payFeeAuthorization (partyId sessionId proposalId feeType feesJson : String)
  | offChainAuthorization (partyId nonce sourceKind externalId feesJson : String)

namespace Message

def canonical [Base64] : Message → List UInt8
  | prepareResponse transactionId hash commandId prepared version =>
    canonicalPrepareResponse transactionId hash commandId prepared version
  | executeRequest transactionId signature => canonicalExecuteRequest transactionId signature
  | executeResponse success updateId contractId errorMessage rewardsAmount rewardsRound =>
    canonicalExecuteResponse success updateId contractId errorMessage rewardsAmount rewardsRound
  | preparePayFeeRequest proposalId feeType => canonicalPreparePayFeeRequest proposalId feeType
  | preparePayFeeResponse proposalId feeType feesJson sessionId =>
    canonicalPreparePayFeeResponse proposalId feeType feesJson sessionId
  | executePayFeeRequest proposalId feeType feesJson sessionId =>
    canonicalExecutePayFeeRequest proposalId feeType feesJson sessionId
  | executePayFeeResponse success errorMessage =>
    canonicalExecutePayFeeResponse success errorMessage
  | txFeesAuthorization partyId transactionId feesJson =>
    canonicalTxFeesAuthorization partyId transactionId feesJson
  | payFeeAuthorization partyId sessionId proposalId feeType feesJson =>
    canonicalPayFeeAuthorization partyId sessionId proposalId feeType feesJson
  | offChainAuthorization partyId nonce sourceKind externalId feesJson =>
    canonicalOffChainAuthorization partyId nonce sourceKind externalId feesJson

/-- The `msg_type` line. -/
def msgType : Message → String
  | prepareResponse .. => "PrepareTransactionResponse"
  | executeRequest .. => "ExecuteTransactionRequest"
  | executeResponse .. => "ExecuteTransactionResponse"
  | preparePayFeeRequest .. => "PreparePayFeeRequest"
  | preparePayFeeResponse .. => "PreparePayFeeResponse"
  | executePayFeeRequest .. => "ExecutePayFeeRequest"
  | executePayFeeResponse .. => "ExecutePayFeeResponse"
  | txFeesAuthorization .. => "TxFeesAuthorization"
  | payFeeAuthorization .. => "PayFeeAuthorization"
  | offChainAuthorization .. => "OffChainAuthorization"

/-- The arguments, each under its own name. -/
def args [Base64] : Message → List KeyField
  | prepareResponse transactionId hash commandId prepared version =>
    [text "transaction_id" transactionId, text "prepared_transaction_hash" hash,
      text "command_id" commandId, text "prepared_transaction" (Base64.base64Encode prepared),
      text "hashing_scheme_version" version]
  | executeRequest transactionId signature =>
    [text "transaction_id" transactionId, text "signature" signature]
  | executeResponse success updateId contractId errorMessage rewardsAmount rewardsRound =>
    [display "success" success, text "update_id" updateId, opt "contract_id" contractId,
      opt "error_message" errorMessage, opt "rewards_amount" rewardsAmount,
      optDisplay "rewards_round" rewardsRound]
  | preparePayFeeRequest proposalId feeType =>
    [text "proposal_id" proposalId, text "fee_type" feeType]
  | preparePayFeeResponse proposalId feeType feesJson sessionId =>
    [text "proposal_id" proposalId, text "fee_type" feeType, text "fees_json" feesJson,
      text "session_id" sessionId]
  | executePayFeeRequest proposalId feeType feesJson sessionId =>
    [text "proposal_id" proposalId, text "fee_type" feeType, text "fees_json" feesJson,
      text "session_id" sessionId]
  | executePayFeeResponse success errorMessage =>
    [display "success" success, opt "error_message" errorMessage]
  | txFeesAuthorization partyId transactionId feesJson =>
    [text "party_id" partyId, text "transaction_id" transactionId, text "fees_json" feesJson]
  | payFeeAuthorization partyId sessionId proposalId feeType feesJson =>
    [text "party_id" partyId, text "session_id" sessionId, text "proposal_id" proposalId,
      text "fee_type" feeType, text "fees_json" feesJson]
  | offChainAuthorization partyId nonce sourceKind externalId feesJson =>
    [text "party_id" partyId, text "nonce" nonce, text "source_kind" sourceKind,
      text "external_id" externalId, text "fees_json" feesJson]

/-- The names of the arguments. -/
def names : Message → List String
  | prepareResponse .. => ["transaction_id", "prepared_transaction_hash", "command_id",
      "prepared_transaction", "hashing_scheme_version"]
  | executeRequest .. => ["transaction_id", "signature"]
  | executeResponse .. => ["success", "update_id", "contract_id", "error_message",
      "rewards_amount", "rewards_round"]
  | preparePayFeeRequest .. => ["proposal_id", "fee_type"]
  | preparePayFeeResponse .. => ["proposal_id", "fee_type", "fees_json", "session_id"]
  | executePayFeeRequest .. => ["proposal_id", "fee_type", "fees_json", "session_id"]
  | executePayFeeResponse .. => ["success", "error_message"]
  | txFeesAuthorization .. => ["party_id", "transaction_id", "fees_json"]
  | payFeeAuthorization .. => ["party_id", "session_id", "proposal_id", "fee_type", "fees_json"]
  | offChainAuthorization .. => ["party_id", "nonce", "source_kind", "external_id", "fees_json"]

/-- The arguments that are strings. -/
def strings : Message → List String
  | prepareResponse transactionId hash commandId _ version =>
    [transactionId, hash, commandId, version]
  | executeRequest transactionId signature => [transactionId, signature]
  | executeResponse _ updateId contractId errorMessage rewardsAmount _ =>
    updateId :: (contractId.toList ++ errorMessage.toList ++ rewardsAmount.toList)
  | preparePayFeeRequest proposalId feeType => [proposalId, feeType]
  | preparePayFeeResponse proposalId feeType feesJson sessionId =>
    [proposalId, feeType, feesJson, sessionId]
  | executePayFeeRequest proposalId feeType feesJson sessionId =>
    [proposalId, feeType, feesJson, sessionId]
  | executePayFeeResponse _ errorMessage => errorMessage.toList
  | txFeesAuthorization partyId transactionId feesJson => [partyId, transactionId, feesJson]
  | payFeeAuthorization partyId sessionId proposalId feeType feesJson =>
    [partyId, sessionId, proposalId, feeType, feesJson]
  | offChainAuthorization partyId nonce sourceKind externalId feesJson =>
    [partyId, nonce, sourceKind, externalId, feesJson]

end Message

/-! ## Reading a payload -/

/-- The values of the lines with a key. -/
def valuesAt (key : String) (lines : List (String × Option String)) : List (Option String) :=
  (lines.filter fun l => decide (l.1 = key)).map Prod.snd

/-- Split at newlines and at the first `=` of each line, the payload has one line for each
argument that is present, with its value, none for one that is absent, and no other line but
that of the type. -/
def Carries (payload : List UInt8) (args : List KeyField) : Prop :=
  ∃ t : String, payload = utf8 t ∧
    (∀ f ∈ args, valuesAt f.key (keyLines t) = f.value.toList.map some) ∧
    ∀ l ∈ keyLines t, l.1 = "msg_type" ∨ ∃ f ∈ args, f.key = l.1

variable {fs : List KeyField} {msgType : String}

theorem mem_fieldLines {l : String × Option String} (h : l ∈ fieldLines fs) :
    ∃ f ∈ fs, f.key = l.1 := by
  obtain ⟨f, hf, hl⟩ := List.mem_filterMap.mp h
  obtain ⟨v, -, rfl⟩ := Option.map_eq_some_iff.mp hl
  exact ⟨f, hf, rfl⟩

theorem valuesAt_append (key : String) (ls ls' : List (String × Option String)) :
    valuesAt key (ls ++ ls') = valuesAt key ls ++ valuesAt key ls' := by
  unfold valuesAt
  rw [List.filter_append, List.map_append]

theorem valuesAt_of_notMem {key : String} {ls : List (String × Option String)}
    (h : ∀ l ∈ ls, l.1 ≠ key) : valuesAt key ls = [] := by
  unfold valuesAt
  rw [List.filter_eq_nil_iff.mpr fun l hl => by
    rw [decide_eq_true_eq]
    exact h l hl, List.map_nil]

/-- The line of one field. -/
theorem valuesAt_field (f : KeyField) :
    valuesAt f.key (fieldLines [f]) = f.value.toList.map some := by
  unfold fieldLines valuesAt
  cases hf : f.value with
  | none =>
    rw [List.filterMap_cons_none (by rw [hf]; rfl)]
    rfl
  | some v =>
    rw [List.filterMap_cons_some (by rw [hf]; rfl), List.filterMap_nil,
      List.filter_cons_of_pos (by rw [decide_eq_true_eq])]
    rfl

/-- Where the keys are distinct, each field has its own line. -/
theorem valuesAt_fieldLines (hnodup : (fs.map KeyField.key).Nodup) {f : KeyField} (hf : f ∈ fs) :
    valuesAt f.key (fieldLines fs) = f.value.toList.map some := by
  obtain ⟨front, back, rfl⟩ := List.append_of_mem hf
  have others : ∀ g ∈ front ++ back, g.key ≠ f.key := by
    have hperm : ((front ++ f :: back).map KeyField.key).Perm
        ((f :: (front ++ back)).map KeyField.key) := List.perm_middle.map _
    obtain ⟨hnew, -⟩ := List.nodup_cons.mp (hperm.nodup_iff.mp hnodup)
    exact fun g hg hkey => hnew (List.mem_map.mpr ⟨g, hg, hkey⟩)
  have none {gs : List KeyField} (h : gs ⊆ front ++ back) : valuesAt f.key (fieldLines gs) = [] :=
    valuesAt_of_notMem fun l hl => by
      obtain ⟨g, hg, hkey⟩ := mem_fieldLines hl
      exact hkey ▸ others g (h hg)
  have split : fieldLines (front ++ f :: back)
      = fieldLines front ++ (fieldLines [f] ++ fieldLines back) := by
    unfold fieldLines
    rw [← List.filterMap_append, ← List.filterMap_append]
    rfl
  rw [split, valuesAt_append, valuesAt_append, none (List.subset_append_left _ _),
    none (List.subset_append_right _ _), valuesAt_field, List.nil_append, List.append_nil]

/-- A message is the text of its fields, the type first. -/
theorem message_eq (msgType : String) (fs : List KeyField) :
    message msgType fs = utf8 (String.ofList (renderFields (text "msg_type" msgType :: fs))) := by
  unfold message authorization
  refine congrArg utf8 (String.toList_inj.mp ?_)
  have key : "msg_type=".toList = "msg_type".toList ++ ['='] := by decide
  rw [renderFields_cons, render_some rfl]
  simp only [String.toList_append, String.toList_ofList, key, List.append_assoc]
  rfl

/-- The lines of a message. -/
theorem keyLines_message (hmsg : OneLine msgType) (hkeys : ∀ f ∈ fs, IsKey f.key)
    (hvalues : ∀ f ∈ fs, ∀ v, f.value = some v → OneLine v) {t : String}
    (ht : message msgType fs = utf8 t) :
    keyLines t = ("msg_type", some msgType) :: fieldLines fs := by
  rw [message_eq] at ht
  rw [← utf8_inj ht, keyLines_renderFields]
  · rfl
  · exact List.forall_mem_cons.mpr ⟨(by decide : IsKey "msg_type"), hkeys⟩
  · refine List.forall_mem_cons.mpr ⟨fun v hv => ?_, hvalues⟩
    obtain rfl := Option.some.inj hv
    exact hmsg

/-- Fields under distinct names are carried by their message. -/
theorem carries_message (hmsg : OneLine msgType)
    (hkeys : ∀ k ∈ fs.map KeyField.key, IsKey k ∧ k ≠ "msg_type")
    (hnodup : (fs.map KeyField.key).Nodup)
    (hvalues : ∀ f ∈ fs, ∀ v, f.value = some v → OneLine v) :
    Carries (message msgType fs) fs := by
  have hkey : ∀ f ∈ fs, IsKey f.key ∧ f.key ≠ "msg_type" := fun f hf =>
    hkeys f.key (List.mem_map.mpr ⟨f, hf, rfl⟩)
  refine ⟨_, message_eq msgType fs, ?_⟩
  rw [keyLines_message hmsg (fun f hf => (hkey f hf).1) hvalues (message_eq msgType fs)]
  constructor
  · intro f hf
    rw [← valuesAt_fieldLines hnodup hf]
    unfold valuesAt
    rw [List.filter_cons_of_neg]
    rw [decide_eq_true_eq]
    exact (hkey f hf).2.symm
  · intro l hl
    rcases List.mem_cons.mp hl with rfl | hl
    · exact .inl rfl
    · exact .inr (mem_fieldLines hl)

/-! ## The arguments of a message -/

namespace Message

variable {m : Message}

/-- All string arguments are on one line. -/
def OneLineStrings (m : Message) : Prop := ∀ s ∈ m.strings, OneLine s

theorem keys_args [Base64] (m : Message) : m.args.map KeyField.key = m.names := by
  cases m <;> rfl

theorem names_ok (m : Message) :
    m.names.Nodup ∧ ∀ k ∈ m.names, IsKey k ∧ k ≠ "msg_type" := by
  refine ⟨by cases m <;> exact of_decide_eq_true rfl, ?_⟩
  cases m
  all_goals
    repeat refine List.forall_mem_cons.mpr ⟨⟨isKey_ofList (by decide +kernel), by decide⟩, ?_⟩
    exact List.forall_mem_nil _

theorem oneLine_msgType (m : Message) : OneLine m.msgType := by
  cases m <;> exact oneLine_ofList (by decide +kernel)

/-- The text of the field, if it has one, is on one line. -/
def OneLineField (f : KeyField) : Prop := ∀ v, f.value = some v → OneLine v

theorem oneLineField_text {key value : String} : OneLineField (text key value) ↔ OneLine value :=
  ⟨fun h => h value rfl, fun h _ hv => Option.some.inj hv ▸ h⟩

theorem oneLineField_opt {key : String} {value : Option String} :
    OneLineField (opt key value) ↔ ∀ v ∈ value, OneLine v := by
  cases value with
  | none => exact ⟨fun _ _ hv => (nomatch hv), fun _ _ hv => (nomatch hv)⟩
  | some value => exact ⟨fun h v hv => h v hv, fun h v hv => h v hv⟩

theorem oneLineField_bool (key : String) (b : Bool) : OneLineField (display key b) := by
  intro v hv
  obtain rfl : toString b = v := Option.some.inj hv
  cases b <;> decide

theorem oneLineField_round (key : String) (round : Option UInt64) :
    OneLineField (optDisplay key round) := by
  intro v hv
  obtain ⟨n, -, rfl⟩ := Option.map_eq_some_iff.mp hv
  exact notMem_natText (by decide)

/-- Arguments that are not strings are on one line anyway. -/
theorem oneLine_args [Base64] (h : m.OneLineStrings) : ∀ f ∈ m.args, OneLineField f := by
  unfold OneLineStrings at h
  cases m <;>
    simpa [args, strings, oneLineField_text, oneLineField_opt, oneLineField_bool,
      oneLineField_round, Base64.oneLine_base64Encode, or_imp, forall_and, and_assoc] using h

theorem carries_message_args [Base64] (h : m.OneLineStrings) :
    Carries (message m.msgType m.args) m.args := by
  obtain ⟨hnodup, hkeys⟩ := m.names_ok
  rw [← m.keys_args] at hnodup hkeys
  exact carries_message m.oneLine_msgType hkeys hnodup (oneLine_args h)

/-- The response to a prepare request whose command id is not the text of its transaction. -/
def Swapped [Base64] : Message → Prop
  | prepareResponse _ _ commandId prepared _ => commandId ≠ Base64.base64Encode prepared
  | _ => False

/-- What stands on the line of the command id. -/
theorem values_commandId [Base64] {transactionId hash commandId version t : String}
    {prepared : List UInt8}
    (h : (prepareResponse transactionId hash commandId prepared version).OneLineStrings)
    (ht : canonicalPrepareResponse transactionId hash commandId prepared version = utf8 t) :
    valuesAt "command_id" (keyLines t) = [some (Base64.base64Encode prepared)] := by
  have hstring : ∀ s ∈ [transactionId, hash, commandId, version], OneLine s := h
  have hfields : ∀ f ∈ [text "transaction_id" transactionId,
      text "prepared_transaction_hash" hash, text "command_id" (Base64.base64Encode prepared),
      text "prepared_transaction" commandId, text "hashing_scheme_version" version],
      IsKey f.key ∧ OneLineField f := by
    simp only [List.forall_mem_cons, oneLineField_text] at hstring ⊢
    obtain ⟨htransaction, hhash, hcommand, hversion, -⟩ := hstring
    exact ⟨⟨(by decide : IsKey "transaction_id"), htransaction⟩,
      ⟨(by decide : IsKey "prepared_transaction_hash"), hhash⟩,
      ⟨(by decide : IsKey "command_id"), Base64.oneLine_base64Encode prepared⟩,
      ⟨(by decide : IsKey "prepared_transaction"), hcommand⟩,
      ⟨(by decide : IsKey "hashing_scheme_version"), hversion⟩,
      fun f hf => absurd hf List.not_mem_nil⟩
  rw [keyLines_message (by decide) (fun f hf => (hfields f hf).1) (fun f hf => (hfields f hf).2) ht]
  rfl

/-- **A message carries its arguments under their names**, but for a response to a prepare
request whose command id is not the text of its transaction. -/
theorem carries_args_iff [Base64] (h : m.OneLineStrings) :
    Carries m.canonical m.args ↔ ¬ m.Swapped := by
  have hargs := carries_message_args h
  cases m with
  | prepareResponse transactionId hash commandId prepared version =>
    rw [Swapped, not_not]
    constructor
    · rintro ⟨t, ht, hvalues, -⟩
      have hcommand := hvalues (text "command_id" commandId)
        (List.mem_cons_of_mem _ (List.mem_cons_of_mem _ List.mem_cons_self))
      have hline := (values_commandId h ht).symm.trans hcommand
      exact (Option.some.inj (List.singleton_inj.mp hline)).symm
    · intro hsame
      subst hsame
      exact hargs
  | _ => exact iff_of_true hargs not_false

local instance standardCrate : Base64 := standardBase64

/-- A response whose command id is the text of its transaction. -/
theorem carries_args_iff_sameText :
    Carries (prepareResponse "tx" "hash" "AQ==" [1] "V2").canonical
        (prepareResponse "tx" "hash" "AQ==" [1] "V2").args ↔
      ¬ (prepareResponse "tx" "hash" "AQ==" [1] "V2").Swapped :=
  carries_args_iff (by decide : ∀ s ∈ ["tx", "hash", "AQ==", "V2"], OneLine s)

/-- A response with the command id `cmd` carries the transaction in its place. -/
theorem prepareResponse_swaps_commandId :
    ¬ ∀ m : Message, m.OneLineStrings → Carries m.canonical m.args := by
  intro h
  have hstrings : (prepareResponse "tx" "hash" "cmd" [1] "V2").OneLineStrings :=
    (by decide : ∀ s ∈ ["tx", "hash", "cmd", "V2"], OneLine s)
  obtain ⟨t, ht, hvalues, -⟩ := h _ hstrings
  have hcommand := hvalues (text "command_id" "cmd")
    (List.mem_cons_of_mem _ (List.mem_cons_of_mem _ List.mem_cons_self))
  have hline : [some (Base64.base64Encode [1])] = [some "cmd"] :=
    (values_commandId hstrings ht).symm.trans hcommand
  exact absurd hline (by decide)

end Message

end BookAgent.MessageSigning
