import BookAgent.MessageSigning.FeeBlock

/-!
# Calls of the payload builders

Every call of a builder as data, with the payload it gives. A call's lines determine
it when its lists are separated, and every list of lines of the same shape is that of
a call whose lists are.
-/

namespace BookAgent.MessageSigning

open BookAgent.Lib KeyField

/-! ## Calls -/

/-- A call of a params builder. -/
inductive Params
  | payFee (proposalId feeType : String)
  | proposeDvp (proposalId : String)
  | acceptDvp (proposalId dvpProposalCid : String)
  | allocate (proposalId dvpCid : String)
  | cancelDvpProposal (dvpProposalCid : String)
  | rejectDvpProposal (dvpProposalCid reason : String)
  | transferCc (receiverParty amount : String) (description : Option String) (commandId : String)
      (settlementProposalId : Option String)
  | prepayTraffic (amount : String) (description : Option String) (commandId : String)
  | requestPreapproval (instrumentAdmin : String)
  | requestRecurringPrepaid (appParty amount lockedAmount : String) (lockDays : UInt32)
      (description reference : Option String)
  | requestRecurringPayasyougo (appParty amount : String) (description reference : Option String)
  | requestUserService (referenceId partyName : Option String)
  | transferCip56 (instrumentId instrumentAdmin receiverParty amount : String)
      (reference : Option String) (inputHoldingCids : List String) (maxInputHoldings : Option UInt32)
  | acceptCip56 (contractId : String)
  | splitCc (outputAmounts : List String)
  | executeMulticall (opCount : UInt64)
  | lockHoldings (lockServiceCid amount context : String)
  | processLockUnlockRequests (lockControllerCid : String) (requestCount : UInt64)
  | resizeLock (lockControllerCid newAmount : String)
  | terminateLock (lockControllerCid : String)
  | faucet (tokenName tokenAdmin ticket : String) (dryRun : Bool)
  | atomicDvpSettle (venueCid quoteId ticketId user side baseAmount quoteAmount : String)
      (createdAtMicros validUntilMicros : Int64) (quoteSignatureDerHex : String)
      (ticketCid : Option String) (lpInputHoldingCids userInputHoldingCids : List String)
      (lpFees : List AtomicLpFee)
  | issueTickets (ticketIds : List String)
  | splitHoldings (instrumentId instrumentAdmin : String) (splits : List (String × UInt32))
      (inputHoldingCids : List String)
  | createAtomicDvpVenue (pairName baseInstrumentId baseInstrumentAdmin quoteInstrumentId
      quoteInstrumentAdmin quotePublicKeySpkiHex : String)
  | updateVenueKey (venueCid newQuotePublicKeySpkiHex : String)
  | retireVenue (venueCid : String)
  | cancelTickets (ticketCids : List String)

def Params.lines : Params → ParamLines
  | .payFee a b => canonicalParamsPayFee a b
  | .proposeDvp a => canonicalParamsProposeDvp a
  | .acceptDvp a b => canonicalParamsAcceptDvp a b
  | .allocate a b => canonicalParamsAllocate a b
  | .cancelDvpProposal a => canonicalParamsCancelDvpProposal a
  | .rejectDvpProposal a b => canonicalParamsRejectDvpProposal a b
  | .transferCc a b c d e => canonicalParamsTransferCc a b c d e
  | .prepayTraffic a b c => canonicalParamsPrepayTraffic a b c
  | .requestPreapproval a => canonicalParamsRequestPreapproval a
  | .requestRecurringPrepaid a b c d e f => canonicalParamsRequestRecurringPrepaid a b c d e f
  | .requestRecurringPayasyougo a b c d => canonicalParamsRequestRecurringPayasyougo a b c d
  | .requestUserService a b => canonicalParamsRequestUserService a b
  | .transferCip56 a b c d e f g => canonicalParamsTransferCip56 a b c d e f g
  | .acceptCip56 a => canonicalParamsAcceptCip56 a
  | .splitCc a => canonicalParamsSplitCc a
  | .executeMulticall a => canonicalParamsExecuteMulticall a
  | .lockHoldings a b c => canonicalParamsLockHoldings a b c
  | .processLockUnlockRequests a b => canonicalParamsProcessLockUnlockRequests a b
  | .resizeLock a b => canonicalParamsResizeLock a b
  | .terminateLock a => canonicalParamsTerminateLock a
  | .faucet a b c d => canonicalParamsFaucet a b c d
  | .atomicDvpSettle a b c d e f g h i j k l m n =>
    canonicalParamsAtomicDvpSettle a b c d e f g h i j k l m n
  | .issueTickets a => canonicalParamsIssueTickets a
  | .splitHoldings a b c d => canonicalParamsSplitHoldings a b c d
  | .createAtomicDvpVenue a b c d e f => canonicalParamsCreateAtomicDvpVenue a b c d e f
  | .updateVenueKey a b => canonicalParamsUpdateVenueKey a b
  | .retireVenue a => canonicalParamsRetireVenue a
  | .cancelTickets a => canonicalParamsCancelTickets a

/-- A call whose result is signed. -/
inductive Payload
  | request (operation : Int32) (params : Params)
  | atomicRequest (params : Params)
  | txFees (partyId transactionId feesJson : String)
  | payFee (partyId sessionId proposalId feeType feesJson : String)
  | offChain (partyId nonce sourceKind externalId feesJson : String)

def Payload.bytes : Payload → List UInt8
  | .request operation params => canonicalPrepareRequest operation params.lines.canonical
  | .atomicRequest params => canonicalPrepareAtomicRequest params.lines.canonical
  | .txFees a b c => canonicalTxFeesAuthorization a b c
  | .payFee a b c d e => canonicalPayFeeAuthorization a b c d e
  | .offChain a b c d e => canonicalOffChainAuthorization a b c d e

/-! ## Formats -/

/-- The keys of the lines of each type, in order. -/
def ParamType.keys : ParamType → List String
  | .payFee => ["proposal_id", "fee_type"]
  | .proposeDvp => ["proposal_id"]
  | .acceptDvp => ["proposal_id", "dvp_proposal_cid"]
  | .allocate => ["proposal_id", "dvp_cid"]
  | .cancelDvpProposal => ["dvp_proposal_cid"]
  | .rejectDvpProposal => ["dvp_proposal_cid", "reason"]
  | .transferCc =>
    ["receiver_party", "amount", "description", "command_id", "settlement_proposal_id"]
  | .prepayTraffic => ["amount", "description", "command_id"]
  | .requestPreapproval => ["instrument_admin"]
  | .requestRecurringPrepaid =>
    ["app_party", "amount", "locked_amount", "lock_days", "description", "reference"]
  | .requestRecurringPayasyougo => ["app_party", "amount", "description", "reference"]
  | .requestUserService => ["reference_id", "party_name"]
  | .transferCip56 =>
    ["instrument_id", "instrument_admin", "receiver_party", "amount", "reference",
      "input_holding_cids", "max_input_holdings"]
  | .acceptCip56 => ["contract_id"]
  | .splitCc => ["output_amounts"]
  | .executeMultiCall => ["op_count"]
  | .lockHoldings => ["lock_service_cid", "amount", "context"]
  | .processLockUnlockRequests => ["lock_controller_cid", "request_count"]
  | .resizeLock => ["lock_controller_cid", "new_amount"]
  | .terminateLock => ["lock_controller_cid"]
  | .faucet => ["token_name", "token_admin", "ticket", "dry_run"]
  | .atomicDvpSettle =>
    ["venue_cid", "quote_id", "ticket_id", "user", "side", "base_amount", "quote_amount",
      "created_at_micros", "valid_until_micros", "quote_signature", "ticket_cid",
      "lp_input_holding_cids", "user_input_holding_cids"]
  | .issueTickets => ["ticket_ids"]
  | .splitHoldings => ["instrument_id", "instrument_admin", "splits", "input_holding_cids"]
  | .createAtomicDvpVenue =>
    ["pair_name", "base_instrument_id", "base_instrument_admin", "quote_instrument_id",
      "quote_instrument_admin", "quote_public_key"]
  | .updateVenueKey => ["venue_cid", "new_quote_public_key"]
  | .retireVenue => ["venue_cid"]
  | .cancelTickets => ["ticket_cids"]

theorem Params.keys_lines (p : Params) :
    p.lines.fields.map KeyField.key = p.lines.paramType.keys := by
  cases p <;> rfl

theorem ParamType.isKey_keys (t : ParamType) : ∀ k ∈ t.keys, IsKey k := by
  cases t
  all_goals
    repeat refine List.forall_mem_cons.mpr ⟨isKey_ofList (by decide +kernel), ?_⟩
    exact List.forall_mem_nil _

theorem ParamType.nodup_keys (t : ParamType) : t.keys.Nodup := by
  cases t <;> decide +kernel

theorem ParamType.feeCount_notMem_keys (t : ParamType) : "fee_count" ∉ t.keys := by
  cases t <;> decide +kernel

/-- Only a settle has fees. -/
def ParamType.fees : ParamType → List AtomicLpFee → List AtomicLpFee
  | .atomicDvpSettle, fees => fees
  | _, _ => []

theorem Params.fees_lines (p : Params) : p.lines.paramType.fees p.lines.fees = p.lines.fees := by
  cases p <;> rfl

theorem ParamType.fees_cases (t : ParamType) : (∀ fees, t.fees fees = fees) ∨ ∀ fees, t.fees fees = [] := by
  cases t
  case atomicDvpSettle => exact .inl fun _ => rfl
  all_goals exact .inr fun _ => rfl

/-- What follows the lines of a type: its fee block. -/
def ParamType.Tail (t : ParamType) (x : List Char) : Prop := ∃ fees, x = feeBlock (t.fees fees)

/-- The lines of one type have one shape. -/
theorem Params.shape_lines {p q : Params} (h : p.lines.paramType = q.lines.paramType) :
    List.Forall₂ SameShape p.lines.fields q.lines.fields := by
  cases p <;> cases q <;> try cases h
  all_goals repeat' first | exact .nil | refine .cons ⟨rfl, rfl, rfl⟩ ?_

theorem Params.format_lines (p : Params) : Format p.lines.paramType.Tail p.lines.fields where
  keys := p.keys_lines ▸ p.lines.paramType.isKey_keys
  nodup := p.keys_lines ▸ p.lines.paramType.nodup_keys
  fresh := by
    rw [p.keys_lines]
    rintro k hk z ⟨fees, htail⟩
    cases hfees : p.lines.paramType.fees fees with
    | nil =>
      rw [hfees] at htail
      exact absurd htail (List.append_ne_nil_of_right_ne_nil _ (List.cons_ne_nil _ _))
    | cons fee rest =>
      rw [hfees, feeBlock_cons] at htail
      have key := (append_delimiter_inj (p.lines.paramType.isKey_keys k hk).2 (by decide) htail).1
      exact p.lines.paramType.feeCount_notMem_keys (String.toList_inj.mp key ▸ hk)

/-! ## Lists -/

theorem splitText_toList (s : String × UInt32) :
    (splitText s).toList = s.1.toList ++ 'x' :: (toString s.2).toList := by
  unfold splitText
  rw [String.toList_append, String.toList_append, List.append_assoc]
  rfl

theorem splitText_injective : Function.Injective splitText := by
  intro s t h
  have chars := congrArg String.toList h
  rw [splitText_toList, splitText_toList] at chars
  obtain ⟨hamount, hcount⟩ :=
    append_last_delimiter_inj (notMem_natText (by decide)) (notMem_natText (by decide)) chars
  exact Prod.ext (String.toList_inj.mp hamount)
    (InjectiveDisplay.injective (String.toList_inj.mp hcount))

/-- What a split's text goes on with after a comma is the text of a split. -/
theorem splitText_rest (s t : String × UInt32) (x : List Char)
    (h : (splitText s).toList = (splitText t).toList ++ ',' :: x) :
    ∃ u, (splitText u).toList = x := by
  rw [splitText_toList] at h
  rcases List.append_eq_append_iff.mp h with ⟨u, -, hu⟩ | ⟨u, -, hu⟩
  · have hmem : ',' ∈ 'x' :: (toString s.2).toList :=
      hu ▸ List.mem_append_right _ List.mem_cons_self
    rcases List.mem_cons.mp hmem with h | h
    · exact absurd h (by decide)
    · exact absurd h (notMem_natText (by decide))
  · cases u with
    | nil => exact absurd (List.cons.inj hu).1 (by decide)
    | cons c u =>
      refine ⟨(String.ofList u, s.2), ?_⟩
      rw [splitText_toList, String.toList_ofList, (List.cons.inj hu).2]
      rfl

theorem text_rest (x y : String) (t : List Char) (_ : x.toList = y.toList ++ ',' :: t) :
    ∃ z : String, z.toList = t :=
  ⟨String.ofList t, String.toList_ofList⟩

theorem list_inj {xs ys : List String} {key : String} (hx : Separated id ',' xs)
    (hy : Separated id ',' ys) : list id key xs = list id key ys ↔ xs = ys := by
  constructor
  · intro h
    exact joined_injective Function.injective_id text_rest hx hy
      (Option.some.inj (congrArg KeyField.value h))
  · rintro rfl
    rfl

theorem splits_inj {xs ys : List (String × UInt32)} {key : String}
    (hx : Separated splitText ',' xs) (hy : Separated splitText ',' ys) :
    list splitText key xs = list splitText key ys ↔ xs = ys := by
  constructor
  · intro h
    exact joined_injective splitText_injective splitText_rest hx hy
      (Option.some.inj (congrArg KeyField.value h))
  · rintro rfl
    rfl

theorem listUnlessEmpty_inj {xs ys : List String} {key : String} (hx : Finest id ',' xs)
    (hy : Finest id ',' ys) : listUnlessEmpty key xs = listUnlessEmpty key ys ↔ xs = ys := by
  constructor
  · intro h
    have values := congrArg KeyField.value h
    cases xs with
    | nil =>
      cases ys with
      | nil => rfl
      | cons => cases values
    | cons x xs =>
      cases ys with
      | nil => cases values
      | cons y ys =>
        exact joined_injective_of_ne_nil Function.injective_id text_rest hx hy
          (List.cons_ne_nil _ _) (List.cons_ne_nil _ _) (Option.some.inj values)
  · rintro rfl
    rfl

/-- What has the shape of a list is a separated one. -/
theorem sameShape_list {α : Type} {print : α → String} {key : String} {f : KeyField}
    {xs : List α} : f.SameShape (list print key xs) ↔
      ∃ ys, f = list print key ys ∧ Separated print ',' ys := by
  constructor
  · intro h
    obtain ⟨zs, rfl⟩ := sameShape_printedAs.mp h
    obtain ⟨ys, hys, text⟩ := exists_separated print ',' zs
    exact ⟨ys, eq_of_sameShape ⟨rfl, rfl, rfl⟩ (congrArg some text.symm), hys⟩
  · rintro ⟨ys, rfl, -⟩
    exact ⟨rfl, rfl, rfl⟩

theorem sameShape_listUnlessEmpty {key : String} {f : KeyField} {xs : List String} :
    f.SameShape (listUnlessEmpty key xs) ↔
      ∃ ys, f = listUnlessEmpty key ys ∧ Finest id ',' ys := by
  constructor
  · intro h
    obtain ⟨zs, rfl⟩ := sameShape_optPrintedAs.mp h
    cases zs with
    | none => exact ⟨[], rfl, fun _ h => nomatch h⟩
    | some zs =>
      by_cases hzs : zs = []
      · -- an empty text stands for a single empty element
        subst hzs
        refine ⟨[""], rfl, ?_⟩
        rintro x hx ⟨y, z, htext⟩
        obtain rfl := List.mem_singleton.mp hx
        exact List.append_ne_nil_of_right_ne_nil _ (List.cons_ne_nil _ _) htext.symm
      · obtain ⟨ys, hys, htext⟩ := exists_finest id ',' zs
        have hne : ys ≠ [] := by
          rintro rfl
          cases zs with
          | nil => exact hzs rfl
          | cons z zs => exact terminated_ne_nil htext.symm
        refine ⟨ys, eq_of_sameShape ⟨rfl, rfl, rfl⟩ ?_, hys⟩
        unfold listUnlessEmpty
        rw [if_neg (mt List.isEmpty_iff.mp hne)]
        exact congrArg some (joined_eq_of_terminated htext.symm)
  · rintro ⟨ys, rfl, -⟩
    exact ⟨rfl, rfl, rfl⟩

/-- The lists of the call are separated: no element contains a comma, no amount reads
as several splits, and an empty text stands for the empty list. -/
def Params.Listed : Params → Prop
  | .transferCip56 _ _ _ _ _ inputHoldingCids _ => Finest id ',' inputHoldingCids
  | .splitCc outputAmounts => Separated id ',' outputAmounts
  | .atomicDvpSettle _ _ _ _ _ _ _ _ _ _ _ lpInputHoldingCids userInputHoldingCids _ =>
    Separated id ',' lpInputHoldingCids ∧ Separated id ',' userInputHoldingCids
  | .issueTickets ticketIds => Separated id ',' ticketIds
  | .splitHoldings _ _ splits inputHoldingCids =>
    Separated splitText ',' splits ∧ Separated id ',' inputHoldingCids
  | .cancelTickets ticketCids => Separated id ',' ticketCids
  | _ => True

/-- **Listed params are read back from their lines.** -/
theorem Params.eq_of_lines {p q : Params} (ht : p.lines.paramType = q.lines.paramType)
    (hf : p.lines.fields = q.lines.fields) (hfees : p.lines.fees = q.lines.fees)
    (hp : p.Listed) (hq : q.Listed) : p = q := by
  cases p <;> cases q <;> try cases ht
  case transferCip56.transferCip56 =>
    simp only [Params.lines, canonicalParamsTransferCip56, List.cons.injEq, text_inj, opt_inj,
      optDisplay_inj, listUnlessEmpty_inj hp hq, and_true] at hf
    simp only [hf]
  case splitCc.splitCc =>
    simp only [Params.lines, canonicalParamsSplitCc, List.cons.injEq, list_inj hp hq,
      and_true] at hf
    simp only [hf]
  case atomicDvpSettle.atomicDvpSettle =>
    simp only [Params.lines, canonicalParamsAtomicDvpSettle, List.cons.injEq, text_inj, opt_inj,
      display_inj, list_inj hp.1 hq.1, list_inj hp.2 hq.2, and_true] at hf
    simp only [Params.lines, canonicalParamsAtomicDvpSettle] at hfees
    simp only [hf, hfees]
  case issueTickets.issueTickets =>
    simp only [Params.lines, canonicalParamsIssueTickets, List.cons.injEq, list_inj hp hq,
      and_true] at hf
    simp only [hf]
  case splitHoldings.splitHoldings =>
    simp only [Params.lines, canonicalParamsSplitHoldings, List.cons.injEq, text_inj,
      splits_inj hp.1 hq.1, list_inj hp.2 hq.2, and_true] at hf
    simp only [hf]
  case cancelTickets.cancelTickets =>
    simp only [Params.lines, canonicalParamsCancelTickets, List.cons.injEq, list_inj hp hq,
      and_true] at hf
    simp only [hf]
  all_goals
    simp only [Params.lines, canonicalParamsPayFee, canonicalParamsProposeDvp,
      canonicalParamsAcceptDvp, canonicalParamsAllocate, canonicalParamsCancelDvpProposal,
      canonicalParamsRejectDvpProposal, canonicalParamsTransferCc, canonicalParamsPrepayTraffic,
      canonicalParamsRequestPreapproval, canonicalParamsRequestRecurringPrepaid,
      canonicalParamsRequestRecurringPayasyougo, canonicalParamsRequestUserService,
      canonicalParamsAcceptCip56, canonicalParamsExecuteMulticall, canonicalParamsLockHoldings,
      canonicalParamsProcessLockUnlockRequests, canonicalParamsResizeLock,
      canonicalParamsTerminateLock, canonicalParamsFaucet, canonicalParamsCreateAtomicDvpVenue,
      canonicalParamsUpdateVenueKey, canonicalParamsRetireVenue, List.cons.injEq, text_inj,
      opt_inj, display_inj, and_true] at hf
    simp only [hf]

/-- **Every list of lines of a call's shape is that of listed params.** -/
theorem Params.exists_listed (p : Params) {gs : List KeyField}
    (shape : List.Forall₂ SameShape gs p.lines.fields) (fees : List AtomicLpFee) :
    ∃ q : Params, q.lines.paramType = p.lines.paramType ∧ q.lines.fields = gs ∧
      q.lines.fees = p.lines.paramType.fees fees ∧ q.Listed := by
  cases p
  all_goals simp only [Params.lines, canonicalParamsPayFee, canonicalParamsProposeDvp,
    canonicalParamsAcceptDvp, canonicalParamsAllocate, canonicalParamsCancelDvpProposal,
    canonicalParamsRejectDvpProposal, canonicalParamsTransferCc, canonicalParamsPrepayTraffic,
    canonicalParamsRequestPreapproval, canonicalParamsRequestRecurringPrepaid,
    canonicalParamsRequestRecurringPayasyougo, canonicalParamsRequestUserService,
    canonicalParamsTransferCip56, canonicalParamsAcceptCip56, canonicalParamsSplitCc,
    canonicalParamsExecuteMulticall, canonicalParamsLockHoldings,
    canonicalParamsProcessLockUnlockRequests, canonicalParamsResizeLock,
    canonicalParamsTerminateLock, canonicalParamsFaucet, canonicalParamsAtomicDvpSettle,
    canonicalParamsIssueTickets, canonicalParamsSplitHoldings,
    canonicalParamsCreateAtomicDvpVenue, canonicalParamsUpdateVenueKey,
    canonicalParamsRetireVenue, canonicalParamsCancelTickets, List.forall₂_cons_right_iff,
    List.forall₂_nil_right_iff, sameShape_text, sameShape_opt, sameShape_display,
    sameShape_optDisplay, sameShape_list, sameShape_listUnlessEmpty, ↓existsAndEq,
    exists_and_left, true_and, and_true] at shape
  case payFee =>
    obtain ⟨a, b, rfl⟩ := shape
    exact ⟨.payFee a b, rfl, rfl, rfl, trivial⟩
  case proposeDvp =>
    obtain ⟨a, rfl⟩ := shape
    exact ⟨.proposeDvp a, rfl, rfl, rfl, trivial⟩
  case acceptDvp =>
    obtain ⟨a, b, rfl⟩ := shape
    exact ⟨.acceptDvp a b, rfl, rfl, rfl, trivial⟩
  case allocate =>
    obtain ⟨a, b, rfl⟩ := shape
    exact ⟨.allocate a b, rfl, rfl, rfl, trivial⟩
  case cancelDvpProposal =>
    obtain ⟨a, rfl⟩ := shape
    exact ⟨.cancelDvpProposal a, rfl, rfl, rfl, trivial⟩
  case rejectDvpProposal =>
    obtain ⟨a, b, rfl⟩ := shape
    exact ⟨.rejectDvpProposal a b, rfl, rfl, rfl, trivial⟩
  case transferCc =>
    obtain ⟨a, b, c, d, e, rfl⟩ := shape
    exact ⟨.transferCc a b c d e, rfl, rfl, rfl, trivial⟩
  case prepayTraffic =>
    obtain ⟨a, b, c, rfl⟩ := shape
    exact ⟨.prepayTraffic a b c, rfl, rfl, rfl, trivial⟩
  case requestPreapproval =>
    obtain ⟨a, rfl⟩ := shape
    exact ⟨.requestPreapproval a, rfl, rfl, rfl, trivial⟩
  case requestRecurringPrepaid =>
    obtain ⟨a, b, c, d, e, f, rfl⟩ := shape
    exact ⟨.requestRecurringPrepaid a b c d e f, rfl, rfl, rfl, trivial⟩
  case requestRecurringPayasyougo =>
    obtain ⟨a, b, c, d, rfl⟩ := shape
    exact ⟨.requestRecurringPayasyougo a b c d, rfl, rfl, rfl, trivial⟩
  case requestUserService =>
    obtain ⟨a, b, rfl⟩ := shape
    exact ⟨.requestUserService a b, rfl, rfl, rfl, trivial⟩
  case transferCip56 =>
    obtain ⟨a, b, c, d, e, f, finest, g, rfl⟩ := shape
    exact ⟨.transferCip56 a b c d e f g, rfl, rfl, rfl, finest⟩
  case acceptCip56 =>
    obtain ⟨a, rfl⟩ := shape
    exact ⟨.acceptCip56 a, rfl, rfl, rfl, trivial⟩
  case splitCc =>
    obtain ⟨a, separated, rfl⟩ := shape
    exact ⟨.splitCc a, rfl, rfl, rfl, separated⟩
  case executeMulticall =>
    obtain ⟨a, rfl⟩ := shape
    exact ⟨.executeMulticall a, rfl, rfl, rfl, trivial⟩
  case lockHoldings =>
    obtain ⟨a, b, c, rfl⟩ := shape
    exact ⟨.lockHoldings a b c, rfl, rfl, rfl, trivial⟩
  case processLockUnlockRequests =>
    obtain ⟨a, b, rfl⟩ := shape
    exact ⟨.processLockUnlockRequests a b, rfl, rfl, rfl, trivial⟩
  case resizeLock =>
    obtain ⟨a, b, rfl⟩ := shape
    exact ⟨.resizeLock a b, rfl, rfl, rfl, trivial⟩
  case terminateLock =>
    obtain ⟨a, rfl⟩ := shape
    exact ⟨.terminateLock a, rfl, rfl, rfl, trivial⟩
  case faucet =>
    obtain ⟨a, b, c, d, rfl⟩ := shape
    exact ⟨.faucet a b c d, rfl, rfl, rfl, trivial⟩
  case atomicDvpSettle =>
    obtain ⟨a, b, c, d, e, f, g, h, i, j, k, l, m, separated, rfl⟩ := shape
    exact ⟨.atomicDvpSettle a b c d e f g h i j k l m fees, rfl, rfl, rfl, separated⟩
  case issueTickets =>
    obtain ⟨a, separated, rfl⟩ := shape
    exact ⟨.issueTickets a, rfl, rfl, rfl, separated⟩
  case splitHoldings =>
    obtain ⟨a, b, c, d, separated, rfl⟩ := shape
    exact ⟨.splitHoldings a b c d, rfl, rfl, rfl, separated⟩
  case createAtomicDvpVenue =>
    obtain ⟨a, b, c, d, e, f, rfl⟩ := shape
    exact ⟨.createAtomicDvpVenue a b c d e f, rfl, rfl, rfl, trivial⟩
  case updateVenueKey =>
    obtain ⟨a, b, rfl⟩ := shape
    exact ⟨.updateVenueKey a b, rfl, rfl, rfl, trivial⟩
  case retireVenue =>
    obtain ⟨a, rfl⟩ := shape
    exact ⟨.retireVenue a, rfl, rfl, rfl, trivial⟩
  case cancelTickets =>
    obtain ⟨a, separated, rfl⟩ := shape
    exact ⟨.cancelTickets a, rfl, rfl, rfl, separated⟩

end BookAgent.MessageSigning
