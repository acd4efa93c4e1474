import BookAgent.MessageSigning.Calls

/-!
# What a signed payload binds

Nothing in a payload is escaped, so two calls can print the same payload. A call is
clean when none of its values could end at a newline inside it with the lines of its
own format read from there on, and its lists are separated: two clean calls never
share a payload, and every payload is that of a clean call.
-/

namespace BookAgent.MessageSigning

open BookAgent.Lib KeyField

/-! ## Clean calls -/

/-- No value is cut by the lines its own format has after it, and no list by commas. -/
structure Params.Clean (p : Params) : Prop where
  fields : Unbroken p.lines.paramType.Tail (feeBlock p.lines.fees) p.lines.fields
  fees : CleanFees p.lines.fees
  listed : p.Listed

def Payload.Clean : Payload → Prop
  | .request _ params => params.Clean
  | .atomicRequest params => params.Clean
  | .txFees a b c => Unbroken NoTail [] (txFeesFields a b c)
  | .payFee a b c d e => Unbroken NoTail [] (payFeeFields a b c d e)
  | .offChain a b c d e => Unbroken NoTail [] (offChainFields a b c d e)

/-- Params without line breaks in their values are clean when they are listed. -/
theorem Params.clean_of_oneLine {p : Params}
    (hfields : ∀ f ∈ p.lines.fields, ∀ v, f.value = some v → OneLine v)
    (hfees : ∀ f ∈ feeFields 0 p.lines.fees, ∀ v, f.value = some v → OneLine v)
    (listed : p.Listed) : p.Clean :=
  ⟨unbroken_of_oneLine hfields, unbroken_of_oneLine hfees, listed⟩

/-! ## Params -/

/-- Every type. -/
def ParamType.all : List ParamType :=
  [.payFee, .proposeDvp, .acceptDvp, .allocate, .cancelDvpProposal, .rejectDvpProposal,
    .transferCc, .prepayTraffic, .requestPreapproval, .requestRecurringPrepaid,
    .requestRecurringPayasyougo, .requestUserService, .transferCip56, .acceptCip56, .splitCc,
    .executeMultiCall, .lockHoldings, .processLockUnlockRequests, .resizeLock, .terminateLock,
    .faucet, .atomicDvpSettle, .issueTickets, .splitHoldings, .createAtomicDvpVenue,
    .updateVenueKey, .retireVenue, .cancelTickets]

theorem ParamType.mem_all (t : ParamType) : t ∈ ParamType.all := by
  cases t <;> decide

theorem ParamType.name_injective {s t : ParamType} (h : s.name = t.name) : s = t := by
  have nodup : (ParamType.all.map ParamType.name).Nodup := by decide +kernel
  exact List.inj_on_of_nodup_map nodup s.mem_all t.mem_all h

theorem ParamType.oneLine_name (t : ParamType) : OneLine t.name := by
  cases t <;> exact oneLine_ofList (by decide +kernel)

theorem Params.tail_feeBlock (p : Params) : p.lines.paramType.Tail (feeBlock p.lines.fees) :=
  ⟨p.lines.fees, by rw [p.fees_lines]⟩

theorem canonical_eq (p : ParamLines) : p.canonical = "param_type=" ++ p.paramType.name ++ "\n" ++
    String.ofList (renderFields p.fields ++ feeBlock p.fees) := rfl

/-- The text of params determines their type and their lines' text. -/
theorem lines_of_canonical {p q : ParamLines} (h : p.canonical = q.canonical) :
    p.paramType = q.paramType ∧
      renderFields p.fields ++ feeBlock p.fees = renderFields q.fields ++ feeBlock q.fees := by
  have first : ∀ t : ParamType, OneLine ("param_type=" ++ t.name) := by
    intro t
    unfold OneLine
    rw [String.toList_append, List.mem_append, not_or]
    exact ⟨by decide, t.oneLine_name⟩
  rw [canonical_eq, canonical_eq] at h
  obtain ⟨htype, htext⟩ := line_inj (first _) (first _) h
  refine ⟨ParamType.name_injective ?_, String.ofList_inj.mp htext⟩
  rw [← String.toList_inj, String.toList_append, String.toList_append] at htype
  exact String.toList_inj.mp (List.append_cancel_left htype)

/-- Clean params are read back from their text. -/
theorem Params.canonical_injective {p q : Params} (hp : p.Clean) (hq : q.Clean)
    (h : p.lines.canonical = q.lines.canonical) : p = q := by
  obtain ⟨htype, htext⟩ := lines_of_canonical h
  have hfields : Unbroken q.lines.paramType.Tail (feeBlock p.lines.fees) p.lines.fields :=
    htype ▸ hp.fields
  have htail : q.lines.paramType.Tail (feeBlock p.lines.fees) := htype ▸ p.tail_feeBlock
  obtain ⟨fields, block⟩ := renderFields_injective (Params.shape_lines htype) q.format_lines htail
    q.tail_feeBlock hfields hq.fields htext
  exact Params.eq_of_lines htype fields (feeBlock_injective hp.fees hq.fees block) hp.listed
    hq.listed

/-- The block after the lines of a type is that of clean fees. -/
theorem ParamType.exists_cleanFees (t : ParamType) (fees : List AtomicLpFee) :
    ∃ fees', CleanFees (t.fees fees') ∧ feeBlock (t.fees fees') = feeBlock (t.fees fees) := by
  rcases t.fees_cases with all | none
  · obtain ⟨fees', clean, block⟩ := MessageSigning.exists_cleanFees (t.fees fees)
    exact ⟨fees', (all fees').symm ▸ clean, (all fees').symm ▸ block⟩
  · refine ⟨[], ?_, ?_⟩
    · rw [none]
      trivial
    · rw [none, none]

/-- Every text of params is that of clean ones. -/
theorem Params.exists_clean (p : Params) :
    ∃ q : Params, q.Clean ∧ q.lines.canonical = p.lines.canonical := by
  have reads : Reads p.lines.paramType.Tail p.lines.fields
      (renderFields p.lines.fields ++ feeBlock p.lines.fees) := reads_renderFields p.tail_feeBlock
  obtain ⟨gs, block, shape, ⟨fees, rfl⟩, unbroken, text⟩ := exists_unbroken reads
  obtain ⟨fees', clean, same⟩ := p.lines.paramType.exists_cleanFees fees
  obtain ⟨q, htype, hfields, hfees, listed⟩ := p.exists_listed shape fees'
  refine ⟨q, ⟨?_, ?_, listed⟩, ?_⟩
  · rw [htype, hfields, hfees, same]
    exact unbroken
  · rw [hfees]
    exact clean
  · rw [canonical_eq, canonical_eq, htype, hfields, hfees, same, text]

/-! ## Authorizations -/

section Authorizations

/-- Clean lines of one shape are read back from an authorization. -/
theorem fields_injective (keys : List String) {fs gs : List KeyField}
    (shape : List.Forall₂ SameShape fs gs) (hgs : gs.map KeyField.key = keys)
    (hkeys : ∀ k ∈ keys, IsKey k) (hnodup : keys.Nodup) (cleanf : Unbroken NoTail [] fs)
    (cleang : Unbroken NoTail [] gs) (h : renderFields fs = renderFields gs) : fs = gs := by
  have format : Format NoTail gs := by
    refine ⟨hgs ▸ hkeys, hgs ▸ hnodup, ?_⟩
    intro k _ z htail
    exact List.append_ne_nil_of_right_ne_nil _ (List.cons_ne_nil _ _) htail
  exact (renderFields_injective shape format rfl rfl cleanf cleang (congrArg (· ++ []) h)).1

/-- The lines of an authorization have the text of unbroken ones. -/
theorem exists_unbroken_fields (fs : List KeyField) :
    ∃ gs, List.Forall₂ SameShape gs fs ∧ Unbroken NoTail [] gs ∧
      renderFields gs = renderFields fs := by
  have reads : Reads NoTail fs (renderFields fs ++ []) := reads_renderFields rfl
  obtain ⟨gs, y, shape, rfl, unbroken, text⟩ := exists_unbroken reads
  exact ⟨gs, shape, unbroken, List.append_cancel_right text⟩

end Authorizations

/-! ## Payloads -/

/-- What a payload is for. -/
inductive MsgType
  | prepareTransactionRequest | prepareAtomicTransactionRequest | txFeesAuthorization
  | payFeeAuthorization | offChainAuthorization

/-- The value of the `msg_type` line. -/
def MsgType.name : MsgType → String
  | .prepareTransactionRequest => "PrepareTransactionRequest"
  | .prepareAtomicTransactionRequest => "PrepareAtomicTransactionRequest"
  | .txFeesAuthorization => "TxFeesAuthorization"
  | .payFeeAuthorization => "PayFeeAuthorization"
  | .offChainAuthorization => "OffChainAuthorization"

theorem MsgType.name_injective {s t : MsgType} (h : s.name = t.name) : s = t := by
  cases s <;> cases t <;> first | rfl | exact absurd h (by decide)

theorem MsgType.oneLine_name (t : MsgType) : OneLine ("msg_type=" ++ t.name) := by
  have key : OneLine "msg_type=" := oneLine_ofList (by decide +kernel)
  have name : OneLine t.name := by cases t <;> exact oneLine_ofList (by decide +kernel)
  unfold OneLine
  rw [String.toList_append, List.mem_append, not_or]
  exact ⟨key, name⟩

def Payload.msgType : Payload → MsgType
  | .request .. => .prepareTransactionRequest
  | .atomicRequest _ => .prepareAtomicTransactionRequest
  | .txFees .. => .txFeesAuthorization
  | .payFee .. => .payFeeAuthorization
  | .offChain .. => .offChainAuthorization

/-- What follows the `msg_type` line. -/
def Payload.content : Payload → String
  | .request operation params => "operation=" ++ toString operation ++ "\n" ++ params.lines.canonical
  | .atomicRequest params => params.lines.canonical
  | .txFees a b c => String.ofList (renderFields (txFeesFields a b c))
  | .payFee a b c d e => String.ofList (renderFields (payFeeFields a b c d e))
  | .offChain a b c d e => String.ofList (renderFields (offChainFields a b c d e))

theorem Payload.bytes_eq (p : Payload) :
    p.bytes = utf8 ("msg_type=" ++ p.msgType.name ++ "\n" ++ p.content) := by
  cases p with
  | request operation params =>
    change utf8 _ = utf8 _
    unfold content msgType MsgType.name
    simp only [String.append_assoc]
    rfl
  | _ => rfl

/-- The bytes determine the message type and what follows it. -/
theorem Payload.eq_of_bytes {p q : Payload} (h : p.bytes = q.bytes) :
    p.msgType = q.msgType ∧ p.content = q.content := by
  rw [p.bytes_eq, q.bytes_eq] at h
  obtain ⟨htype, hcontent⟩ := line_inj p.msgType.oneLine_name q.msgType.oneLine_name (utf8_inj h)
  rw [← String.toList_inj, String.toList_append, String.toList_append] at htype
  exact ⟨MsgType.name_injective (String.toList_inj.mp (List.append_cancel_left htype)), hcontent⟩

theorem Payload.bytes_congr {p q : Payload} (htype : p.msgType = q.msgType)
    (hcontent : p.content = q.content) : p.bytes = q.bytes := by
  rw [p.bytes_eq, q.bytes_eq, htype, hcontent]

/-- The content of a prepare request determines its operation and its params' text. -/
theorem request_content_inj {op op' : Int32} {x y : String}
    (h : "operation=" ++ toString op ++ "\n" ++ x = "operation=" ++ toString op' ++ "\n" ++ y) :
    op = op' ∧ x = y := by
  have line : ∀ op : Int32, OneLine ("operation=" ++ toString op) := by
    intro op
    unfold OneLine
    rw [String.toList_append, List.mem_append, not_or]
    exact ⟨by decide, notMem_intText (by decide) (by decide)⟩
  obtain ⟨hop, hxy⟩ := line_inj (line op) (line op') h
  rw [← String.toList_inj, String.toList_append, String.toList_append] at hop
  exact ⟨InjectiveDisplay.injective (String.toList_inj.mp (List.append_cancel_left hop)), hxy⟩

/-- Two clean calls do not share a payload. -/
theorem Payload.bytes_injective {p q : Payload} (hp : p.Clean) (hq : q.Clean)
    (h : p.bytes = q.bytes) : p = q := by
  obtain ⟨htype, hcontent⟩ := Payload.eq_of_bytes h
  cases p <;> cases q <;> try cases htype
  case request.request =>
    obtain ⟨rfl, htext⟩ := request_content_inj hcontent
    rw [Params.canonical_injective hp hq htext]
  case atomicRequest.atomicRequest =>
    rw [Params.canonical_injective hp hq hcontent]
  case txFees.txFees a b c a' b' c' =>
    have fields : txFeesFields a b c = txFeesFields a' b' c' := fields_injective
      ["party_id", "transaction_id", "fees_json"]
      (.cons ⟨rfl, rfl, rfl⟩ (.cons ⟨rfl, rfl, rfl⟩ (.cons ⟨rfl, rfl, rfl⟩ .nil))) rfl (by decide)
      (by decide) hp hq (String.ofList_inj.mp hcontent)
    simp only [txFeesFields, List.cons.injEq, text_inj, and_true] at fields
    simp only [fields]
  case payFee.payFee a b c d e a' b' c' d' e' =>
    have fields : payFeeFields a b c d e = payFeeFields a' b' c' d' e' := fields_injective
      ["party_id", "session_id", "proposal_id", "fee_type", "fees_json"]
      (.cons ⟨rfl, rfl, rfl⟩ (.cons ⟨rfl, rfl, rfl⟩ (.cons ⟨rfl, rfl, rfl⟩
        (.cons ⟨rfl, rfl, rfl⟩ (.cons ⟨rfl, rfl, rfl⟩ .nil))))) rfl (by decide)
      (by decide) hp hq (String.ofList_inj.mp hcontent)
    simp only [payFeeFields, List.cons.injEq, text_inj, and_true] at fields
    simp only [fields]
  case offChain.offChain a b c d e a' b' c' d' e' =>
    have fields : offChainFields a b c d e = offChainFields a' b' c' d' e' := fields_injective
      ["party_id", "nonce", "source_kind", "external_id", "fees_json"]
      (.cons ⟨rfl, rfl, rfl⟩ (.cons ⟨rfl, rfl, rfl⟩ (.cons ⟨rfl, rfl, rfl⟩
        (.cons ⟨rfl, rfl, rfl⟩ (.cons ⟨rfl, rfl, rfl⟩ .nil))))) rfl (by decide)
      (by decide) hp hq (String.ofList_inj.mp hcontent)
    simp only [offChainFields, List.cons.injEq, text_inj, and_true] at fields
    simp only [fields]

/-- Every payload is that of a clean call. -/
theorem Payload.exists_clean (p : Payload) : ∃ q : Payload, q.Clean ∧ p.bytes = q.bytes := by
  cases p with
  | request operation params =>
    obtain ⟨q, clean, text⟩ := params.exists_clean
    refine ⟨.request operation q, clean, Payload.bytes_congr rfl ?_⟩
    exact congrArg ("operation=" ++ toString operation ++ "\n" ++ ·) text.symm
  | atomicRequest params =>
    obtain ⟨q, clean, text⟩ := params.exists_clean
    exact ⟨.atomicRequest q, clean, Payload.bytes_congr rfl text.symm⟩
  | txFees a b c =>
    obtain ⟨gs, shape, clean, text⟩ := exists_unbroken_fields (txFeesFields a b c)
    simp only [txFeesFields, List.forall₂_cons_right_iff, List.forall₂_nil_right_iff,
      sameShape_text, ↓existsAndEq, true_and, exists_and_left] at shape
    obtain ⟨a', b', c', rfl⟩ := shape
    exact ⟨.txFees a' b' c', clean, Payload.bytes_congr rfl (congrArg String.ofList text.symm)⟩
  | payFee a b c d e =>
    obtain ⟨gs, shape, clean, text⟩ := exists_unbroken_fields (payFeeFields a b c d e)
    simp only [payFeeFields, List.forall₂_cons_right_iff, List.forall₂_nil_right_iff,
      sameShape_text, ↓existsAndEq, true_and, exists_and_left] at shape
    obtain ⟨a', b', c', d', e', rfl⟩ := shape
    exact ⟨.payFee a' b' c' d' e', clean,
      Payload.bytes_congr rfl (congrArg String.ofList text.symm)⟩
  | offChain a b c d e =>
    obtain ⟨gs, shape, clean, text⟩ := exists_unbroken_fields (offChainFields a b c d e)
    simp only [offChainFields, List.forall₂_cons_right_iff, List.forall₂_nil_right_iff,
      sameShape_text, ↓existsAndEq, true_and, exists_and_left] at shape
    obtain ⟨a', b', c', d', e', rfl⟩ := shape
    exact ⟨.offChain a' b' c' d' e', clean,
      Payload.bytes_congr rfl (congrArg String.ofList text.symm)⟩

/-- **A payload binds its call, among the clean calls, exactly when the call is clean.** -/
theorem Payload.bound_iff_clean (p : Payload) :
    (∀ q : Payload, q.Clean → p.bytes = q.bytes → p = q) ↔ p.Clean := by
  constructor
  · intro bound
    obtain ⟨q, clean, same⟩ := p.exists_clean
    exact bound q clean same ▸ clean
  · intro hp q hq h
    exact Payload.bytes_injective hp hq h

/-- A proposal id with a line break moves the fee type. -/
theorem Payload.request_not_bound : ¬ ∀ p q : Payload, p.bytes = q.bytes → p = q := by
  intro bound
  have same := bound (.request 1 (.payFee "p1\nfee_type=dvp" "allocate"))
    (.request 1 (.payFee "p1" "dvp\nfee_type=allocate")) (by decide +kernel)
  simp only [Payload.request.injEq, Params.payFee.injEq] at same
  exact absurd same.2.1 (by decide)

end BookAgent.MessageSigning
