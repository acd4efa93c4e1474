import BookAgent.TxVerifier.TransferSafety

/-!
# Expected exercises

What acceptance establishes for the operations that are one exercise: accepting
a token transfer, paying a fee, proposing a DVP, allocating, and requesting a
prepaid subscription. The choice and the acting party are always checked; a
template, an interface or an argument that cannot be read is a warning.
-/

namespace BookAgent.TxVerifier

open BookAgent.Lib Inspect

/-! ## The operation as it is asked for -/

section Expected

/-- A text somewhere inside a value. -/
inductive Value.Mentions (text : String) : Value → Prop
  | text : Mentions text (.text text)
  | optional {v : Value} : Mentions text v → Mentions text (.optional (some v))
  | list {l : List Value} {v : Value} : v ∈ l → Mentions text v → Mentions text (.list l)
  | textMap {l : List (TextMapEntry Value)} {e : TextMapEntry Value} {v : Value} :
    e ∈ l → e.value = some v → Mentions text v → Mentions text (.textMap l)
  | record {r : Record Value} {f : RecordField Value} {v : Value} :
    f ∈ r.fields → f.value = some v → Mentions text v → Mentions text (.record r)
  | variant {id : Option Identifier} {c : String} {v : Value} :
    Mentions text v → Mentions text (.variant id c (some v))
  | genMapKey {l : List (GenMapEntry Value)} {e : GenMapEntry Value} {v : Value} :
    e ∈ l → e.key = some v → Mentions text v → Mentions text (.genMap l)
  | genMapValue {l : List (GenMapEntry Value)} {e : GenMapEntry Value} {v : Value} :
    e ∈ l → e.value = some v → Mentions text v → Mentions text (.genMap l)

def onTransferInstruction (e : Exercise) : Prop :=
  ∃ iface, e.interfaceId = some iface ∧
    templateMatches iface "Splice.Api.Token.TransferInstructionV1" "TransferInstruction" = true

def onTemplate (moduleName entityName : String) (e : Exercise) : Prop :=
  ∃ tid, e.templateId = some tid ∧ templateMatches tid moduleName entityName = true

/-- The only root is an exercise of the choice with the party acting. -/
def OnlyExercise (p : PreparedTransaction) (choice party : String)
    (rest : DamlTransaction → Exercise → Prop) : Prop :=
  ∃ tx e, p.transaction = some tx ∧ tx.roots.length = 1 ∧ exercisedRoot p = some e ∧
    e.choiceId = choice ∧ party ∈ e.actingParties ∧ rest tx e

/-- The operation alone, on the named template, with its identifying values. -/
def ExpectedExercise (p : PreparedTransaction) : OperationExpectation → Prop
  | .acceptCip56 receiver contractId =>
    OnlyExercise p "TransferInstruction_Accept" receiver fun _ e =>
      onTransferInstruction e ∧ e.contractId = contractId
  | .payFee sender feeParty _ _ =>
    OnlyExercise p "TransferFactory_Transfer" sender fun _ e =>
      onTemplate "Splice.ExternalPartyAmuletRules" "ExternalPartyAmuletRules" e ∧
      ∃ transfer, transferRecord e = some transfer ∧ transferReceiver transfer = some feeParty ∧
        transferInstrument transfer = some "Amulet"
  | .proposeDvp buyer _ proposalId _ =>
    OnlyExercise p "UserService_ProposeDvp" buyer fun tx e =>
      onTemplate "Utility.Settlement.App.V1.Service.User" "UserService" e ∧
      (e.chosenValue.bind asRecord).bind termsId = some proposalId ∧
      ∀ n c, Reaches (buildNodesDict tx) e.children n → asCreate n = some c →
        isDvpTemplate "DvpProposal" c = true →
        (c.argument.bind asRecord).bind termsId = some proposalId
  | .allocate party proposalId _ =>
    OnlyExercise p "AllocationFactory_Allocate" party fun _ e =>
      (onTemplate "Splice.ExternalPartyAmuletRules" "ExternalPartyAmuletRules" e ∨
        onTemplate "Utility.Registry.App.V0.Service.AllocationFactory" "AllocationFactory" e) ∧
      ∃ v, e.chosenValue = some v ∧ v.Mentions proposalId
  | .requestRecurringPrepaid party appParty _ =>
    OnlyExercise p "RecurringPaymentAppService_LockFundsForRequest" party fun _ e =>
      onTemplate "RecurringPaymentAppService" "RecurringPaymentAppService" e ∧
      (∃ r, e.chosenValue.bind asRecord = some r ∧
        (getRecordField r "user").bind getParty = some party) ∧ appParty ∈ e.signatories
  | _ => False

end Expected

/-! ## What the inspectors establish -/

section Established

/-- The first root exercises the choice, with the party submitting and acting. -/
structure RootEstablished (choice party : String) (p : PreparedTransaction) (e : Exercise) :
    Prop where
  root : exercisedRoot p = some e
  choice : e.choiceId = choice
  actAs : party ∈ submitterActAs p
  acting : party ∈ e.actingParties

structure AcceptCip56Established (receiver contractId : String) (p : PreparedTransaction)
    (warnings : List String) (e : Exercise) : Prop
    extends RootEstablished "TransferInstruction_Accept" receiver p e where
  contractId : e.contractId = contractId
  consuming : e.consuming = true
  interfaceMissing : e.interfaceId = none → "Root exercise missing interface_id" ∈ warnings
  interfaceId : ∀ iface, e.interfaceId = some iface →
    templateMatches iface "Splice.Api.Token.TransferInstructionV1" "TransferInstruction" = true ∨
      s!"Unexpected interface_id: {iface.moduleName}.{iface.entityName} " ++
        "(expected Splice.Api.Token.TransferInstructionV1.TransferInstruction)" ∈ warnings

structure PayFeeEstablished (sender feeParty : String) (p : PreparedTransaction)
    (warnings : List String) (e : Exercise) : Prop
    extends RootEstablished "TransferFactory_Transfer" sender p e where
  template : ∀ tid, e.templateId = some tid →
    templateMatches tid "Splice.ExternalPartyAmuletRules" "ExternalPartyAmuletRules" = true ∨
      s!"Unexpected template: {tid.moduleName}.{tid.entityName}" ∈ warnings
  argument : transferRecord e = none → "Could not parse chosen_value as Record" ∈ warnings ∨
    "Could not extract 'transfer' from chosen_value" ∈ warnings
  receiver : ∀ t, transferRecord e = some t → ∀ s, transferReceiver t = some s → s = feeParty
  receiverMissing : ∀ t, transferRecord e = some t → getRecordField t "receiver" = none →
    "Could not extract transfer.receiver" ∈ warnings
  instrument : ∀ t, transferRecord e = some t →
    Reported (transferInstrument t) (· == "Amulet") "Could not extract instrumentId.id" warnings

structure ProposeDvpEstablished (buyer proposalId : String) (p : PreparedTransaction)
    (warnings : List String) (e : Exercise) : Prop
    extends RootEstablished "UserService_ProposeDvp" buyer p e where
  template : ∀ tid, e.templateId = some tid →
    templateMatches tid "Utility.Settlement.App.V1.Service.User" "UserService" = true
  terms : ∀ r, e.chosenValue.bind asRecord = some r → Reported (termsId r) (· == proposalId)
    "Could not extract chosen_value.terms.id" warnings
  created : ∀ tx, p.transaction = some tx → ∀ c ∈ childCreates (buildNodesDict tx) e.children,
    isDvpTemplate "DvpProposal" c = true →
    ∀ id, (c.argument.bind asRecord).bind termsId = some id → id = proposalId
  noneCreated : ∀ tx, p.transaction = some tx →
    (∀ c ∈ childCreates (buildNodesDict tx) e.children, isDvpTemplate "DvpProposal" c = false) →
    "No DvpProposal Create node found in children" ∈ warnings

structure AllocateEstablished (party proposalId : String) (p : PreparedTransaction)
    (warnings : List String) (e : Exercise) : Prop
    extends RootEstablished "AllocationFactory_Allocate" party p e where
  template : ∀ tid, e.templateId = some tid →
    templateMatches tid "Splice.ExternalPartyAmuletRules" "ExternalPartyAmuletRules" = true ∨
    templateMatches tid "Utility.Registry.App.V0.Service.AllocationFactory" "AllocationFactory" =
      true ∨ s!"Unexpected template: {tid.moduleName}.{tid.entityName} " ++
        "(expected ExternalPartyAmuletRules or AllocationFactory)" ∈ warnings
  commandId : ∀ m s, p.metadata = some m → m.submitterInfo = some s →
    proposalId.toList <:+: s.commandId.toList ∨
      s!"command_id {s.commandId} does not contain proposal_id {proposalId}" ∈ warnings

structure PrepaidEstablished (party appParty : String) (p : PreparedTransaction)
    (warnings : List String) (e : Exercise) : Prop
    extends RootEstablished "RecurringPaymentAppService_LockFundsForRequest" party p e where
  template : ∀ tid, e.templateId = some tid →
    templateMatches tid "RecurringPaymentAppService" "RecurringPaymentAppService" = true ∨
      s!"Unexpected template: {tid.moduleName}.{tid.entityName}" ∈ warnings
  argument : e.chosenValue.bind asRecord = none →
    "Could not parse chosen_value as Record" ∈ warnings
  user : ∀ r, e.chosenValue.bind asRecord = some r →
    (getRecordField r "user").bind getParty = some party
  app : appParty ∈ e.signatories ∨
    s!"signatories {debugStrings e.signatories} does not contain app_party " ++ appParty ∈ warnings

variable {p : PreparedTransaction} {r : InspectionResult}

theorem accepted_acceptCip56 {receiver contractId : String}
    (h : inspectAcceptCip56 p receiver contractId = .ok r) (hacc : r.accepted = true) :
    ∃ e, AcceptCip56Established receiver contractId p r.warnings e := by
  obtain ⟨summary, warnings, passed, rfl⟩ := accepted_iff.mp ⟨h, hacc⟩
  simp only [bind_ok, require_ok, checkActAs_ok, orReject_ok, checkChoice_ok, ensure_ok,
    checkActingParties_ok, warnValue_ok, warnUnless_ok, pure_ok, and_assoc, exists_and_left,
    exists_eq_left, exists_const] at passed
  obtain ⟨tx, htx, m, hm, s, hs, hact, id, hid, n, hn, e, he, hchoice, hcid, hacting, hconsuming,
    -, hw⟩ := passed
  refine ⟨e, ⟨⟨?_, hchoice, ?_, hacting⟩, hcid, hconsuming, fun hnone => ?_,
    fun iface hiface => ?_⟩⟩
  · rw [exercisedRoot, htx, Option.bind_some, hid, Option.bind_some, hn, Option.bind_some, he]
  · rw [submitterActAs, hm, Option.bind_some, hs]
    exact hact
  · simp [hw, hnone]
  · refine or_iff_not_imp_left.mpr fun hne => ?_
    simp [hw, hiface, hne]

theorem accepted_payFee {sender feeParty proposalId feeType : String}
    (h : inspectPayFee p sender feeParty proposalId feeType = .ok r) (hacc : r.accepted = true) :
    ∃ e, PayFeeEstablished sender feeParty p r.warnings e := by
  obtain ⟨summary, warnings, passed, rfl⟩ := accepted_iff.mp ⟨h, hacc⟩
  simp only [bind_ok, checkActAs_ok, checkChoice_ok, checkActingParties_ok, warnValue_ok,
    warnUnless_ok, pure_ok, and_assoc, exists_and_left, exists_eq_left, exists_const] at passed
  obtain ⟨parts, w₀, hparts, hact, hchoice, hacting, _, w, hargument, -, rfl⟩ := passed
  obtain ⟨hof, rfl⟩ := extractRootExercise_ok hparts
  have root : RootEstablished "TransferFactory_Transfer" sender p parts.rootExercise :=
    ⟨hof.root, hchoice, hof.mem_actAs hact, hacting⟩
  simp only [onValue_ok, bind_ok, ensureValue_ok, warnUnless_ok, checkAmulet_ok, warn_ok,
    and_assoc, exists_and_left, exists_eq_left, exists_const] at hargument
  -- a readable transfer, an argument without one, an argument that is no record
  obtain ⟨cr, hcr, ⟨t, ht, hreceiver, hinstrument, rfl⟩ | ⟨ht, rfl⟩⟩ | ⟨hcr, rfl⟩ := hargument
  · have transfer : transferRecord parts.rootExercise = some t := by
      rw [transferRecord, hcr]
      exact ht
    refine ⟨_, root, fun tid htid => ?_, fun hnone => ?_, fun t' ht' => ?_, fun t' ht' hfield => ?_,
      fun t' ht' => ?_⟩
    · refine or_iff_not_imp_left.mpr fun hne => ?_
      simp [htid, hne]
    · rw [transfer] at hnone
      cases hnone
    · rwa [← Option.some.inj (transfer.symm.trans ht')]
    · rw [← Option.some.inj (transfer.symm.trans ht')] at hfield
      simp [hfield]
    · rw [← Option.some.inj (transfer.symm.trans ht')]
      cases hi : transferInstrument t with
      | none => simp [Reported]
      | some iid => simp [Reported, hinstrument iid hi]
  · have transfer : transferRecord parts.rootExercise = none := by
      rw [transferRecord, hcr]
      exact ht
    refine ⟨_, root, fun tid htid => ?_, fun _ => .inr (by simp), ?_, ?_, ?_⟩
    · refine or_iff_not_imp_left.mpr fun hne => ?_
      simp [htid, hne]
    all_goals simp [transfer]
  · have transfer : transferRecord parts.rootExercise = none := by
      rw [transferRecord, hcr]
      rfl
    refine ⟨_, root, fun tid htid => ?_, fun _ => .inl (by simp), ?_, ?_, ?_⟩
    · refine or_iff_not_imp_left.mpr fun hne => ?_
      simp [htid, hne]
    all_goals simp [transfer]

theorem accepted_proposeDvp {buyer proposalId synchronizerId : String}
    (h : inspectProposeDvp p buyer proposalId synchronizerId = .ok r) (hacc : r.accepted = true) :
    ∃ e, ProposeDvpEstablished buyer proposalId p r.warnings e := by
  obtain ⟨summary, warnings, passed, rfl⟩ := accepted_iff.mp ⟨h, hacc⟩
  simp only [bind_ok, checkActAs_ok, checkChoice_ok, checkTemplate_ok, checkActingParties_ok,
    warnUnless_ok, ensureAll_ok, pure_ok, and_assoc, exists_and_left, exists_eq_left,
    exists_const] at passed
  obtain ⟨parts, w₀, hparts, hact, hchoice, htemplate, hacting, _, w, hterms, hcreated, -, rfl⟩ :=
    passed
  obtain ⟨hof, rfl⟩ := extractRootExercise_ok hparts
  have here : ∀ tx, p.transaction = some tx → parts.nodesDict = buildNodesDict tx := by
    intro tx htx
    rw [hof.nodesDict, Option.some.inj (hof.transaction.symm.trans htx)]
  refine ⟨parts.rootExercise, ⟨hof.root, hchoice, hof.mem_actAs hact, hacting⟩, htemplate,
    fun cr hcr => ?_, fun tx htx c hc hdvp id hid => ?_, fun tx htx hnone => ?_⟩
  · obtain ⟨cr', hcr', h⟩ | ⟨hnone, -⟩ := onValue_ok.mp hterms
    · obtain rfl := Option.some.inj (hcr.symm.trans hcr')
      obtain ⟨hok, rfl⟩ := ensureOrWarn_ok.mp h
      cases hid : termsId cr with
      | none => simp [Reported]
      | some id => simp [Reported, hok id hid]
    · rw [hnone] at hcr
      cases hcr
  · rw [here tx htx] at hcreated
    exact hcreated id (List.mem_filterMap.mpr ⟨c, List.mem_filter.mpr ⟨hc, hdvp⟩, hid⟩)
  · have empty : (childCreates parts.nodesDict parts.rootExercise.children).filter
        (isDvpTemplate "DvpProposal") = [] := by
      rw [here tx htx]
      exact List.filter_eq_nil_iff.mpr fun c hc => by simp [hnone c hc]
    simp [empty]

theorem accepted_allocate {party proposalId dvpCid : String}
    (h : inspectAllocate p party proposalId dvpCid = .ok r) (hacc : r.accepted = true) :
    ∃ e, AllocateEstablished party proposalId p r.warnings e := by
  obtain ⟨summary, warnings, passed, rfl⟩ := accepted_iff.mp ⟨h, hacc⟩
  simp only [bind_ok, checkActAs_ok, checkChoice_ok, checkActingParties_ok, warnValue_ok,
    warnUnless_ok, pure_ok, and_assoc, exists_and_left, exists_eq_left, exists_const] at passed
  obtain ⟨parts, w₀, hparts, hact, hchoice, hacting, -, rfl⟩ := passed
  obtain ⟨hof, rfl⟩ := extractRootExercise_ok hparts
  refine ⟨parts.rootExercise, ⟨hof.root, hchoice, hof.mem_actAs hact, hacting⟩,
    fun tid htid => ?_, fun m s hm hs => ?_⟩
  · by_cases known : templateMatches tid "Splice.ExternalPartyAmuletRules"
        "ExternalPartyAmuletRules" = true ∨ templateMatches tid
        "Utility.Registry.App.V0.Service.AllocationFactory" "AllocationFactory" = true
    · exact known.elim .inl fun k => .inr (.inl k)
    · exact .inr (.inr (by simp [htid, known]))
  · obtain rfl := Option.some.inj (hof.metadata.symm.trans hm)
    obtain rfl := Option.some.inj (hof.submitter.symm.trans hs)
    refine or_iff_not_imp_left.mpr fun hne => ?_
    simp [hne]

theorem accepted_recurringPrepaid {party appParty amount : String}
    (h : inspectRecurringPrepaid p party appParty amount = .ok r) (hacc : r.accepted = true) :
    ∃ e, PrepaidEstablished party appParty p r.warnings e := by
  obtain ⟨summary, warnings, passed, rfl⟩ := accepted_iff.mp ⟨h, hacc⟩
  simp only [bind_ok, checkActAs_ok, checkChoice_ok, checkActingParties_ok, warnValue_ok,
    warnUnless_ok, pure_ok, and_assoc, exists_and_left, exists_eq_left, exists_const] at passed
  obtain ⟨parts, w₀, hparts, hact, hchoice, hacting, _, w, hargument, -, rfl⟩ := passed
  obtain ⟨hof, rfl⟩ := extractRootExercise_ok hparts
  simp only [onValue_ok, bind_ok, checkPartyField_ok, checkDailyAmount_ok, warn_ok, and_assoc,
    exists_and_left, exists_eq_left, exists_const] at hargument
  have app : appParty ∈ parts.rootExercise.signatories ∨ s!"signatories {debugStrings
      parts.rootExercise.signatories} does not contain app_party " ++ appParty ∈
      w ++ if appParty ∈ parts.rootExercise.signatories then [] else
        [s!"signatories {debugStrings parts.rootExercise.signatories} does not contain app_party " ++
          appParty] := by
    refine or_iff_not_imp_left.mpr fun hne => ?_
    simp [hne]
  refine ⟨parts.rootExercise, ⟨hof.root, hchoice, hof.mem_actAs hact, hacting⟩, ?_, ?_, ?_, app⟩
  · intro tid htid
    refine or_iff_not_imp_left.mpr fun hne => List.mem_append_left _ ?_
    obtain ⟨cr, -, -, rfl⟩ | ⟨-, rfl⟩ := hargument <;> simp [htid, hne]
  · intro hnone
    obtain ⟨cr, hcr, -⟩ | ⟨-, rfl⟩ := hargument
    · rw [hnone] at hcr
      cases hcr
    · simp
  · intro cr hcr
    obtain ⟨cr', hcr', huser, -⟩ | ⟨hnone, -⟩ := hargument
    · rwa [Option.some.inj (hcr.symm.trans hcr')]
    · rw [hnone] at hcr
      cases hcr

end Established

/-! ## From what is established to what is expected -/

section Complete

def SingleRoot (p : PreparedTransaction) : Prop :=
  ∀ tx, p.transaction = some tx → tx.roots.length = 1

variable {p : PreparedTransaction} {e : Exercise}

theorem transaction_of_exercisedRoot (h : exercisedRoot p = some e) :
    ∃ tx, p.transaction = some tx := by
  obtain ⟨tx, htx, -⟩ := Option.bind_eq_some_iff.mp h
  exact ⟨tx, htx⟩

theorem RootEstablished.only {choice party : String} (h : RootEstablished choice party p e)
    (hsingle : SingleRoot p) {rest : DamlTransaction → Exercise → Prop}
    (hrest : ∀ tx, p.transaction = some tx → rest tx e) : OnlyExercise p choice party rest := by
  obtain ⟨tx, htx⟩ := transaction_of_exercisedRoot h.root
  exact ⟨tx, e, htx, hsingle tx htx, h.root, h.choice, h.acting, hrest tx htx⟩

theorem AcceptCip56Established.expected {receiver contractId : String}
    (h : AcceptCip56Established receiver contractId p [] e) (hsingle : SingleRoot p) :
    ExpectedExercise p (.acceptCip56 receiver contractId) := by
  refine h.only hsingle fun _ _ => ⟨?_, h.contractId⟩
  cases hi : e.interfaceId with
  | none => exact nomatch h.interfaceMissing hi
  | some iface => exact ⟨iface, hi, (h.interfaceId iface hi).resolve_right List.not_mem_nil⟩

theorem PayFeeEstablished.expected {sender feeParty proposalId feeType : String}
    (h : PayFeeEstablished sender feeParty p [] e) (hsingle : SingleRoot p)
    (htemplate : e.templateId.isSome)
    (hreceiver : ∀ t, transferRecord e = some t → (transferReceiver t).isSome) :
    ExpectedExercise p (.payFee sender feeParty proposalId feeType) := by
  obtain ⟨tid, htid⟩ := Option.isSome_iff_exists.mp htemplate
  refine h.only hsingle fun _ _ =>
    ⟨⟨tid, htid, (h.template tid htid).resolve_right List.not_mem_nil⟩, ?_⟩
  cases ht : transferRecord e with
  | none => exact (h.argument ht).elim (nomatch ·) (nomatch ·)
  | some t =>
    obtain ⟨rcv, hrcv⟩ := Option.isSome_iff_exists.mp (hreceiver t ht)
    obtain ⟨iid, hiid, hok⟩ := (h.instrument t ht).read
    rw [beq_iff_eq] at hok
    exact ⟨t, rfl, h.receiver t ht rcv hrcv ▸ hrcv, hok ▸ hiid⟩

/-- Every proposal below the exercise is one of its children, with terms that can
be read. -/
def ProposalsAreChildren (p : PreparedTransaction) (e : Exercise) : Prop :=
  ∀ tx, p.transaction = some tx → ∀ n c, Reaches (buildNodesDict tx) e.children n →
    asCreate n = some c → isDvpTemplate "DvpProposal" c = true →
    c ∈ childCreates (buildNodesDict tx) e.children ∧
      ((c.argument.bind asRecord).bind termsId).isSome

theorem ProposeDvpEstablished.expected {buyer seller proposalId synchronizerId : String}
    (h : ProposeDvpEstablished buyer proposalId p [] e) (hsingle : SingleRoot p)
    (htemplate : e.templateId.isSome) (hargument : (e.chosenValue.bind asRecord).isSome)
    (hchildren : ProposalsAreChildren p e) :
    ExpectedExercise p (.proposeDvp buyer seller proposalId synchronizerId) := by
  obtain ⟨tid, htid⟩ := Option.isSome_iff_exists.mp htemplate
  obtain ⟨r, hr⟩ := Option.isSome_iff_exists.mp hargument
  obtain ⟨id, hid, hok⟩ := (h.terms r hr).read
  rw [beq_iff_eq] at hok
  refine h.only hsingle fun tx htx => ⟨⟨tid, htid, h.template tid htid⟩, ?_,
    fun n c hn hc hdvp => ?_⟩
  · rw [hr, Option.bind_some, hid, hok]
  · obtain ⟨hchild, hread⟩ := hchildren tx htx n c hn hc hdvp
    obtain ⟨cid, hcid⟩ := Option.isSome_iff_exists.mp hread
    exact h.created tx htx c hchild hdvp cid hcid ▸ hcid

/-- The argument of an allocation is not inspected: that it mentions the proposal
stays a condition. -/
theorem AllocateEstablished.expected {party proposalId dvpCid : String}
    (h : AllocateEstablished party proposalId p [] e) (hsingle : SingleRoot p)
    (htemplate : e.templateId.isSome) {v : Value} (hv : e.chosenValue = some v)
    (hmentions : v.Mentions proposalId) :
    ExpectedExercise p (.allocate party proposalId dvpCid) := by
  obtain ⟨tid, htid⟩ := Option.isSome_iff_exists.mp htemplate
  refine h.only hsingle fun _ _ => ⟨?_, v, hv, hmentions⟩
  obtain amulet | registry | warned := h.template tid htid
  · exact .inl ⟨tid, htid, amulet⟩
  · exact .inr ⟨tid, htid, registry⟩
  · cases warned

theorem PrepaidEstablished.expected {party appParty amount : String}
    (h : PrepaidEstablished party appParty p [] e) (hsingle : SingleRoot p)
    (htemplate : e.templateId.isSome) :
    ExpectedExercise p (.requestRecurringPrepaid party appParty amount) := by
  obtain ⟨tid, htid⟩ := Option.isSome_iff_exists.mp htemplate
  refine h.only hsingle fun _ _ =>
    ⟨⟨tid, htid, (h.template tid htid).resolve_right List.not_mem_nil⟩, ?_,
      h.app.resolve_right List.not_mem_nil⟩
  cases hr : e.chosenValue.bind asRecord with
  | none => exact nomatch h.argument hr
  | some r => exact ⟨r, rfl, h.user r hr⟩

/-- What acceptance establishes, operation by operation, and what an acceptance
without warnings adds where the inspected values are there. -/
def established : OperationExpectation → Option (PreparedTransaction → List String → Prop)
  | .acceptCip56 receiver contractId => some fun p w =>
    ∃ e, AcceptCip56Established receiver contractId p w e ∧
      (w = [] → SingleRoot p → ExpectedExercise p (.acceptCip56 receiver contractId))
  | .payFee sender feeParty proposalId feeType => some fun p w =>
    ∃ e, PayFeeEstablished sender feeParty p w e ∧
      (w = [] → SingleRoot p → e.templateId.isSome →
        (∀ t, transferRecord e = some t → (transferReceiver t).isSome) →
        ExpectedExercise p (.payFee sender feeParty proposalId feeType))
  | .proposeDvp buyer seller proposalId synchronizerId => some fun p w =>
    ∃ e, ProposeDvpEstablished buyer proposalId p w e ∧
      (w = [] → SingleRoot p → e.templateId.isSome → (e.chosenValue.bind asRecord).isSome →
        ProposalsAreChildren p e →
        ExpectedExercise p (.proposeDvp buyer seller proposalId synchronizerId))
  | .allocate party proposalId dvpCid => some fun p w =>
    ∃ e, AllocateEstablished party proposalId p w e ∧
      (w = [] → SingleRoot p → e.templateId.isSome →
        (∃ v, e.chosenValue = some v ∧ v.Mentions proposalId) →
        ExpectedExercise p (.allocate party proposalId dvpCid))
  | .requestRecurringPrepaid party appParty amount => some fun p w =>
    ∃ e, PrepaidEstablished party appParty p w e ∧
      (w = [] → SingleRoot p → e.templateId.isSome →
        ExpectedExercise p (.requestRecurringPrepaid party appParty amount))
  | _ => none

/-- **What acceptance of an exercise establishes.** -/
theorem accepted_exercise {decode : Bytes → Option PreparedTransaction} {bytes : Bytes}
    {e : OperationExpectation} {P : PreparedTransaction → List String → Prop}
    {r : InspectionResult} (he : established e = some P) (h : inspect decode bytes e = .ok r)
    (hacc : r.accepted = true) : ∃ p, decode bytes = some p ∧ P p r.warnings := by
  cases e <;> simp only [established, reduceCtorEq, Option.some.injEq] at he <;> subst he <;>
    obtain ⟨p, hp, hr⟩ := (inspect_eq_ok rfl).mp h <;> refine ⟨p, hp, ?_⟩
  case payFee =>
    obtain ⟨e, he⟩ := accepted_payFee hr hacc
    exact ⟨e, he, fun hw hsingle ht hrcv => (hw ▸ he).expected hsingle ht hrcv⟩
  case proposeDvp =>
    obtain ⟨e, he⟩ := accepted_proposeDvp hr hacc
    exact ⟨e, he, fun hw hsingle ht ha hch => (hw ▸ he).expected hsingle ht ha hch⟩
  case allocate =>
    obtain ⟨e, he⟩ := accepted_allocate hr hacc
    exact ⟨e, he, fun hw hsingle ht ⟨_, hv, hm⟩ => (hw ▸ he).expected hsingle ht hv hm⟩
  case requestRecurringPrepaid =>
    obtain ⟨e, he⟩ := accepted_recurringPrepaid hr hacc
    exact ⟨e, he, fun hw hsingle ht => (hw ▸ he).expected hsingle ht⟩
  case acceptCip56 =>
    obtain ⟨e, he⟩ := accepted_acceptCip56 hr hacc
    exact ⟨e, he, fun hw hsingle => (hw ▸ he).expected hsingle⟩

end Complete

/-! ## Full operations, and operations that fall short -/

section Small

def identifier (moduleName entityName : String) : Identifier :=
  { packageId := "p", moduleName, entityName }

def transferInstruction : Identifier :=
  identifier "Splice.Api.Token.TransferInstructionV1" "TransferInstruction"

def amuletRules : Identifier :=
  identifier "Splice.ExternalPartyAmuletRules" "ExternalPartyAmuletRules"

def userService : Identifier := identifier "Utility.Settlement.App.V1.Service.User" "UserService"

def paymentService : Identifier :=
  identifier "RecurringPaymentAppService" "RecurringPaymentAppService"

/-- `alice` exercises a choice under the command id. -/
def commanding (commandId : String) (e : Exercise) (below : List Node) : PreparedTransaction :=
  { exercising "alice" e below with
    metadata := some { actingFor "alice" with
      submitterInfo := some { actAs := ["alice"], commandId } } }

/-- The offer `00` accepted through an interface; a holding for `alice` comes of it. -/
def acceptedOffer (interfaceId : Option Identifier) : PreparedTransaction :=
  commanding "accept"
    { plainExercise "TransferInstruction_Accept" "00" "alice" ["1", "2"] with interfaceId }
    [exerciseNode "1" (plainExercise "TransferRule_Transfer" "01" "alice" []),
      createNode "2" { plainCreateOf "Registry" "Holding" with
        argument := some (recordOf [("owner", .party "alice")]) }]

/-- A fee paid through a template and an argument. -/
def feeOf (templateId : Option Identifier) (argument : Option Value) : PreparedTransaction :=
  commanding "fee-dvp-prop"
    { plainExercise "TransferFactory_Transfer" "00" "alice" [] with
      templateId, chosenValue := argument } []

def transferOf (fields : List (String × Value)) : Value :=
  recordOf [("transfer", recordOf fields)]

def toBob : String × Value := ("receiver", .party "bob")

def inAmulet : String × Value := ("instrumentId", recordOf [("id", .text "Amulet")])

/-- Terms with an id. -/
def termsOf (id : String) : Value := recordOf [("terms", recordOf [("id", .text id)])]

def dvpProposalNode (nodeId id : String) : Node :=
  createNode nodeId { plainCreateOf "Utility.Settlement.App.V1.Model.Dvp" "DvpProposal" with
    argument := some (termsOf id) }

/-- A proposal made through a service template and an argument. -/
def proposed (templateId : Option Identifier) (argument : Option Value)
    (children : List String) (below : List Node) : PreparedTransaction :=
  commanding "dvp-propose-prop"
    { plainExercise "UserService_ProposeDvp" "00" "alice" children with
      templateId, chosenValue := argument } below

/-- An allocation with an argument. -/
def allocation (argument : Value) : PreparedTransaction :=
  commanding "allocate-prop"
    { plainExercise "AllocationFactory_Allocate" "00" "alice" [] with
      templateId := some amuletRules, chosenValue := some argument } []

/-- A prepaid subscription with an argument, signed by the parties. -/
def prepaid (argument : Option Value) (signatories : List String) : PreparedTransaction :=
  commanding "prepaid"
    { plainExercise "RecurringPaymentAppService_LockFundsForRequest" "00" "alice" [] with
      templateId := some paymentService, chosenValue := argument, signatories } []

def prepaidArgument : Value :=
  recordOf [("user", .party "alice"), ("amountPerDayUsd", .numeric "1.0")]

theorem not_reaches_nil {nodes : NodesDict} {n : Node} : ¬ Reaches nodes [] n := by
  rintro (⟨hid, -⟩ | ⟨hid, -, -⟩) <;> exact List.not_mem_nil hid

/-- Below a node without children there is that node only. -/
theorem Reaches.eq_leaf {nodes : NodesDict} {id : String} {n m : Node}
    (h : Reaches nodes [id] n) (hm : nodes.lookup id = some m) (hleaf : m.childIds = []) :
    n = m := by
  cases h with
  | here hid hn =>
    rw [List.mem_singleton.mp hid] at hn
    exact Option.some.inj (hn.symm.trans hm)
  | child hid hn hbelow =>
    rw [List.mem_singleton.mp hid] at hn
    obtain rfl := Option.some.inj (hn.symm.trans hm)
    exact absurd (hleaf ▸ hbelow) not_reaches_nil

/-- Accepted without a warning. -/
def quiet (p : PreparedTransaction) (e : OperationExpectation) : Bool :=
  (inspect (fun _ => some p) [] e).toOption.any fun r => r.accepted && r.warnings.isEmpty

theorem quiet_iff {p : PreparedTransaction} {e : OperationExpectation} :
    quiet p e = true ↔
      ∃ r, inspect (fun _ => some p) [] e = .ok r ∧ r.accepted = true ∧ r.warnings = [] := by
  unfold quiet
  cases inspect (fun _ => some p) [] e <;> simp [Except.toOption]

/-- The five operations with all their values: each is the expected exercise. -/
theorem fullOperations_expected :
    ExpectedExercise (acceptedOffer (some transferInstruction)) (.acceptCip56 "alice" "00") ∧
    ExpectedExercise (feeOf (some amuletRules) (some (transferOf [toBob, inAmulet]))) (.payFee "alice" "bob" "prop" "dvp") ∧
    ExpectedExercise (proposed (some userService) (some (termsOf "prop")) ["1"]
      [dvpProposalNode "1" "prop"]) (.proposeDvp "alice" "bob" "prop" "") ∧
    ExpectedExercise (allocation (recordOf [("settlementRef", .text "prop")]))
      (.allocate "alice" "prop" "00") ∧
    ExpectedExercise (prepaid (some prepaidArgument) ["alice", "app"])
      (.requestRecurringPrepaid "alice" "app" "1") := by
  have established_quiet : ∀ {p e P}, established e = some P → quiet p e = true → P p [] := by
    intro p e P he hq
    obtain ⟨r, hr, hacc, hw⟩ := quiet_iff.mp hq
    obtain ⟨p', hp', h⟩ := accepted_exercise he hr hacc
    rw [← Option.some.inj hp', hw] at h
    exact h
  have single : ∀ {c e below}, SingleRoot (commanding c e below) := by
    intro c e below tx htx
    obtain rfl := Option.some.inj htx
    rfl
  refine ⟨?_, ?_, ?_, ?_, ?_⟩
  · obtain ⟨e, -, expected⟩ := established_quiet (e := .acceptCip56 "alice" "00") rfl
      (p := acceptedOffer (some transferInstruction)) (by decide +kernel)
    exact expected rfl single
  · obtain ⟨e, he, expected⟩ := established_quiet (e := .payFee "alice" "bob" "prop" "dvp") rfl
      (p := feeOf (some amuletRules) (some (transferOf [toBob, inAmulet]))) (by decide +kernel)
    obtain rfl := Option.some.inj he.root
    refine expected rfl single rfl fun t ht => ?_
    obtain rfl := Option.some.inj ht
    decide
  · obtain ⟨e, he, expected⟩ := established_quiet (e := .proposeDvp "alice" "bob" "prop" "") rfl
      (p := proposed (some userService) (some (termsOf "prop")) ["1"] [dvpProposalNode "1" "prop"])
      (by decide +kernel)
    obtain rfl := Option.some.inj he.root
    refine expected rfl single rfl rfl fun tx htx n c hn hc _ => ?_
    obtain rfl := Option.some.inj htx
    obtain rfl := Reaches.eq_leaf hn rfl rfl
    obtain rfl := Option.some.inj hc
    exact ⟨List.mem_cons_self, rfl⟩
  · obtain ⟨e, he, expected⟩ := established_quiet (e := .allocate "alice" "prop" "00") rfl
      (p := allocation (recordOf [("settlementRef", .text "prop")])) (by decide +kernel)
    obtain rfl := Option.some.inj he.root
    exact expected rfl single rfl
      ⟨_, rfl, .record List.mem_cons_self rfl .text⟩
  · obtain ⟨e, he, expected⟩ := established_quiet rfl
      (p := prepaid (some prepaidArgument) ["alice", "app"])
      (e := .requestRecurringPrepaid "alice" "app" "1") (by decide +kernel)
    obtain rfl := Option.some.inj he.root
    exact expected rfl single rfl

/-- Accepted, and not the expected exercise. -/
def FallsShort (p : PreparedTransaction) (e : OperationExpectation) : Prop :=
  (∃ r, inspect (fun _ => some p) [] e = .ok r ∧ r.accepted = true) ∧ ¬ ExpectedExercise p e

/-- What is asked of the exercise under the root. -/
theorem OnlyExercise.rest_of {p : PreparedTransaction} {choice party : String}
    {rest : DamlTransaction → Exercise → Prop} {tx : DamlTransaction} {e : Exercise}
    (h : OnlyExercise p choice party rest) (htx : p.transaction = some tx)
    (he : exercisedRoot p = some e) : rest tx e := by
  obtain ⟨tx', e', htx', -, he', -, -, hrest⟩ := h
  obtain rfl := Option.some.inj (htx.symm.trans htx')
  obtain rfl := Option.some.inj (he.symm.trans he')
  exact hrest

theorem not_mentions_record_text {label text other : String} (h : text ≠ other) :
    ¬ (recordOf [(label, .text other)]).Mentions text := by
  rintro (_ | _ | _ | _ | ⟨hf, hv, hm⟩)
  obtain rfl := List.mem_singleton.mp hf
  obtain rfl := Option.some.inj hv
  cases hm
  exact h rfl

/-- What acceptance does not insist on, operation by operation. -/
theorem shortfalls_accepted :
    -- without an interface, and with another one
    FallsShort (acceptedOffer none) (.acceptCip56 "alice" "00") ∧
    FallsShort (acceptedOffer (some userService)) (.acceptCip56 "alice" "00") ∧
    -- no template and another one, no argument, no receiver, no instrument
    FallsShort (feeOf none (some (transferOf [toBob, inAmulet])))
      (.payFee "alice" "bob" "prop" "dvp") ∧
    FallsShort (feeOf (some userService) (some (transferOf [toBob, inAmulet])))
      (.payFee "alice" "bob" "prop" "dvp") ∧
    FallsShort (feeOf (some amuletRules) none) (.payFee "alice" "bob" "prop" "dvp") ∧
    FallsShort (feeOf (some amuletRules) (some (transferOf [inAmulet])))
      (.payFee "alice" "bob" "prop" "dvp") ∧
    FallsShort (feeOf (some amuletRules) (some (transferOf [toBob])))
      (.payFee "alice" "bob" "prop" "dvp") ∧
    -- no template, no argument, terms without an id, and another proposal further below
    FallsShort (proposed none (some (termsOf "prop")) ["1"] [dvpProposalNode "1" "prop"])
      (.proposeDvp "alice" "bob" "prop" "") ∧
    FallsShort (proposed (some userService) none ["1"] [dvpProposalNode "1" "prop"])
      (.proposeDvp "alice" "bob" "prop" "") ∧
    FallsShort (proposed (some userService) (some (recordOf [])) ["1"] [dvpProposalNode "1" "prop"])
      (.proposeDvp "alice" "bob" "prop" "") ∧
    FallsShort (proposed (some userService) (some (termsOf "prop")) ["1"]
      [exerciseNode "1" (plainExercise "Propose" "01" "alice" ["2"]), dvpProposalNode "2" "other"])
      (.proposeDvp "alice" "bob" "prop" "") ∧
    -- an argument about another proposal
    FallsShort (allocation (recordOf [("settlementRef", .text "other")]))
      (.allocate "alice" "prop" "00") ∧
    -- no argument, and a service of other signatories
    FallsShort (prepaid none ["alice", "app"]) (.requestRecurringPrepaid "alice" "app" "1") ∧
    FallsShort (prepaid (some prepaidArgument) ["alice"])
      (.requestRecurringPrepaid "alice" "app" "1") := by
  refine ⟨?_, ?_, ?_, ?_, ?_, ?_, ?_, ?_, ?_, ?_, ?_, ?_, ?_, ?_⟩ <;>
    refine ⟨accepts_iff.mp (by decide +kernel), fun h => ?_⟩
  · obtain ⟨⟨iface, hiface, -⟩, -⟩ := OnlyExercise.rest_of h rfl rfl
    cases hiface
  · obtain ⟨⟨iface, hiface, known⟩, -⟩ := OnlyExercise.rest_of h rfl rfl
    obtain rfl := Option.some.inj hiface
    exact absurd known (by decide)
  · obtain ⟨⟨tid, htid, -⟩, -⟩ := OnlyExercise.rest_of h rfl rfl
    cases htid
  · obtain ⟨⟨tid, htid, known⟩, -⟩ := OnlyExercise.rest_of h rfl rfl
    obtain rfl := Option.some.inj htid
    exact absurd known (by decide)
  · obtain ⟨-, t, ht, -⟩ := OnlyExercise.rest_of h rfl rfl
    cases ht
  · obtain ⟨-, t, ht, hreceiver, -⟩ := OnlyExercise.rest_of h rfl rfl
    obtain rfl := Option.some.inj ht
    cases hreceiver
  · obtain ⟨-, t, ht, -, hinstrument⟩ := OnlyExercise.rest_of h rfl rfl
    obtain rfl := Option.some.inj ht
    cases hinstrument
  · obtain ⟨⟨tid, htid, -⟩, -⟩ := OnlyExercise.rest_of h rfl rfl
    cases htid
  · obtain ⟨-, hterms, -⟩ := OnlyExercise.rest_of h rfl rfl
    cases hterms
  · obtain ⟨-, hterms, -⟩ := OnlyExercise.rest_of h rfl rfl
    cases hterms
  · obtain ⟨-, -, hbelow⟩ := OnlyExercise.rest_of h rfl rfl
    have reached := hbelow (dvpProposalNode "2" "other") _
      (.child List.mem_cons_self rfl (.here List.mem_cons_self rfl)) rfl rfl
    exact absurd reached (by decide)
  · obtain ⟨-, v, hv, hmentions⟩ := OnlyExercise.rest_of h rfl rfl
    obtain rfl := Option.some.inj hv
    exact not_mentions_record_text (by decide) hmentions
  · obtain ⟨-, ⟨r, hr, -⟩, -⟩ := OnlyExercise.rest_of h rfl rfl
    cases hr
  · obtain ⟨-, -, hsigned⟩ := OnlyExercise.rest_of h rfl rfl
    exact absurd hsigned (by decide)

end Small

end BookAgent.TxVerifier
