import BookAgent.TxVerifier.RootExercise

/-!
# Accepting a proposal

What acceptance of an `AcceptDvp` transaction says about the proposal that is
accepted. A contract id other than the expected one and terms that cannot be
read are warnings; terms that can be read must match.
-/

namespace BookAgent.TxVerifier

open BookAgent.Lib Inspect

/-! ## Terms -/

section Terms

/-- The record of the first entry of a leg. -/
def legRecord (terms : Record Value) (field : String) : Option (Record Value) :=
  (((getRecordField terms field).bind asList).bind (·.head?)).bind asRecord

/-- The expectations for one leg. -/
structure LegTerms where
  amount : String
  instrumentId : String
  instrumentAdmin : String

/-- An expectation is given for each of the terms. -/
structure LegTerms.Given (t : LegTerms) : Prop where
  amount : t.amount ≠ ""
  instrumentId : t.instrumentId ≠ ""
  instrumentAdmin : t.instrumentAdmin ≠ ""

/-- The first entry of a leg has the expected terms, each present with its type. -/
def LegTerms.Carried (t : LegTerms) (terms : Record Value) (field : String) : Prop :=
  ∃ iq, legRecord terms field = some iq ∧
    (∃ amt, (extractInstrumentQuantity iq).amount = some amt ∧ numericEq amt t.amount = true) ∧
    (extractInstrumentQuantity iq).id = some t.instrumentId ∧
    (extractInstrumentQuantity iq).admin = some t.instrumentAdmin

/-- The terms of a leg as far as they can be read, and warnings for the rest. -/
def LegTerms.Inspected (t : LegTerms) (terms : Record Value) (field : String)
    (warnings : List String) : Prop :=
  match legRecord terms field with
  | none => s!"Could not extract {field}[0] from DvpProposal" ∈ warnings
  | some iq =>
    Reported (extractInstrumentQuantity iq).amount (numericEq · t.amount)
      s!"Could not extract {field}[0].amount from DvpProposal" warnings ∧
    Reported (extractInstrumentQuantity iq).id (· == t.instrumentId)
      s!"Could not extract {field}[0].instrument.id from DvpProposal" warnings ∧
    Reported (extractInstrumentQuantity iq).admin (· == t.instrumentAdmin)
      s!"Could not extract {field}[0].instrument.admin from DvpProposal" warnings

theorem LegTerms.Inspected.mono {t : LegTerms} {terms : Record Value} {field : String}
    {w w' : List String} (h : t.Inspected terms field w) (hw : w ⊆ w') :
    t.Inspected terms field w' := by
  unfold LegTerms.Inspected at h ⊢
  split at h
  · exact hw h
  · exact ⟨h.1.mono hw, h.2.1.mono hw, h.2.2.mono hw⟩

/-- A leg inspected without warnings has the expected terms. -/
theorem LegTerms.Inspected.carried {t : LegTerms} {terms : Record Value} {field : String}
    (h : t.Inspected terms field []) : t.Carried terms field := by
  unfold LegTerms.Inspected at h
  split at h
  · cases h
  · next iq hiq =>
    obtain ⟨amt, hamt, hok⟩ := h.1.read
    obtain ⟨i, hi, hid⟩ := h.2.1.read
    obtain ⟨ad, had, hadmin⟩ := h.2.2.read
    rw [beq_iff_eq] at hid hadmin
    exact ⟨iq, hiq, ⟨amt, hamt, hok⟩, hid ▸ hi, hadmin ▸ had⟩

variable {w w' : List String} {u : Unit}

theorem checkTerm_ok {expected summary unread : String} {actual : Option String}
    {ok : String → Bool} {reason : String → String} (he : expected ≠ "")
    (h : checkTerm expected actual ok summary unread reason w = .ok (u, w')) :
    Reported actual ok unread w' ∧ w ⊆ w' := by
  rw [checkTerm, if_neg he, ensureOrWarn_ok] at h
  obtain ⟨hok, rfl⟩ := h
  refine ⟨?_, List.subset_append_left _ _⟩
  cases actual with
  | none => exact List.mem_append_right _ List.mem_cons_self
  | some a => exact hok a rfl

theorem checkLeg_ok {t : LegTerms} {terms : Record Value} {leg field : String} (ht : t.Given)
    (h : checkLeg terms leg field t.amount t.instrumentId t.instrumentAdmin w = .ok (u, w')) :
    t.Inspected terms field w' ∧ w ⊆ w' := by
  unfold LegTerms.Inspected
  obtain ⟨iq, hiq, h⟩ | ⟨hiq, h⟩ := onValue_ok.mp h
  · rw [show legRecord terms field = some iq from hiq]
    obtain ⟨_, w₁, h₁, h⟩ := bind_ok.mp h
    obtain ⟨_, w₂, h₂, h₃⟩ := bind_ok.mp h
    obtain ⟨hamount, s₁⟩ := checkTerm_ok ht.amount h₁
    obtain ⟨hid, s₂⟩ := checkTerm_ok ht.instrumentId h₂
    obtain ⟨hadmin, s₃⟩ := checkTerm_ok ht.instrumentAdmin h₃
    exact ⟨⟨hamount.mono (List.Subset.trans s₂ s₃), hid.mono s₃, hadmin⟩,
      List.Subset.trans s₁ (List.Subset.trans s₂ s₃)⟩
  · rw [show legRecord terms field = none from hiq]
    rw [warn_ok.mp h]
    exact ⟨List.mem_append_right _ List.mem_cons_self, List.subset_append_left _ _⟩

end Terms

/-! ## The proposal -/

section Proposal

/-- The proposal an acceptance is expected to accept. -/
structure AcceptRequest where
  sellerParty : String
  proposalId : String
  dvpProposalCid : String
  delivery : LegTerms
  payment : LegTerms

def AcceptRequest.terms (req : AcceptRequest) : AcceptDvpTerms where
  deliveryAmount := req.delivery.amount
  paymentAmount := req.payment.amount
  deliveryInstrumentId := req.delivery.instrumentId
  deliveryInstrumentAdmin := req.delivery.instrumentAdmin
  paymentInstrumentId := req.payment.instrumentId
  paymentInstrumentAdmin := req.payment.instrumentAdmin

structure AcceptRequest.Given (req : AcceptRequest) : Prop where
  dvpProposalCid : req.dvpProposalCid ≠ ""
  delivery : req.delivery.Given
  payment : req.payment.Given

/-- The exercise accepts the expected contract id, and the contract disclosed
under it is a proposal with the expected terms. -/
def AcceptsExpectedProposal (req : AcceptRequest) (p : PreparedTransaction) : Prop :=
  ∃ m e ic c terms, p.metadata = some m ∧ exercisedRoot p = some e ∧
    chosenCid e = some req.dvpProposalCid ∧ ic ∈ m.inputContracts ∧ ic.contract = some c ∧
    c.contractId = req.dvpProposalCid ∧ isDvpTemplate "DvpProposal" c = true ∧
    proposalTerms c = some terms ∧ req.delivery.Carried terms "deliveries" ∧
    req.payment.Carried terms "payments"

/-- The terms of the disclosed proposal as far as they can be read. -/
def AcceptRequest.Disclosed (req : AcceptRequest) (m : Metadata) (warnings : List String) : Prop :=
  match disclosedProposal m with
  | none => "No DvpProposal found in input_contracts to verify terms" ∈ warnings
  | some c => ∀ terms, proposalTerms c = some terms →
    req.delivery.Inspected terms "deliveries" warnings ∧
      req.payment.Inspected terms "payments" warnings

theorem checkDisclosed_ok {req : AcceptRequest} {m : Metadata} {w w' : List String} {u : Unit}
    (hreq : req.Given) (h : checkDisclosed m req.terms w = .ok (u, w')) :
    req.Disclosed m w' ∧ w ⊆ w' := by
  have checked : req.terms.checked := .inl hreq.delivery.amount
  rw [checkDisclosed, if_pos checked] at h
  unfold AcceptRequest.Disclosed
  obtain ⟨c, hc, h⟩ | ⟨hc, h⟩ := onValue_ok.mp h
  · rw [hc]
    obtain ⟨terms, hterms, h⟩ | ⟨hterms, h⟩ := onValue_ok.mp h
    · obtain ⟨_, w₁, h₁, h₂⟩ := bind_ok.mp h
      obtain ⟨hdelivery, s₁⟩ := checkLeg_ok hreq.delivery h₁
      obtain ⟨hpayment, s₂⟩ := checkLeg_ok hreq.payment h₂
      refine ⟨fun terms' hterms' => ?_, List.Subset.trans s₁ s₂⟩
      obtain rfl := Option.some.inj (hterms.symm.trans hterms')
      exact ⟨hdelivery.mono s₂, hpayment⟩
    · obtain ⟨-, rfl⟩ := pure_ok.mp h
      refine ⟨fun terms' hterms' => ?_, List.Subset.refl _⟩
      rw [hterms] at hterms'
      cases hterms'
  · rw [hc]
    rw [warn_ok.mp h]
    exact ⟨List.mem_append_right _ List.mem_cons_self, List.subset_append_left _ _⟩

theorem mem_of_disclosedProposal {m : Metadata} {c : Create} (h : disclosedProposal m = some c) :
    ∃ ic ∈ m.inputContracts, ic.contract = some c ∧ isDvpTemplate "DvpProposal" c = true := by
  obtain ⟨ic, hic, hcontract⟩ := List.mem_filterMap.mp (List.mem_of_find?_eq_some h)
  have template := List.find?_some h
  exact ⟨ic, hic, hcontract, template⟩

/-- **What acceptance of a proposal establishes.** -/
theorem accepted_acceptDvp {decode : Bytes → Option PreparedTransaction} {bytes : Bytes}
    {req : AcceptRequest} {r : InspectionResult} (hreq : req.Given)
    (h : inspect decode bytes
      (.acceptDvp req.sellerParty req.proposalId req.dvpProposalCid req.terms) = .ok r)
    (hacc : r.accepted = true) :
    ∃ p m e, decode bytes = some p ∧ p.metadata = some m ∧ exercisedRoot p = some e ∧
      e.choiceId = "UserService_AcceptDvpProposal" ∧
      (∀ tid, e.templateId = some tid →
        templateMatches tid "Utility.Settlement.App.V1.Service.User" "UserService" = true) ∧
      req.sellerParty ∈ submitterActAs p ∧ req.sellerParty ∈ e.actingParties ∧
      (∀ cid, chosenCid e = some cid → cid ≠ req.dvpProposalCid →
        s!"chosen_value.cid={short cid 16} does not match expected " ++
          s!"dvp_proposal_cid={short req.dvpProposalCid 16}" ∈ r.warnings) ∧
      req.Disclosed m r.warnings ∧
      (∀ c, r.warnings = [] → (chosenCid e).isSome → disclosedProposal m = some c →
        c.contractId = req.dvpProposalCid → (proposalTerms c).isSome →
        AcceptsExpectedProposal req p) := by
  obtain ⟨p, hp, hr⟩ := (inspect_eq_ok rfl).mp h
  obtain ⟨summary, warnings, passed, rfl⟩ := accepted_iff.mp ⟨hr, hacc⟩
  simp only [bind_ok, checkActAs_ok, warnUnless_ok, checkChoice_ok, checkTemplate_ok,
    checkActingParties_ok, warnValue_ok, pure_ok, and_assoc, exists_and_left, exists_eq_left,
    exists_const] at passed
  obtain ⟨parts, w₀, hparts, hact, hchoice, htemplate, hacting, _, w, hdisclosed, -, rfl⟩ := passed
  obtain ⟨hof, rfl⟩ := extractRootExercise_ok hparts
  obtain ⟨disclosed, grows⟩ := checkDisclosed_ok hreq hdisclosed
  -- the expected contract id is not empty, so a different one is reported
  have reported : ∀ cid, chosenCid parts.rootExercise = some cid → cid ≠ req.dvpProposalCid →
      s!"chosen_value.cid={short cid 16} does not match expected " ++
        s!"dvp_proposal_cid={short req.dvpProposalCid 16}" ∈ warnings := by
    intro cid hcid hne
    have mismatch : ¬ (req.dvpProposalCid = "" ∨ cid = req.dvpProposalCid) := by
      simp [hreq.dvpProposalCid, hne]
    exact grows (by simp [hcid, mismatch])
  refine ⟨p, parts.metadata, parts.rootExercise, hp, hof.metadata, hof.root, hchoice, htemplate,
    hof.mem_actAs hact, hacting, reported, disclosed,
    fun c hquiet hread hc hcontractId hterms => ?_⟩
  obtain ⟨cid, hcid⟩ := Option.isSome_iff_exists.mp hread
  obtain ⟨terms, hterms⟩ := Option.isSome_iff_exists.mp hterms
  obtain ⟨ic, hic, hcontract, htemplate⟩ := mem_of_disclosedProposal hc
  have legs : req.Disclosed parts.metadata [] := hquiet ▸ disclosed
  unfold AcceptRequest.Disclosed at legs
  rw [hc] at legs
  have same : cid = req.dvpProposalCid := by
    by_contra hne
    have warned := reported cid hcid hne
    rw [show warnings = [] from hquiet] at warned
    cases warned
  exact ⟨parts.metadata, parts.rootExercise, ic, c, terms, hof.metadata, hof.root, same ▸ hcid,
    hic, hcontract, hcontractId, htemplate, hterms, (legs terms hterms).1.carried,
    (legs terms hterms).2.carried⟩

end Proposal

/-! ## A mismatch that only warns -/

section Mismatch

def quantity (amount instrumentId instrumentAdmin : String) : Value :=
  recordOf [("instrument", recordOf [("id", .text instrumentId), ("admin", .party instrumentAdmin)]),
    ("amount", .numeric amount)]

/-- A proposal to deliver 1 of `D` for 2 of `Q`. -/
def dvpProposal (contractId : String) : Create :=
  { plainCreateOf "Utility.Settlement.App.V1.Model.Dvp" "DvpProposal" with
    contractId
    argument := some (recordOf [("terms", recordOf
      [("deliveries", .list [quantity "1.0" "D" "d"]), ("payments", .list [quantity "2.0" "Q" "q"])])]) }

/-- `alice` accepts the contract id `accepted`, with these contracts disclosed. -/
def acceptanceOf (accepted : String) (disclosed : List Create) : PreparedTransaction :=
  { exercising "alice"
      { plainExercise "UserService_AcceptDvpProposal" "00" "alice" [] with
        chosenValue := some (recordOf [("cid", .contractId accepted)]) } [] with
    metadata := some
      { actingFor "alice" with
        submitterInfo := some { actAs := ["alice"], commandId := "dvp-accept-prop" }
        inputContracts := disclosed.map fun c => { contract := some c, createdAt := 0 } } }

/-- The proposal `00aa` is disclosed. -/
def acceptance (accepted : String) : PreparedTransaction :=
  acceptanceOf accepted [dvpProposal "00aa"]

/-- A proposal without a terms record. -/
def bareProposal (contractId : String) : Create :=
  { dvpProposal contractId with argument := none }

def acceptRequest : AcceptRequest where
  sellerParty := "alice"
  proposalId := "prop"
  dvpProposalCid := "00aa"
  delivery := { amount := "1", instrumentId := "D", instrumentAdmin := "d" }
  payment := { amount := "2", instrumentId := "Q", instrumentAdmin := "q" }

theorem acceptRequest_given : acceptRequest.Given :=
  ⟨by decide, ⟨by decide, by decide, by decide⟩, ⟨by decide, by decide, by decide⟩⟩

/-- The expected contract id, disclosed and accepted. -/
theorem acceptance_acceptsExpectedProposal :
    AcceptsExpectedProposal acceptRequest (acceptance "00aa") := by
  have quiet : (inspect (fun _ => some (acceptance "00aa")) [] (.acceptDvp "alice" "prop" "00aa"
      acceptRequest.terms)).toOption.any (fun r => r.accepted && r.warnings.isEmpty) = true := by
    decide +kernel
  cases hr : inspect (fun _ => some (acceptance "00aa")) [] (.acceptDvp "alice" "prop" "00aa"
      acceptRequest.terms) with
  | error e =>
    rw [hr] at quiet
    cases quiet
  | ok r =>
    rw [hr] at quiet
    obtain ⟨hacc, hquiet⟩ := Bool.and_eq_true_iff.mp quiet
    obtain ⟨p, m, e, hp, hm, he, -, -, -, -, -, -, complete⟩ :=
      accepted_acceptDvp acceptRequest_given hr hacc
    obtain rfl := Option.some.inj hp
    obtain rfl := Option.some.inj hm
    obtain rfl := Option.some.inj he
    exact complete _ (List.isEmpty_iff.mp hquiet) rfl rfl rfl rfl

/-- Another contract id is accepted all the same, and so is the expected one where
its proposal has no terms, or is disclosed behind another proposal. -/
theorem other_proposal_accepted :
    acceptRequest.Given ∧ ∀ p ∈ [acceptance "00bb", acceptanceOf "00aa" [bareProposal "00aa"],
        acceptanceOf "00aa" [dvpProposal "00bb", bareProposal "00aa"]],
      (∃ r, inspect (fun _ => some p) [] (.acceptDvp acceptRequest.sellerParty
        acceptRequest.proposalId acceptRequest.dvpProposalCid acceptRequest.terms) = .ok r ∧
        r.accepted = true) ∧
      ¬ AcceptsExpectedProposal acceptRequest p := by
  refine ⟨acceptRequest_given, ?_⟩
  simp only [List.forall_mem_cons, List.not_mem_nil, false_implies, implies_true, and_true]
  refine ⟨?_, ?_, ?_⟩ <;> refine ⟨accepts_iff.mp (by decide +kernel), ?_⟩ <;>
    rintro ⟨m, e, ic, c, terms, hm, he, hcid, hic, hc, hc', -, hterms, -⟩ <;>
    obtain rfl := Option.some.inj hm <;> obtain rfl := Option.some.inj he
  · exact absurd hcid (by decide)
  · obtain rfl := List.mem_singleton.mp hic
    obtain rfl := Option.some.inj hc
    cases hterms
  · obtain rfl | hic := List.mem_cons.mp hic
    · obtain rfl := Option.some.inj hc
      exact absurd hc' (by decide)
    · obtain rfl := List.mem_singleton.mp hic
      obtain rfl := Option.some.inj hc
      cases hterms

end Mismatch

end BookAgent.TxVerifier
