import BookAgent.TxVerifier.RootExercise

/-!
# Accepted transfers

What acceptance of a `TransferCc` transaction says about the transfer at the
first root. A field that can be read must match; a missing amount or instrument
is a warning, so the guarantee on the whole operation holds where nothing is
missing.
-/

namespace BookAgent.TxVerifier

open BookAgent.Lib Inspect

section Transfer

/-- The `transfer` record of an exercise's argument. -/
def transferRecord (e : Exercise) : Option (Record Value) :=
  ((e.chosenValue.bind asRecord).bind (getRecordField · "transfer")).bind asRecord

/-- A transfer as it is asked for. -/
structure TransferRequest where
  senderParty : String
  receiverParty : String
  amount : String

/-- The only root is the requested transfer, with every field present and of its
type. -/
def PerformsOnlyTransfer (req : TransferRequest) (p : PreparedTransaction) : Prop :=
  ∃ tx e transfer, p.transaction = some tx ∧ tx.roots.length = 1 ∧ exercisedRoot p = some e ∧
    e.choiceId = "TransferFactory_Transfer" ∧ req.senderParty ∈ e.actingParties ∧
    transferRecord e = some transfer ∧
    transferSender transfer = some req.senderParty ∧
    transferReceiver transfer = some req.receiverParty ∧
    (∃ amt, transferAmount transfer = some amt ∧ numericEq amt req.amount = true) ∧
    transferInstrument transfer = some "Amulet"

/-- The fields of a transfer agree with the request as far as they can be read. -/
structure TransferAgrees (req : TransferRequest) (transfer : Record Value) : Prop where
  sender : ∀ s, transferSender transfer = some s → s = req.senderParty
  receiverPresent : (getRecordField transfer "receiver").isSome
  receiver : ∀ s, transferReceiver transfer = some s → s = req.receiverParty
  amount : ∀ amt, transferAmount transfer = some amt → numericEq amt req.amount = true
  instrument : ∀ iid, transferInstrument transfer = some iid → iid = "Amulet"

/-- The four fields of a transfer, each present with its type. -/
structure TransferComplete (transfer : Record Value) : Prop where
  sender : (transferSender transfer).isSome
  receiver : (transferReceiver transfer).isSome
  amount : (transferAmount transfer).isSome
  instrument : (transferInstrument transfer).isSome

/-- A complete transfer that agrees with the request is the requested one. -/
theorem TransferAgrees.performs {req : TransferRequest} {p : PreparedTransaction}
    {tx : DamlTransaction} {e : Exercise} {transfer : Record Value}
    (h : TransferAgrees req transfer) (hc : TransferComplete transfer)
    (htx : p.transaction = some tx) (hroots : tx.roots.length = 1)
    (he : exercisedRoot p = some e) (hchoice : e.choiceId = "TransferFactory_Transfer")
    (hacting : req.senderParty ∈ e.actingParties) (ht : transferRecord e = some transfer) :
    PerformsOnlyTransfer req p := by
  obtain ⟨s, hs⟩ := Option.isSome_iff_exists.mp hc.sender
  obtain ⟨rcv, hrcv⟩ := Option.isSome_iff_exists.mp hc.receiver
  obtain ⟨amt, hamt⟩ := Option.isSome_iff_exists.mp hc.amount
  obtain ⟨iid, hiid⟩ := Option.isSome_iff_exists.mp hc.instrument
  exact ⟨tx, e, transfer, htx, hroots, he, hchoice, hacting, ht,
    hs.trans (congrArg some (h.sender s hs)), hrcv.trans (congrArg some (h.receiver rcv hrcv)),
    ⟨amt, hamt, h.amount amt hamt⟩, hiid.trans (congrArg some (h.instrument iid hiid))⟩

/-- **What acceptance of a transfer establishes.** -/
theorem accepted_transferCc {decode : Bytes → Option PreparedTransaction} {bytes : Bytes}
    (req : TransferRequest) {commandId : String} {r : InspectionResult}
    (h : inspect decode bytes
      (.transferCc req.senderParty req.receiverParty req.amount commandId) = .ok r)
    (hacc : r.accepted = true) :
    ∃ p tx e transfer, decode bytes = some p ∧ p.transaction = some tx ∧
      exercisedRoot p = some e ∧ e.choiceId = "TransferFactory_Transfer" ∧
      e.templateId.isSome ∧ req.senderParty ∈ submitterActAs p ∧
      req.senderParty ∈ e.actingParties ∧ transferRecord e = some transfer ∧
      TransferAgrees req transfer ∧
      (getRecordField transfer "amount" = none → "Could not extract transfer.amount" ∈ r.warnings) ∧
      (transferInstrument transfer = none → "Could not extract instrumentId.id" ∈ r.warnings) ∧
      (tx.roots.length = 1 → TransferComplete transfer → PerformsOnlyTransfer req p) := by
  obtain ⟨p, hp, hr⟩ := (inspect_eq_ok rfl).mp h
  obtain ⟨summary, warnings, passed, rfl⟩ := accepted_iff.mp ⟨hr, hacc⟩
  simp only [bind_ok, require_ok, checkActAs_ok, warnUnless_ok, orReject_ok, checkChoice_ok,
    checkActingParties_ok, ensureValue_ok, ensure_ok, checkAmulet_ok, warnValue_ok, pure_ok,
    and_assoc, exists_and_left, exists_eq_left, exists_const] at passed
  obtain ⟨tx, htx, m, hm, s, hs, hact, rootId, hrootId, n, hn, e, he, hchoice, tid, htid, hacting,
    v, hv, c, hc, tv, htv, transfer, ht, hsender, hpresent, hreceiver, hamount, hinstrument, -,
    hw⟩ := passed
  have hroot : exercisedRoot p = some e := by
    rw [exercisedRoot, htx, Option.bind_some, hrootId, Option.bind_some, hn, Option.bind_some, he]
  have htransfer : transferRecord e = some transfer := by
    rw [transferRecord, hv, Option.bind_some, hc, Option.bind_some, htv, Option.bind_some, ht]
  have agrees : TransferAgrees req transfer :=
    ⟨hsender, hpresent, hreceiver, hamount, hinstrument⟩
  have hactAs : req.senderParty ∈ submitterActAs p := by
    rw [submitterActAs, hm, Option.bind_some, hs]
    exact hact
  refine ⟨p, tx, e, transfer, hp, htx, hroot, hchoice, ?_, hactAs, hacting, htransfer, agrees,
    fun hnone => ?_, fun hnone => ?_, fun hroots hcomplete =>
      agrees.performs hcomplete htx hroots hroot hchoice hacting htransfer⟩
  · rw [htid]
    rfl
  · simp [hw, hnone]
  · simp [hw, hnone]

end Transfer

/-! ## A transfer without an instrument -/

section Missing

/-- A transfer from `alice` to `bob` that names no instrument. -/
def transferExercise (fields : List (String × Value)) : Exercise :=
  { plainExercise "TransferFactory_Transfer" "00aa" "alice" [] with
    templateId := some { packageId := "p", moduleName := "Splice.ExternalPartyAmuletRules",
                         entityName := "ExternalPartyAmuletRules" }
    chosenValue := some (recordOf [("transfer", recordOf fields)]) }

def bareTransfer : PreparedTransaction :=
  exercising "alice" (transferExercise
    [("sender", .party "alice"), ("receiver", .party "bob"), ("amount", .numeric "1.0")]) []

def fullTransfer : PreparedTransaction :=
  exercising "alice" (transferExercise
    [("sender", .party "alice"), ("receiver", .party "bob"), ("amount", .numeric "1.0"),
     ("instrumentId", recordOf [("id", .text "Amulet")])]) []

/-- A complete transfer is the requested one. -/
theorem fullTransfer_performs :
    PerformsOnlyTransfer ⟨"alice", "bob", "1"⟩ fullTransfer := by
  have accepted : accepts (inspect (fun _ => some fullTransfer) []
      (.transferCc "alice" "bob" "1" "cmd")) = true := by decide +kernel
  obtain ⟨r, hr, hacc⟩ := accepts_iff.mp accepted
  obtain ⟨p, tx, e, transfer, hp, htx, he, -, -, -, -, ht, -, -, -, performs⟩ :=
    accepted_transferCc ⟨"alice", "bob", "1"⟩ hr hacc
  obtain rfl := Option.some.inj hp
  obtain rfl := Option.some.inj htx
  obtain rfl := Option.some.inj he
  obtain rfl := Option.some.inj ht
  exact performs rfl ⟨by decide, by decide, by decide, by decide⟩

/-- A transfer without an instrument is accepted. -/
theorem bareTransfer_accepted :
    (∃ r, inspect (fun _ => some bareTransfer) [] (.transferCc "alice" "bob" "1" "cmd") = .ok r ∧
      r.accepted = true) ∧ ¬ PerformsOnlyTransfer ⟨"alice", "bob", "1"⟩ bareTransfer := by
  refine ⟨accepts_iff.mp (by decide +kernel), ?_⟩
  rintro ⟨tx, e, transfer, -, -, he, -, -, ht, -, -, -, hinstrument⟩
  obtain rfl := Option.some.inj he
  obtain rfl := Option.some.inj ht
  exact absurd hinstrument (by decide)

end Missing

end BookAgent.TxVerifier
