import BookAgent.CloudAgent.SubmitAtomic
import BookAgent.CloudAgent.SubmitTransaction
import BookAgent.MessageSigning.Calls
import BookAgent.MessageSigning.PayloadLines

/-!
# Fee authorizations

What the ledger client (`ledger_client.rs`) verifies before it signs an authorization of fees.
A call leaves a trace of both. The fees of a transaction are authorized as the service signed
them. Those of a processing fee are authorized for the proposal and fee type that were asked for,
where the service's signature is verified over the ones that its answer names.
-/

namespace BookAgent.CloudAgent

open BookAgent.Lib BookAgent.TxVerifier BookAgent.MessageSigning

/-! ## Signatures of the service -/

/-- Base64, as base64url as well, and Ed25519. -/
class MessageCrates extends VerifierCrates, Base64 where
  base64UrlDecode : String → Except String Bytes
  /-- `VerifyingKey::from_bytes`. -/
  verifyingKey : Bytes → Except String Unit
  ed25519Verify : (publicKey hash signature : Bytes) → Bool

structure MessageSignature where
  /-- In base64. -/
  signature : String
  /-- In base64url. -/
  publicKey : String
  signingScheme : String

/-- The part of `DAppProviderClient` and `AtomicProviderClient` that fees depend on. -/
structure ProviderClient where
  partyId : String
  ledgerServicePublicKey : Bytes

def signingScheme : String := "ed25519-sha256-v1"

section Signatures

variable [MessageCrates]

def verifyCanonical (publicKey canonical : Bytes) (signatureB64 scheme : String) :
    Except String Unit := do
  if scheme ≠ signingScheme then
    .error s!"Unsupported signing scheme '{scheme}', expected '{signingScheme}'"
  let hash := VerifierCrates.sha256 canonical
  (MessageCrates.verifyingKey publicKey).mapError ("Invalid public key: " ++ ·)
  let signature ← (VerifierCrates.base64Decode signatureB64).mapError
    ("Invalid signature base64: " ++ ·)
  if signature.length ≠ 64 then
    .error s!"Invalid signature length: expected 64 bytes, got {signature.length}"
  if MessageCrates.ed25519Verify publicKey hash.val signature then return ()
  else .error "Message signature verification failed"

def parsePublicKey (publicKeyB64url : String) : Except String Bytes := do
  let bytes ← (MessageCrates.base64UrlDecode publicKeyB64url).mapError
    ("Invalid public key base64url: " ++ ·)
  if bytes.length = 32 then return bytes
  else .error s!"Invalid public key length: expected 32 bytes, got {bytes.length}"

variable (c : ProviderClient)

def verifyServerKey (publicKeyB64url : String) : Except String Unit := do
  let key ← (parsePublicKey publicKeyB64url).mapError
    ("Failed to parse ledger service public key from response: " ++ ·)
  if key ≠ c.ledgerServicePublicKey then
    .error "Ledger service public key mismatch — response key does not match configured LEDGER_SERVICE_PUBLIC_KEY"
  else return ()

/-- A signature of the answer that must be there, under the configured key. -/
def verifyFromServer (canonical : Bytes) (signature : Option MessageSignature)
    (missing failed : String) : Except String Unit := do
  let sig ← context missing signature
  verifyServerKey c sig.publicKey
  (verifyCanonical c.ledgerServicePublicKey canonical sig.signature sig.signingScheme).mapError
    fun e => s!"{failed}: {e}"

end Signatures

/-! ## Traces -/

/-- A signature of the service over fees was verified, or fees were authorized. -/
inductive FeeEvent
  | verified (publicKey : Bytes) (payload : Payload)
  | authorized (payload : Payload)

/-- Every authorization was verified before, under the key and over the same payload. -/
def AsShown (publicKey : Bytes) (events : List FeeEvent) : Prop :=
  ∀ before payload after, events = before ++ .authorized payload :: after →
    .verified publicKey payload ∈ before

section Trace

variable {publicKey : Bytes} {events later : List FeeEvent} {payload : Payload}

theorem asShown_nil : AsShown publicKey [] := by
  intro before payload after h
  cases before <;> cases h

theorem asShown_verified (payload : Payload) : AsShown publicKey [.verified publicKey payload] := by
  intro before other after h
  rcases before with _ | ⟨e, before⟩
  · cases h
  · obtain ⟨-, h⟩ := List.cons.inj h
    cases before <;> cases h

theorem AsShown.append (h : AsShown publicKey events) (hlater : AsShown publicKey later) :
    AsShown publicKey (events ++ later) := by
  intro before payload after heq
  rcases List.append_eq_append_iff.mp heq with ⟨rest, rfl, hrest⟩ | ⟨rest, hevents, hrest⟩
  · exact List.mem_append_right _ (hlater rest payload after hrest)
  · rcases rest with _ | ⟨e, rest⟩
    · rw [List.nil_append] at hrest
      rw [List.append_nil] at hevents
      exact absurd (hlater [] payload after hrest.symm) List.not_mem_nil
    · obtain ⟨rfl, rfl⟩ := List.cons.inj hrest
      exact h before payload rest hevents

/-- An authorization after its verification. -/
theorem AsShown.concat (h : AsShown publicKey events) (hmem : .verified publicKey payload ∈ events) :
    AsShown publicKey (events ++ [.authorized payload]) := by
  intro before other after heq
  rcases List.append_eq_append_iff.mp heq with ⟨rest, rfl, hrest⟩ | ⟨rest, hevents, hrest⟩
  · rcases rest with _ | ⟨e, rest⟩
    · obtain ⟨hother, -⟩ := List.cons.inj hrest
      cases hother
      rwa [List.append_nil]
    · obtain ⟨-, hrest⟩ := List.cons.inj hrest
      cases rest <;> cases hrest
  · rcases rest with _ | ⟨e, rest⟩
    · obtain ⟨hother, -⟩ := List.cons.inj hrest
      cases hother
      rw [List.append_nil] at hevents
      exact hevents ▸ hmem
    · obtain ⟨rfl, -⟩ := List.cons.inj hrest
      exact h before other rest hevents

/-- A last authorization was verified. -/
theorem AsShown.mem_of_concat (h : AsShown publicKey (events ++ [.authorized payload])) :
    .verified publicKey payload ∈ events :=
  h events payload [] rfl

end Trace

/-! ## Fees of a transaction -/

/-- `PrepareTransactionResponse` and `PrepareAtomicTransactionResponse` as they are received. -/
structure PrepareTransactionResponse extends Prepared where
  responseSignature : Option MessageSignature
  feesSignature : Option MessageSignature

def missingResponseSignature : String := "Missing response_signature from ledger service"

def missingFeesSignature : String := "Missing fees_signature from ledger service"

section Transactions

variable [MessageCrates] (c : ProviderClient)

/-- The fees of an answer, over what the service says they are for. -/
def verifyFees (payload : Payload) (signature : Option MessageSignature) (failed : String) :
    List FeeEvent × Except String Unit :=
  match verifyFromServer c payload.bytes signature missingFeesSignature failed with
  | .error e => ([], .error e)
  | .ok () => ([.verified c.ledgerServicePublicKey payload], .ok ())

/-- `prepare_transaction` and `prepare_atomic`, from the answer on; `rpc` names the call. -/
def prepareTransaction (rpc : String) (answer : Except String PrepareTransactionResponse) :
    List FeeEvent × Except String Prepared :=
  match answer with
  | .error e => ([], .error e)
  | .ok r =>
    match verifyFromServer c (canonicalPrepareResponse r.transactionId r.preparedTransactionHash
        r.commandId r.preparedTransaction r.hashingSchemeVersion)
      r.responseSignature missingResponseSignature
      (rpc ++ " response signature verification failed") with
    | .error e => ([], .error e)
    | .ok () =>
      match verifyFees c (.txFees c.partyId r.transactionId r.feesJson) r.feesSignature
        (rpc ++ " fees_signature verification failed") with
      | (events, .error e) => (events, .error e)
      | (events, .ok ()) => (events, .ok r.toPrepared)

/-- What `execute_transaction` and `execute_atomic` authorize, unless the key cannot be read. -/
def executeTransaction (keyLost : Option String) (transactionId feesJson : String) :
    List FeeEvent :=
  match keyLost with
  | some _ => []
  | none => [.authorized (.txFees c.partyId transactionId feesJson)]

/-- The answers of the ledger service to the attempts of a submit. -/
structure ServiceAnswers where
  prepare : Nat → Except String PrepareTransactionResponse
  /-- The private key cannot be read when an execute is signed. -/
  keyLost : Nat → Option String

/-- The events of an attempt that sends the executes. -/
def attemptEvents (rpc : String) (service : ServiceAnswers) (n : Nat) (sent : List Signed) :
    List FeeEvent :=
  (prepareTransaction c rpc (service.prepare n)).1 ++ sent.flatMap fun s =>
    executeTransaction c (service.keyLost n) s.prepared.transactionId s.prepared.feesJson

/-- What an execute comes to whose request cannot be signed. -/
def executeAnswer {α : Type} (keyLost : Option String) (answer : Except String α) :
    Except String α :=
  match keyLost with
  | some e => .error e
  | none => answer

/-- The world of `submit_attempts` behind the client's checks. -/
def SubmitWorld.behind (w : SubmitWorld) (service : ServiceAnswers) : SubmitWorld :=
  { w with answers := fun n =>
    { w.answers n with
      prepare := (prepareTransaction c "PrepareTransaction" (service.prepare n)).2
      execute := executeAnswer (service.keyLost n) (w.answers n).execute } }

def AtomicWorld.behind (w : AtomicWorld) (service : ServiceAnswers) : AtomicWorld :=
  { w with answers := fun n =>
    { w.answers n with
      prepare := (prepareTransaction c "PrepareAtomicTransaction" (service.prepare n)).2
      execute := executeAnswer (service.keyLost n) (w.answers n).execute } }

/-- One attempt of the submit, with the fees it verifies and authorizes. -/
def submitAttemptEvents (call : SubmitCall) (w : SubmitWorld) (service : ServiceAnswers) (n : Nat)
    (uncertain : Option String) : List FeeEvent × SubmitAttempt :=
  let (sent, next) := submitAttempt call (w.behind c service) n uncertain
  (attemptEvents c "PrepareTransaction" service n sent, next)

/-- `submit_attempts`, with the fees in place of what it executes. -/
def submitEvents (call : SubmitCall) (w : SubmitWorld) (service : ServiceAnswers) :
    List FeeEvent × Option String × Except String ExecuteTransactionResponse :=
  attempts (submitAttemptEvents c call w service)
    (.error s!"Transaction submit: retry loop exhausted after {call.maxRetries} attempt(s)")
    call.maxRetries 0 none

/-- One attempt of the atomic submit; a closed window ends it before the prepare. -/
def atomicAttemptEvents (call : SubmitCall) (w : AtomicWorld) (service : ServiceAnswers) (n : Nat) :
    List FeeEvent × AtomicAttempt :=
  let (sent, next) := atomicAttempt call (w.behind c service) n
  let closed := decide (0 < n) && windowClosed call (w.answers n).startMicros
  (if closed then [] else attemptEvents c "PrepareAtomicTransaction" service n sent, next)

/-- The atomic submit, with the fees in place of what it executes. -/
def submitAtomicEvents (call : SubmitCall) (w : AtomicWorld) (service : ServiceAnswers) :
    List FeeEvent × Unit × Except String AtomicExecuteResponse :=
  attempts (fun n _ => atomicAttemptEvents c call w service n)
    (.error s!"Atomic transaction submit: retry loop exhausted after {call.maxRetries} attempt(s)")
    call.maxRetries 0 ()

end Transactions

section AsShown

variable [MessageCrates] {c : ProviderClient} {rpc : String} {service : ServiceAnswers} {n : Nat}
  {call : SubmitCall}

/-- The traced submit ends as the submit does. -/
theorem submitEvents_snd (w : SubmitWorld) :
    (submitEvents c call w service).2 = (submitAttempts call (w.behind c service)).2 := by
  refine attempts_snd_eq ?_ _ _ _
  exact fun n uncertain => rfl

theorem submitAtomicEvents_snd (w : AtomicWorld) : (submitAtomicEvents c call w service).2.2 =
    (submitAtomicTransaction call (w.behind c service)).2 := by
  refine congrArg Prod.snd (attempts_snd_eq ?_ _ _ _)
  exact fun n _ => rfl

/-- What fees leave: nothing, or the one verification that they passed. -/
theorem verifyFees_cases (c : ProviderClient) (payload : Payload)
    (signature : Option MessageSignature) (failed : String) : (∃ e, verifyFees c payload signature failed = ([], .error e)) ∨
      verifyFees c payload signature failed =
        ([.verified c.ledgerServicePublicKey payload], .ok ()) := by
  unfold verifyFees
  cases verifyFromServer c payload.bytes signature missingFeesSignature failed with
  | error e => exact .inl ⟨e, rfl⟩
  | ok => exact .inr rfl

/-- A prepare verifies the fees that it goes on with, and authorizes none. -/
theorem prepareTransaction_cases (c : ProviderClient) (rpc : String)
    (answer : Except String PrepareTransactionResponse) :
    (∃ e, prepareTransaction c rpc answer = ([], .error e)) ∨
      ∃ p, prepareTransaction c rpc answer = ([.verified c.ledgerServicePublicKey
        (.txFees c.partyId p.transactionId p.feesJson)], .ok p) := by
  unfold prepareTransaction
  cases answer with
  | error e => exact .inl ⟨e, rfl⟩
  | ok r =>
    dsimp only
    split
    · exact .inl ⟨_, rfl⟩
    · rcases verifyFees_cases c (.txFees c.partyId r.transactionId r.feesJson) r.feesSignature
        (rpc ++ " fees_signature verification failed") with ⟨e, h⟩ | h <;> rw [h]
      · exact .inl ⟨e, rfl⟩
      · exact .inr ⟨r.toPrepared, rfl⟩

/-- **What one attempt leaves**: its execute authorizes the fees that its prepare verified. -/
theorem asShown_attemptEvents {sent : List Signed} (hsent : sent = [] ∨ ∃ s, sent = [s] ∧
      (prepareTransaction c rpc (service.prepare n)).2 = .ok s.prepared) :
    AsShown c.ledgerServicePublicKey (attemptEvents c rpc service n sent) := by
  unfold attemptEvents
  rcases prepareTransaction_cases c rpc (service.prepare n) with
    ⟨e, hprepare⟩ | ⟨p, hprepare⟩ <;> rw [hprepare] at hsent ⊢
  · rcases hsent with rfl | ⟨s, -, h⟩
    · exact asShown_nil
    · cases h
  · rcases hsent with rfl | ⟨s, rfl, h⟩
    · exact asShown_verified _
    · obtain rfl := Except.ok.inj h
      rw [List.flatMap_cons, List.flatMap_nil, List.append_nil]
      unfold executeTransaction
      cases service.keyLost n with
      | some e => exact asShown_verified _
      | none => exact (asShown_verified _).concat List.mem_cons_self

omit [MessageCrates] in
/-- What every attempt leaves, the submit leaves. -/
theorem asShown_attempts {σ ρ : Type} {step : Nat → σ → List FeeEvent × Attempt σ ρ}
    {publicKey : Bytes} (hstep : ∀ n s, AsShown publicKey (step n s).1) (exhausted : ρ) (left : Nat)
    (s : σ) : AsShown publicKey (attempts step exhausted left 0 s).1 := by
  refine attempts_rule (I := fun _ sent _ => AsShown publicKey sent)
    (Q := fun sent _ _ => AsShown publicKey sent) ?_ ?_ (fun _ _ _ h => h) left 0 [] s asShown_nil
  · intro n sent s t s' h ht
    have new := hstep n s
    rw [ht] at new
    exact h.append new
  · intro n sent s t s' r h ht
    have new := hstep n s
    rw [ht] at new
    exact h.append new

theorem asShown_submitEvents (w : SubmitWorld) :
    AsShown c.ledgerServicePublicKey (submitEvents c call w service).1 := by
  refine asShown_attempts ?_ _ _ _
  intro n uncertain
  refine asShown_attemptEvents ?_
  have signed (sent : List Signed) (next : SubmitAttempt)
      (h : submitAttempt call (w.behind c service) n uncertain = (sent, next)) :
      sent = [] ∨ ∃ s, sent = [s] ∧
        (prepareTransaction c "PrepareTransaction" (service.prepare n)).2 = .ok s.prepared := by
    rcases submitAttempt_signed h with ⟨rfl, -⟩ | ⟨s, rfl, -, hprepare, -⟩
    · exact .inl rfl
    · exact .inr ⟨s, rfl, hprepare⟩
  exact signed _ _ rfl

omit [MessageCrates] in
/-- An atomic attempt signs what it has prepared, or nothing. -/
theorem atomicAttempt_signed [VerifierCrates] {w : AtomicWorld} {sent : List Signed}
    {next : AtomicAttempt} (h : atomicAttempt call w n = (sent, next)) :
    sent = [] ∨ ∃ s, sent = [s] ∧ (w.answers n).prepare = .ok s.prepared := by
  unfold atomicAttempt at h
  dsimp only at h
  split at h
  · exact .inl (Prod.mk.inj h).1.symm
  · split at h
    · exact .inl (Prod.mk.inj h).1.symm
    · rename_i prepared hprepared
      split at h
      · exact .inl (Prod.mk.inj h).1.symm
      · rename_i s hsign
        obtain ⟨rfl, -⟩ := Prod.mk.inj h
        obtain ⟨-, rfl, -⟩ := signPrepared_eq_ok hsign
        exact .inr ⟨s, rfl, hprepared⟩

theorem asShown_submitAtomicEvents (w : AtomicWorld) :
    AsShown c.ledgerServicePublicKey (submitAtomicEvents c call w service).1 := by
  refine asShown_attempts ?_ _ _ _
  intro n _
  unfold atomicAttemptEvents
  dsimp only
  split
  · exact asShown_nil
  · exact asShown_attemptEvents (atomicAttempt_signed rfl)

end AsShown

/-! ## Processing fees -/

structure PreparePayFeeResponse where
  proposalId : String
  feeType : String
  feesJson : String
  sessionId : String
  responseSignature : Option MessageSignature
  feesSignature : Option MessageSignature

structure ExecutePayFeeResponse where
  success : Bool
  errorMessage : Option String
  responseSignature : Option MessageSignature

/-- What the ledger service answers to the two calls, and whether the private key can be read for
them. -/
structure PayFeeService where
  prepareKeyLost : Option String
  prepare : (proposalId feeType : String) → Except String PreparePayFeeResponse
  executeKeyLost : Option String
  execute : (proposalId feeType feesJson sessionId : String) → Except String ExecutePayFeeResponse

section PayFee

variable [MessageCrates] (c : ProviderClient)

/-- The response signature is over the fields of the response. -/
def verifyPayFeeResponse (r : PreparePayFeeResponse) : Except String Unit :=
  verifyFromServer c
    (canonicalPreparePayFeeResponse r.proposalId r.feeType r.feesJson r.sessionId)
    r.responseSignature missingResponseSignature
    "PreparePayFee response signature verification failed"

/-- The fees signature is over the proposal and the fee type of the response. -/
def verifyPayFees (r : PreparePayFeeResponse) : List FeeEvent × Except String Unit :=
  verifyFees c (.payFee c.partyId r.sessionId r.proposalId r.feeType r.feesJson) r.feesSignature
    "PreparePayFee fees_signature verification failed"

def preparePayFee (service : PayFeeService) (proposalId feeType : String) :
    List FeeEvent × Except String PreparePayFeeResponse :=
  match service.prepareKeyLost with
  | some e => ([], .error e)
  | none =>
    match service.prepare proposalId feeType with
    | .error e => ([], .error e)
    | .ok r =>
      match verifyPayFeeResponse c r with
      | .error e => ([], .error e)
      | .ok () =>
        match verifyPayFees c r with
        | (events, .error e) => (events, .error e)
        | (events, .ok ()) => (events, .ok r)

def executePayFee (service : PayFeeService) (proposalId feeType feesJson sessionId : String) :
    List FeeEvent × Except String ExecutePayFeeResponse :=
  match service.executeKeyLost with
  | some e => ([], .error e)
  | none =>
    ([.authorized (.payFee c.partyId sessionId proposalId feeType feesJson)],
      match service.execute proposalId feeType feesJson sessionId with
      | .error e => .error e
      | .ok r =>
        match verifyFromServer c (canonicalExecutePayFeeResponse r.success r.errorMessage)
          r.responseSignature missingResponseSignature
          "ExecutePayFee response signature verification failed" with
        | .error e => .error e
        | .ok () => .ok r)

def payProcessingFee (service : PayFeeService) (proposalId feeType : String) :
    List FeeEvent × Except String Unit :=
  match preparePayFee c service proposalId feeType with
  | (events, .error e) => (events, .error e)
  | (events, .ok prep) =>
    match executePayFee c service proposalId feeType prep.feesJson prep.sessionId with
    | (later, .error e) => (events ++ later, .error e)
    | (later, .ok exec) =>
      if exec.success then (events ++ later, .ok ())
      else
        let errorMessage := exec.errorMessage.getD "<no error message>"
        (events ++ later, .error (s!"ExecutePayFee returned failure for proposal {proposalId} " ++
          s!"fee_type {feeType}: {errorMessage}"))

/-- An answer that passes both signatures, where the key can be read for the execute, is about the
proposal and the fee type that were asked for. -/
def PayFeeService.Echoes (service : PayFeeService) (proposalId feeType : String) : Prop :=
  ∀ r, service.prepareKeyLost = none → service.prepare proposalId feeType = .ok r →
    verifyPayFeeResponse c r = .ok () → (verifyPayFees c r).2 = .ok () →
    service.executeKeyLost = none → r.proposalId = proposalId ∧ r.feeType = feeType

variable {c} {service : PayFeeService} {proposalId feeType : String}

/-- What the execute of a fee leaves, whatever is answered. -/
theorem executePayFee_fst {feesJson sessionId : String} :
    (executePayFee c service proposalId feeType feesJson sessionId).1 =
      match service.executeKeyLost with
      | some _ => []
      | none => [.authorized (.payFee c.partyId sessionId proposalId feeType feesJson)] := by
  unfold executePayFee
  cases service.executeKeyLost <;> rfl

/-- The trace of a payment is that of its prepare and, if that succeeds, of its execute. -/
theorem payProcessingFee_fst : (payProcessingFee c service proposalId feeType).1 =
    match preparePayFee c service proposalId feeType with
    | (events, .error _) => events
    | (events, .ok prep) =>
      events ++ (executePayFee c service proposalId feeType prep.feesJson prep.sessionId).1 := by
  unfold payProcessingFee
  rcases preparePayFee c service proposalId feeType with ⟨events, e | prep⟩
  · rfl
  · dsimp only
    rcases executePayFee c service proposalId feeType prep.feesJson prep.sessionId with
      ⟨later, e | exec⟩
    · rfl
    · dsimp only
      split <;> rfl

theorem verifyPayFees_cases (r : PreparePayFeeResponse) : (∃ e, verifyPayFees c r = ([], .error e)) ∨
    verifyPayFees c r = ([.verified c.ledgerServicePublicKey
      (.payFee c.partyId r.sessionId r.proposalId r.feeType r.feesJson)], .ok ()) :=
  verifyFees_cases c _ _ _

/-- **A processing fee is authorized as it was shown** exactly if an answer that is accepted echoes
the request. -/
theorem asShown_payProcessingFee :
    AsShown c.ledgerServicePublicKey (payProcessingFee c service proposalId feeType).1 ↔
      service.Echoes c proposalId feeType := by
  rw [payProcessingFee_fst]
  unfold preparePayFee PayFeeService.Echoes
  cases service.prepareKeyLost with
  | some e => exact iff_of_true asShown_nil fun r h => by cases h
  | none =>
  cases hprepare : service.prepare proposalId feeType with
  | error e => exact iff_of_true asShown_nil fun r _ h => by cases h
  | ok r =>
  cases hresponse : verifyPayFeeResponse c r with
  | error e =>
    dsimp only
    rw [hresponse]
    refine iff_of_true asShown_nil ?_
    rintro r' - hr hok
    obtain rfl := Except.ok.inj hr
    rw [hresponse] at hok
    cases hok
  | ok =>
  dsimp only
  rw [hresponse]
  rcases verifyPayFees_cases (c := c) r with ⟨e, hfees⟩ | hfees <;> rw [hfees]
  · refine iff_of_true asShown_nil ?_
    rintro r' - hr - hok
    obtain rfl := Except.ok.inj hr
    rw [hfees] at hok
    cases hok
  · dsimp only
    rw [executePayFee_fst]
    cases service.executeKeyLost with
    | some e => exact iff_of_true (asShown_verified _) fun r' _ _ _ _ h => by cases h
    | none =>
      -- the one authorization, over the request, after the one verification, over the answer
      constructor
      · rintro hshown r' - hr - - -
        obtain rfl := Except.ok.inj hr
        obtain hmem := List.mem_singleton.mp hshown.mem_of_concat
        obtain ⟨-, -, hproposal, htype, -⟩ := Payload.payFee.inj (FeeEvent.verified.inj hmem).2
        exact ⟨hproposal.symm, htype.symm⟩
      · intro hecho
        obtain ⟨rfl, rfl⟩ := hecho r rfl rfl hresponse (by rw [hfees]) rfl
        exact (asShown_verified _).concat List.mem_cons_self

end PayFee

/-! ## Every call that authorizes fees -/

/-- A call of the client that may authorize fees, with everything that is answered to it. -/
inductive FeeCall
  | submit (call : SubmitCall) (w : SubmitWorld) (service : ServiceAnswers)
  | submitAtomic (call : SubmitCall) (w : AtomicWorld) (service : ServiceAnswers)
  | payProcessingFee (service : PayFeeService) (proposalId feeType : String)

namespace FeeCall

section Calls

variable [MessageCrates] (c : ProviderClient)

def events : FeeCall → List FeeEvent
  | .submit call w service => (submitEvents c call w service).1
  | .submitAtomic call w service => (submitAtomicEvents c call w service).1
  | .payProcessingFee service proposalId feeType =>
    (CloudAgent.payProcessingFee c service proposalId feeType).1

/-- A processing fee is for the proposal and the fee type that were asked for. -/
def Echoes : FeeCall → Prop
  | .submit _ _ _ => True
  | .submitAtomic _ _ _ => True
  | .payProcessingFee service proposalId feeType => service.Echoes c proposalId feeType

/-- **Fees are authorized as they were shown** by every submit, and by the payment of a processing
fee exactly if the answer that is accepted echoes the request. -/
theorem asShown_iff_echoes (call : FeeCall) :
    AsShown c.ledgerServicePublicKey (call.events c) ↔ call.Echoes c := by
  cases call with
  | submit call w service => exact iff_of_true (asShown_submitEvents w) trivial
  | submitAtomic call w service => exact iff_of_true (asShown_submitAtomicEvents w) trivial
  | payProcessingFee service proposalId feeType => exact asShown_payProcessingFee

end Calls

/-! ### The schedule of another proposal -/

/-- Texts of zero bytes, and a service that has signed what it answers. -/
local instance genuineCrates : MessageCrates where
  toVerifierCrates := { plainCrates with base64Decode := fun _ => .ok (List.replicate 64 0) }
  toBase64 := standardBase64
  base64UrlDecode _ := .ok (List.replicate 32 0)
  verifyingKey _ := .ok ()
  ed25519Verify _ _ _ := true

def replayedSignature : MessageSignature where
  signature := String.ofList (List.replicate 86 'A') ++ "=="
  publicKey := String.ofList (List.replicate 43 'A')
  signingScheme := signingScheme

/-- The answer to another request, with the signatures that it was given. -/
def replayedService : PayFeeService where
  prepareKeyLost := none
  prepare _ _ := .ok ⟨"p2", "allocate", "[]", "s2", some replayedSignature, some replayedSignature⟩
  executeKeyLost := none
  execute _ _ _ _ := .ok ⟨true, none, some replayedSignature⟩

/-- The schedule of one proposal is authorized for another. -/
theorem replayed_schedule_authorized : ¬ ∀ (c : ProviderClient) (call : FeeCall),
    AsShown c.ledgerServicePublicKey (call.events c) := by
  intro claim
  have hshown := claim ⟨"alice", List.replicate 32 0⟩ (.payProcessingFee replayedService "p1" "dvp")
  have hmem := hshown [.verified (List.replicate 32 0) (.payFee "alice" "s2" "p2" "allocate" "[]")]
    (.payFee "alice" "s2" "p1" "dvp" "[]") [] rfl
  have hpayload := (FeeEvent.verified.inj (List.mem_singleton.mp hmem)).2
  exact absurd (Payload.payFee.inj hpayload).2.2.1 (by decide)

end FeeCall

end BookAgent.CloudAgent
