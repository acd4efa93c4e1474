import BookAgent.CloudAgent.SubmitOutcomes
import BookAgent.CloudAgent.SubmitAtomic
import BookAgent.TxVerifier.TransferSafety

/-!
# What a submit signs

Both loops sign only what was decoded, inspected and accepted. The hash they sign is the
server's; it is the computed one where the two agree.
-/

namespace BookAgent.CloudAgent

open BookAgent.Lib BookAgent.TxVerifier

section Signing

variable [VerifierCrates] {call : SubmitCall}

/-- The transaction was checked, and this is the hash to sign. -/
def Signed.Checked (s : Signed) (expectation : OperationExpectation) : Prop :=
  TxVerifier.Checked s.prepared.preparedTransaction s.prepared.preparedTransactionHash
    s.prepared.hashingSchemeVersion expectation s.warnings s.hash

theorem Signed.checked_of_signPrepared {ρ : Type} {notExecuted : ρ} {refusal : String}
    {prepared : Prepared} {a : SignAnswers} {attempt : Nat} {s : Signed} (hforce : call.force = false)
    (h : signPrepared call notExecuted refusal prepared a attempt = .ok s) :
    s.Checked call.expectation := by
  have checked := CloudAgent.checked_of_signPrepared hforce h
  obtain ⟨-, hprepared, -⟩ := signPrepared_eq_ok h
  unfold Signed.Checked
  rw [hprepared]
  exact checked

/-- A loop whose attempts sign only what was checked signs only what was checked. -/
theorem checked_of_attempts {σ ρ : Type} {step : Nat → σ → List Signed × Attempt σ ρ}
    {exhausted : ρ} {left : Nat} {state : σ}
    (hstep : ∀ n u, ∀ s ∈ (step n u).1, s.Checked call.expectation) :
    ∀ s ∈ (attempts step exhausted left 0 state).1, s.Checked call.expectation := by
  have more {n : Nat} {signed t : List Signed} {u : σ} {next : Attempt σ ρ}
      (inv : ∀ s ∈ signed, s.Checked call.expectation) (h : step n u = (t, next)) :
      ∀ s ∈ signed ++ t, s.Checked call.expectation := by
    intro s hs
    rcases List.mem_append.mp hs with hs | hs
    · exact inv s hs
    · have new := hstep n u s
      rw [h] at new
      exact new hs
  exact attempts_rule (I := fun _ signed _ => ∀ s ∈ signed, s.Checked call.expectation)
    (Q := fun signed _ _ => ∀ s ∈ signed, s.Checked call.expectation)
    (fun _ _ _ _ _ inv h => more inv h) (fun _ _ _ _ _ _ inv h => more inv h)
    (fun _ _ _ inv => inv) left 0 [] state fun s hs => absurd hs List.not_mem_nil

/-- Without force, what `submit_transaction` and `submit_atomic_transaction` sign was decoded,
inspected and accepted, and the hash is the server's. -/
theorem signed_checked (hforce : call.force = false) :
    (∀ w, ∀ s ∈ (submitTransaction call w).1, s.Checked call.expectation) ∧
      ∀ w, ∀ s ∈ (submitAtomicTransaction call w).1, s.Checked call.expectation := by
  refine ⟨fun w => checked_of_attempts fun n u s hs => ?_,
    fun w => checked_of_attempts fun n u s hs => ?_⟩
  · unfold submitAttempt at hs
    dsimp only at hs
    split at hs
    · cases hs
    · split at hs
      · cases hs
      · rename_i signed hsign
        rw [List.mem_singleton.mp hs]
        exact Signed.checked_of_signPrepared hforce hsign
  · unfold atomicAttempt at hs
    dsimp only at hs
    split at hs
    · cases hs
    · split at hs
      · cases hs
      · split at hs
        · cases hs
        · rename_i signed hsign
          rw [List.mem_singleton.mp hs]
          exact Signed.checked_of_signPrepared hforce hsign

/-- A transaction that is inspected and accepted is signed, with the hash the server sends. -/
theorem mem_submitTransaction_of_accepted {w : SubmitWorld} {p : Prepared} {r : InspectionResult}
    {computed : Digest} {h : Bytes} (hdryRun : call.dryRun = false) (hretries : 0 < call.maxRetries)
    (hprepare : (w.answers 0).prepare = .ok p) (hverified : (w.answers 0).verifyLost = none)
    (hkey : (w.answers 0).keyLost = none)
    (hinspect : inspect VerifierCrates.decodePrepared p.preparedTransaction call.expectation = .ok r)
    (haccepted : r.accepted = true)
    (hcomputed : computeHash VerifierCrates.sha256 VerifierCrates.decodePrepared
      p.preparedTransaction p.hashingSchemeVersion = .ok computed)
    (hserver : VerifierCrates.base64Decode p.preparedTransactionHash = .ok h) :
    ∃ s ∈ (submitTransaction call w).1, s.prepared = p ∧ s.hash = h := by
  obtain ⟨v, hv, hvaccepted, hhash⟩ := hashToSign_accepted hinspect haccepted hcomputed hserver
  have signs (refusal : String) : signPrepared call dryRunResponse refusal p
      (w.answers 0).toSignAnswers 0 = .ok ⟨0, p, v.warnings, h⟩ := by
    unfold signPrepared verifyBounded
    rw [hverified, hv, hkey, hdryRun]
    dsimp only
    rw [hhash, hvaccepted]
    rfl
  refine ⟨⟨0, p, v.warnings, h⟩, ?_, rfl, rfl⟩
  obtain ⟨left, hleft⟩ := Nat.exists_eq_succ_of_ne_zero hretries.ne'
  unfold submitTransaction submitAttempts
  rw [hleft]
  refine mem_attempts_of_first ?_
  unfold submitAttempt
  dsimp only
  rw [hprepare]
  dsimp only
  rw [signs]
  exact List.mem_singleton.mpr rfl

end Signing

/-! ## A transfer and its hash -/

section Example

/-- A length-delimited field of a message; keys and lengths take two bytes at most. -/
def lenField (number : Nat) (body : Bytes) : Bytes :=
  let varint (n : Nat) : Bytes :=
    if n < 128 then [UInt8.ofNat n] else [UInt8.ofNat (n % 128 + 128), UInt8.ofNat (n / 128)]
  varint (8 * number + 2) ++ varint body.length ++ body

def textField (number : Nat) (text : String) : Bytes := lenField number (utf8 text)

/-- A record value. -/
def recordBytes (fields : List (String × Bytes)) : Bytes :=
  lenField 14 (fields.flatMap fun f => lenField 2 (textField 1 f.1 ++ lenField 2 f.2))

/-- `fullTransfer`, with a seed for its node. -/
def seededTransfer : PreparedTransaction :=
  { fullTransfer with
    transaction := fullTransfer.transaction.map fun tx =>
      { tx with nodeSeeds := [⟨0, List.replicate 32 7⟩] } }

/-- The message as it is sent. -/
def transferBytes : Bytes :=
  let transfer := recordBytes [("sender", textField 7 "alice"), ("receiver", textField 7 "bob"),
    ("amount", textField 6 "1.0"), ("instrumentId", recordBytes [("id", textField 8 "Amulet")])]
  let template := textField 1 "p" ++ textField 2 "Splice.ExternalPartyAmuletRules" ++
    textField 3 "ExternalPartyAmuletRules"
  let exercise := textField 1 "2.1" ++ textField 2 "00aa" ++ textField 3 "app" ++
    lenField 4 template ++ textField 5 "alice" ++ textField 6 "alice" ++ textField 7 "alice" ++
    textField 9 "TransferFactory_Transfer" ++ lenField 10 (recordBytes [("transfer", transfer)]) ++
    -- `consuming`
    [88, 1]
  let transaction := textField 1 "2.1" ++ textField 2 "0" ++
    lenField 3 (textField 1 "0" ++ lenField 1000 (lenField 3 exercise)) ++
    lenField 4 (lenField 2 (List.replicate 32 7))
  lenField 1 transaction ++ lenField 2 (lenField 2 (textField 1 "alice" ++ textField 2 "cmd"))

/-- The hash of the transfer, and another one, each with its base64. -/
def transferHash : Bytes × String :=
  ([0xe8, 0xa9, 0x7f, 0x7c, 0xee, 0xeb, 0x55, 0xdc, 0xa0, 0x15, 0x48, 0xcc, 0xd8, 0xaa, 0xfc, 0xd3,
    0xac, 0x87, 0x86, 0x9a, 0x12, 0xde, 0x09, 0xd3, 0x6c, 0x44, 0xca, 0x07, 0xd5, 0x95, 0x7c, 0x60],
   "6Kl/fO7rVdygFUjM2Kr806yHhpoS3gnTbETKB9WVfGA=")

def otherHash : Bytes × String :=
  (List.replicate 32 1, "AQEBAQEBAQEBAQEBAQEBAQEBAQEBAQEBAQEBAQEBAQE=")

/-- The crates on the transfer's bytes, the empty message and these texts. -/
abbrev transferCrates : VerifierCrates where
  toHex := pairedHex
  sha256 := Sha256.hash
  decodePrepared bytes :=
    if bytes = transferBytes then some seededTransfer
    else if bytes = [] then some ⟨none, none⟩
    else none
  base64Decode text :=
    if text = transferHash.2 then .ok transferHash.1
    else if text = otherHash.2 then .ok otherHash.1
    else if text = "" then .ok []
    else .error "Invalid byte"

local instance signingCrates : VerifierCrates := transferCrates

/-- A transfer of 1 CC from `alice` to `bob`. -/
def transferCall : SubmitCall where
  operation := 6
  expectation := .transferCc "alice" "bob" "1" "cmd"
  dryRun := false
  force := false
  maxRetries := 5

/-- The server sends these bytes with this hash, and the execute succeeds. -/
def sending (bytes : Bytes) (hash : String) : SubmitWorld where
  startedAt := 0
  ledgerEnd := .ok 5
  answers _ :=
    { answersOf (.ok executed) "cmd" with prepare := .ok ⟨"t", "cmd", bytes, hash, "V2", ""⟩ }

def computed (bytes : Bytes) : Except String Digest :=
  computeHash VerifierCrates.sha256 VerifierCrates.decodePrepared bytes "V2"

theorem accepted_and_hashed : Inspect.accepts (inspect VerifierCrates.decodePrepared transferBytes
      transferCall.expectation) = true ∧
    (computed transferBytes).toOption.map (·.val) = some transferHash.1 := by decide +kernel

theorem computed_transfer : ∃ d, computed transferBytes = .ok d ∧ d.val = transferHash.1 := by
  have hash := accepted_and_hashed.2
  cases hc : computed transferBytes with
  | error e =>
    rw [hc] at hash
    cases hash
  | ok d =>
    rw [hc] at hash
    exact ⟨d, rfl, Option.some.inj hash⟩

/-- The transfer is signed with any hash that decodes. -/
theorem transfer_signed {text : String} {h : Bytes}
    (hserver : VerifierCrates.base64Decode text = .ok h) :
    ∃ s ∈ (submitTransaction transferCall (sending transferBytes text)).1,
      s.prepared = ⟨"t", "cmd", transferBytes, text, "V2", ""⟩ ∧ s.hash = h := by
  obtain ⟨r, hinspect, haccepted⟩ := Inspect.accepts_iff.mp accepted_and_hashed.1
  obtain ⟨d, hcomputed, -⟩ := computed_transfer
  exact mem_submitTransaction_of_accepted rfl (by decide) rfl rfl rfl hinspect haccepted hcomputed
    hserver

/-- The transfer is signed with the hash that the server and the agent agree on. -/
theorem signed_checked_transfer :
    ∃ s ∈ (submitTransaction transferCall (sending transferBytes transferHash.2)).1,
      s.Checked transferCall.expectation ∧ s.prepared.preparedTransaction = transferBytes ∧
        ∃ d, computed transferBytes = .ok d ∧ s.hash = d.val := by
  obtain ⟨s, hs, hprepared, hhash⟩ := transfer_signed
    (show VerifierCrates.base64Decode transferHash.2 = .ok transferHash.1 from if_pos rfl)
  obtain ⟨d, hcomputed, hd⟩ := computed_transfer
  exact ⟨s, hs, (signed_checked rfl).1 _ s hs, by rw [hprepared], d, hcomputed,
    hhash.trans hd.symm⟩

/-- The server sends another hash for the transfer, or a message of which no hash can be
computed; the hash it sends is signed. -/
theorem server_hash_signed :
    (∃ s ∈ (submitTransaction transferCall (sending transferBytes otherHash.2)).1,
      s.prepared.preparedTransaction = transferBytes ∧
        ∃ d, computed transferBytes = .ok d ∧ d ≠ sentinel ∧ s.hash ≠ d.val) ∧
    ∃ s ∈ (submitTransaction multicall (sending [] otherHash.2)).1,
      s.hash = otherHash.1 ∧ s.prepared.preparedTransaction = [] ∧
        computed [] = .ok sentinel := by
  have hserver : VerifierCrates.base64Decode otherHash.2 = .ok otherHash.1 :=
    (if_neg (by decide)).trans (if_pos rfl)
  refine ⟨?_, ?_⟩
  · obtain ⟨s, hs, hprepared, hhash⟩ := transfer_signed hserver
    obtain ⟨d, hcomputed, hd⟩ := computed_transfer
    refine ⟨s, hs, by rw [hprepared], d, hcomputed, fun hsentinel => ?_, ?_⟩
    · rw [hsentinel] at hd
      exact absurd hd (by decide)
    · rw [hhash, hd]
      decide
  · obtain ⟨s, hs, hprepared, hhash⟩ : ∃ s ∈ (submitTransaction multicall
        (sending [] otherHash.2)).1, s.prepared = ⟨"t", "cmd", [], otherHash.2, "V2", ""⟩ ∧
          s.hash = otherHash.1 :=
      mem_submitTransaction_of_accepted rfl (by decide) rfl rfl rfl rfl rfl rfl hserver
    exact ⟨s, hs, hhash, by rw [hprepared], rfl⟩

end Example

end BookAgent.CloudAgent
