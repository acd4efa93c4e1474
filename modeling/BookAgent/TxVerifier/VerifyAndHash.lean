import BookAgent.TxVerifier.Hasher
import BookAgent.TxVerifier.Inspector

/-!
# Verification before signing

`tx-verifier/src/lib.rs`: a prepared transaction is inspected and hashed, and the hash is
compared with the one the server sent beside it.
-/

namespace BookAgent.TxVerifier

open BookAgent.Lib

/-- The crates that decode and hash. -/
class VerifierCrates extends Hex where
  sha256 : Bytes → Digest
  decodePrepared : Bytes → Option PreparedTransaction
  base64Decode : String → Except String Bytes

structure VerificationResult where
  accepted : Bool
  computedHash : Digest
  summary : String
  warnings : List String
  rejectionReason : Option String

def hashMismatch [Hex] (server : Bytes) (computed : Digest) : String :=
  s!"Hash mismatch: server={Hex.encode server}, computed={Hex.encode computed.val}"

section Verify

variable [VerifierCrates]

def verifyAndHash (preparedTransactionBytes : Bytes) (serverHashBase64 hashingSchemeVersion : String)
    (expectation : OperationExpectation) : Except String VerificationResult := do
  let inspection ← inspect VerifierCrates.decodePrepared preparedTransactionBytes expectation
  if inspection.accepted = false then
    return {
      accepted := false
      computedHash := sentinel
      summary := inspection.summary
      warnings := inspection.warnings
      rejectionReason := inspection.rejectionReason }
  let computedHash ← computeHash VerifierCrates.sha256 VerifierCrates.decodePrepared
    preparedTransactionBytes hashingSchemeVersion
  if computedHash = sentinel then
    return {
      accepted := true
      computedHash
      summary := inspection.summary ++ "\nHash computation failed — using server hash."
      warnings := inspection.warnings
      rejectionReason := none }
  let serverHashBytes ← (VerifierCrates.base64Decode serverHashBase64).mapError fun e =>
    s!"Failed to decode server hash: {e}"
  if computedHash.val = serverHashBytes then
    return {
      accepted := true
      computedHash
      summary := inspection.summary ++ "\nHash verified — MATCH."
      warnings := inspection.warnings
      rejectionReason := none }
  return {
    accepted := true
    computedHash := sentinel
    summary := inspection.summary ++ "\nHash MISMATCH (debug mode — using server hash)."
    warnings := inspection.warnings ++ [hashMismatch serverHashBytes computedHash]
    rejectionReason := none }

/-- Which hash is signed: the server's in place of the sentinel. -/
def hashToSign (verification : VerificationResult) (serverHashBase64 : String) : Except String Bytes :=
  if verification.computedHash = sentinel then
    (VerifierCrates.base64Decode serverHashBase64).mapError fun e =>
      s!"Failed to decode prepared_transaction_hash: {e}"
  else .ok verification.computedHash.val

variable {bytes : Bytes} {server scheme : String} {expectation : OperationExpectation}
  {v : VerificationResult} {h : Bytes}

/-- What is known of a prepared transaction for which `h` is signed. -/
structure Checked (bytes : Bytes) (server scheme : String) (expectation : OperationExpectation)
    (warnings : List String) (h : Bytes) : Prop where
  decoded : (VerifierCrates.decodePrepared bytes).isSome = true
  accepted : ∃ r, inspect VerifierCrates.decodePrepared bytes expectation = .ok r ∧ r.accepted = true
  /-- The server's hash. -/
  hash : VerifierCrates.base64Decode server = .ok h
  /-- It is the computed one, or none was computed, or there is a warning. -/
  compared : ∃ computed, computeHash VerifierCrates.sha256 VerifierCrates.decodePrepared bytes scheme
      = .ok computed ∧ (computed = sentinel ∨ computed.val = h ∨ hashMismatch h computed ∈ warnings)

theorem isSome_decode_of_computeHash {computed : Digest}
    (hcomputed : computeHash VerifierCrates.sha256 VerifierCrates.decodePrepared bytes scheme
      = .ok computed) : (VerifierCrates.decodePrepared bytes).isSome = true := by
  unfold computeHash at hcomputed
  obtain ⟨prepared, hprepared, -⟩ := bind_eq_ok.mp hcomputed
  rw [context_eq_ok.mp hprepared]
  rfl

/-- What is signed of an accepted transaction has been checked. -/
theorem checked_of_accepted (hverify : verifyAndHash bytes server scheme expectation = .ok v)
    (haccepted : v.accepted = true) (hsign : hashToSign v server = .ok h) :
    Checked bytes server scheme expectation v.warnings h := by
  unfold verifyAndHash at hverify
  obtain ⟨r, hinspect, hverify⟩ := bind_eq_ok.mp hverify
  cases hr : r.accepted with
  | false =>
    rw [if_pos hr, pure_eq_ok] at hverify
    subst hverify
    cases haccepted
  | true =>
    rw [if_neg (by rw [hr]; exact Bool.noConfusion)] at hverify
    obtain ⟨computed, hcomputed, hverify⟩ := bind_eq_ok.mp hverify
    have decoded := isSome_decode_of_computeHash hcomputed
    by_cases hsentinel : computed = sentinel
    · rw [if_pos hsentinel, pure_eq_ok] at hverify
      subst hverify
      unfold hashToSign at hsign
      rw [if_pos hsentinel, mapError_eq_ok] at hsign
      exact ⟨decoded, ⟨r, hinspect, hr⟩, hsign, computed, hcomputed, .inl hsentinel⟩
    · rw [if_neg hsentinel] at hverify
      obtain ⟨serverHash, hserver, hverify⟩ := bind_eq_ok.mp hverify
      rw [mapError_eq_ok] at hserver
      by_cases hmatch : computed.val = serverHash
      · rw [if_pos hmatch, pure_eq_ok] at hverify
        subst hverify
        unfold hashToSign at hsign
        rw [if_neg hsentinel] at hsign
        cases hsign
        rw [← hmatch] at hserver
        exact ⟨decoded, ⟨r, hinspect, hr⟩, hserver, computed, hcomputed, .inr (.inl rfl)⟩
      · rw [if_neg hmatch, pure_eq_ok] at hverify
        subst hverify
        unfold hashToSign at hsign
        rw [if_pos rfl, mapError_eq_ok] at hsign
        obtain rfl := Except.ok.inj (hserver.symm.trans hsign)
        refine ⟨decoded, ⟨r, hinspect, hr⟩, hserver, computed, hcomputed, .inr (.inr ?_)⟩
        exact List.mem_append_right _ (List.mem_singleton.mpr rfl)

/-- Whatever hash the server sends with an accepted transaction is the one to sign. -/
theorem hashToSign_accepted {r : InspectionResult} {computed : Digest}
    (hinspect : inspect VerifierCrates.decodePrepared bytes expectation = .ok r)
    (haccepted : r.accepted = true)
    (hcomputed : computeHash VerifierCrates.sha256 VerifierCrates.decodePrepared bytes scheme
      = .ok computed) (hserver : VerifierCrates.base64Decode server = .ok h) :
    ∃ v, verifyAndHash bytes server scheme expectation = .ok v ∧ v.accepted = true ∧
      hashToSign v server = .ok h := by
  have sent : (VerifierCrates.base64Decode server).mapError (fun e =>
      s!"Failed to decode prepared_transaction_hash: {e}") = .ok h := mapError_eq_ok.mpr hserver
  have compared : (VerifierCrates.base64Decode server).mapError (fun e =>
      s!"Failed to decode server hash: {e}") = .ok h := mapError_eq_ok.mpr hserver
  have goes : ¬ r.accepted = false := by
    rw [haccepted]
    exact Bool.noConfusion
  unfold verifyAndHash
  by_cases hsentinel : computed = sentinel
  · refine ⟨⟨true, computed, ?_, ?_, ?_⟩, bind_eq_ok.mpr ⟨r, hinspect, (if_neg goes).trans
      (bind_eq_ok.mpr ⟨computed, hcomputed, ?verified⟩)⟩, rfl, (if_pos hsentinel).trans sent⟩
    case verified => exact if_pos hsentinel
  · by_cases hmatch : computed.val = h
    · refine ⟨⟨true, computed, ?_, ?_, ?_⟩, bind_eq_ok.mpr ⟨r, hinspect, (if_neg goes).trans
        (bind_eq_ok.mpr ⟨computed, hcomputed, (if_neg hsentinel).trans
          (bind_eq_ok.mpr ⟨h, compared, ?verified⟩)⟩)⟩, rfl,
        (if_neg hsentinel).trans (congrArg Except.ok hmatch)⟩
      case verified => exact if_pos hmatch
    · refine ⟨⟨true, sentinel, ?_, ?_, ?_⟩, bind_eq_ok.mpr ⟨r, hinspect, (if_neg goes).trans
        (bind_eq_ok.mpr ⟨computed, hcomputed, (if_neg hsentinel).trans
          (bind_eq_ok.mpr ⟨h, compared, ?verified⟩)⟩)⟩, rfl, (if_pos rfl).trans sent⟩
      case verified => exact if_neg hmatch

end Verify

end BookAgent.TxVerifier
