import Mathlib.Data.Rat.Defs
import Mathlib.Algebra.Order.Ring.Rat
import BookAgent.Lib.PoolTotal

/-!
# Liquidity commitments

`agent-logic/src/liquidity.rs`: balances, the amounts committed to settlements in
flight, and the check that a new commitment can be backed. Amounts are the exact
numbers the decimals stand for; saturating arithmetic is exact inside the `Decimal`
range. When a balance was last refreshed and the flow averages play no part in a
commitment and are left out.
-/

namespace BookAgent.AgentLogic

open BookAgent.Lib

def ccToken : String := "CC"

/-- Balance and commitments of one token. -/
structure TokenState where
  balance : ℚ
  /-- Amounts committed to allocations, by proposal id. -/
  allocationCommitments : Pool String ℚ

namespace TokenState

def new : TokenState := ⟨0, ∅⟩

/-- A negative reported balance is held as zero. -/
def setBalance (t : TokenState) (balance : ℚ) : TokenState := { t with balance := max balance 0 }

def committed (t : TokenState) : ℚ := t.allocationCommitments.values.sum

def available (t : TokenState) : ℚ := max (t.balance - t.committed) 0

end TokenState

/-- Why a commitment was refused. -/
inductive CommitError
  | insufficient (token : String) (available needed : ℚ)
  | insufficientFees (available needed : ℚ)
  deriving DecidableEq

/-- Display bound, `u64::MAX` either way. -/
def shownMax : ℚ := 2 ^ 64 - 1

def shown (amount : ℚ) : ℚ := min (max amount (-shownMax)) shownMax

/-- The text of the refusal; `fixed4` is `{:.4}`. -/
def CommitError.text (fixed4 : ℚ → String) : CommitError → String
  | .insufficient token available needed =>
    "insufficient " ++ token ++ " (" ++ fixed4 (shown available) ++ " available, " ++
      fixed4 (shown needed) ++ " needed for allocation)"
  | .insufficientFees available needed =>
    "insufficient CC for fees (" ++ fixed4 (shown (max available 0)) ++
      " available after allocation + reserve, " ++ fixed4 (shown needed) ++ " needed)"

structure LiquidityState where
  tokens : Pool String TokenState
  /-- CC committed for fees, by proposal id. -/
  feeCommitments : Pool String ℚ
  /-- Short name → canonical key. -/
  aliases : Pool String String

structure LiquidityManager where
  state : LiquidityState
  /-- CC kept free after all commitments. -/
  feeReserveCc : ℚ

namespace LiquidityState

/-- The canonical key, or the name itself where it has no alias. -/
def resolveAlias (s : LiquidityState) (token : String) : String := (s.aliases.lookup token).getD token

/-- An absent entry counts as the fresh one a commit would insert. -/
def token (s : LiquidityState) (key : String) : TokenState := (s.tokens.lookup key).getD .new

def feeTotal (s : LiquidityState) : ℚ := s.feeCommitments.values.sum

/-- `entry(key).or_insert_with(new)`, then the update. -/
def modifyToken (s : LiquidityState) (key : String) (f : TokenState → TokenState) : LiquidityState :=
  { s with tokens := s.tokens.insert key (f (s.token key)) }

end LiquidityState

namespace LiquidityManager

def new (feeReserveCc : ℚ) : LiquidityManager := ⟨⟨∅, ∅, ∅⟩, feeReserveCc⟩

/-! ## Balances and aliases -/

def updateTokenBalance (m : LiquidityManager) (instrumentId : String) (unlocked : ℚ) :
    LiquidityManager :=
  { m with state := m.state.modifyToken instrumentId fun t => t.setBalance unlocked }

def updateCcBalance (m : LiquidityManager) (selectableCc : ℚ) : LiquidityManager :=
  m.updateTokenBalance ccToken selectableCc

/-- Several updates under one lock. -/
def updateTokenBalances (m : LiquidityManager) (updates : List (String × ℚ)) : LiquidityManager :=
  updates.foldl (fun m u => m.updateTokenBalance u.1 u.2) m

def registerAlias (m : LiquidityManager) (short canonical : String) : LiquidityManager :=
  { m with state := { m.state with aliases := m.state.aliases.insert short canonical } }

/-! ## Commitments -/

/-- The check `try_commit` and `can_commit` share. -/
def checkCommit (m : LiquidityManager) (allocationToken : String) (allocationAmount feeCc : ℚ) :
    Except CommitError Unit :=
  let token := m.state.resolveAlias allocationToken
  let tokenAvailable := (m.state.token token).available
  if tokenAvailable < allocationAmount then
    .error (.insufficient token tokenAvailable allocationAmount)
  else
    let ccAvailable := (m.state.token ccToken).available
    let ccAvailableForFees := ccAvailable - m.feeReserveCc - m.state.feeTotal
    -- an allocation of CC takes from the same balance as the fees
    let ccAfterAlloc :=
      if token = ccToken then ccAvailableForFees - allocationAmount else ccAvailableForFees
    if ccAfterAlloc < feeCc then .error (.insufficientFees ccAfterAlloc feeCc) else .ok ()

def canCommit (m : LiquidityManager) (allocationToken : String) (allocationAmount feeCc : ℚ) :
    Except CommitError Unit :=
  m.checkCommit allocationToken allocationAmount feeCc

/-- A commitment, allocation or fee, exists for the proposal. -/
def hasCommitment (m : LiquidityManager) (proposalId : String) : Bool :=
  decide (proposalId ∈ m.state.feeCommitments) ||
    m.state.tokens.values.any fun t => decide (proposalId ∈ t.allocationCommitments)

/-- Record the two amounts under the proposal id, over what stood there. -/
def commit (m : LiquidityManager) (proposalId token : String) (allocationAmount feeCc : ℚ) :
    LiquidityManager :=
  let s := m.state.modifyToken token fun t =>
    { t with allocationCommitments := t.allocationCommitments.insert proposalId allocationAmount }
  { m with state := { s with feeCommitments := s.feeCommitments.insert proposalId feeCc } }

def tryCommit (m : LiquidityManager) (proposalId allocationToken : String)
    (allocationAmount feeCc : ℚ) : Except CommitError LiquidityManager :=
  match m.checkCommit allocationToken allocationAmount feeCc with
  | .error e => .error e
  | .ok () =>
    -- under the key the check read
    .ok (m.commit proposalId (m.state.resolveAlias allocationToken) allocationAmount feeCc)

/-- Drop the proposal's commitments, whichever token they are in. -/
def release (m : LiquidityManager) (proposalId : String) : LiquidityManager :=
  { m with state := { m.state with
      tokens := m.state.tokens.mapVal fun _ t =>
        { t with allocationCommitments := t.allocationCommitments.erase proposalId }
      feeCommitments := m.state.feeCommitments.erase proposalId } }

/-- Commitments of confirmed quotes are no settlement proposals and stay. -/
def keepsCommitment (liveIds : List String) (proposalId : String) : Bool :=
  decide (proposalId ∈ liveIds) || "rfqv2:".toList.isPrefixOf proposalId.toList

/-- Drop the commitments of proposals that are no longer live. -/
def retainCommitments (m : LiquidityManager) (liveIds : List String) : LiquidityManager :=
  { m with state := { m.state with
      tokens := m.state.tokens.mapVal fun _ t =>
        { t with allocationCommitments :=
            t.allocationCommitments.retain fun pid _ => keepsCommitment liveIds pid }
      feeCommitments := m.state.feeCommitments.retain fun pid _ => keepsCommitment liveIds pid } }

/-- What `retain_commitments` reports: the proposals it drops, from either map. -/
def orphaned (m : LiquidityManager) (liveIds : List String) : List String :=
  let allocated := m.state.tokens.values.flatMap fun t => t.allocationCommitments.keys
  ((allocated ++ m.state.feeCommitments.keys).filter fun pid => !keepsCommitment liveIds pid).dedup

/-- Balance after commitments; for CC also after the fees and the reserve. -/
def available (m : LiquidityManager) (token : String) : ℚ :=
  let resolved := m.state.resolveAlias token
  let base := (m.state.token resolved).available
  if resolved = ccToken then max (base - m.feeReserveCc - m.state.feeTotal) 0 else base

end LiquidityManager

/-! ## Reading the state back -/

namespace LiquidityState

variable {s : LiquidityState} {key other : String} {f : TokenState → TokenState}

@[simp] theorem token_modifyToken : (s.modifyToken key f).token key = f (s.token key) := by
  unfold token modifyToken
  rw [AList.lookup_insert, Option.getD_some, token]

theorem token_modifyToken_ne (h : other ≠ key) : (s.modifyToken key f).token other = s.token other := by
  unfold token modifyToken
  rw [AList.lookup_insert_ne h]

@[simp] theorem aliases_modifyToken : (s.modifyToken key f).aliases = s.aliases := rfl

@[simp] theorem feeCommitments_modifyToken :
    (s.modifyToken key f).feeCommitments = s.feeCommitments := rfl

/-- Updating every entry updates every token, when the update fixes the fresh one. -/
theorem token_mapVal (hnew : f .new = .new) :
    ({ s with tokens := s.tokens.mapVal fun _ t => f t } : LiquidityState).token key
      = f (s.token key) := by
  unfold token
  rw [Pool.lookup_mapVal]
  cases s.tokens.lookup key with
  | none => exact hnew.symm
  | some t => rfl

end LiquidityState

namespace LiquidityManager

variable {m m' : LiquidityManager} {pid token : String} {amount fee : ℚ}

/-- What an accepted check says: the token covers the amount, and CC the fee. -/
theorem checkCommit_ok (h : m.checkCommit token amount fee = .ok ()) :
    amount ≤ (m.state.token (m.state.resolveAlias token)).available ∧
      fee ≤ (m.state.token ccToken).available - m.feeReserveCc - m.state.feeTotal -
        (if m.state.resolveAlias token = ccToken then amount else 0) := by
  simp only [checkCommit] at h
  split at h
  · cases h
  · rename_i hamount
    by_cases htoken : m.state.resolveAlias token = ccToken
    · rw [if_pos htoken] at h
      rw [if_pos htoken]
      split at h
      · cases h
      · rename_i hfee
        exact ⟨not_lt.mp hamount, not_lt.mp hfee⟩
    · rw [if_neg htoken] at h
      rw [if_neg htoken, sub_zero]
      split at h
      · cases h
      · rename_i hfee
        exact ⟨not_lt.mp hamount, not_lt.mp hfee⟩

theorem tryCommit_ok (h : m.tryCommit pid token amount fee = .ok m') :
    m.checkCommit token amount fee = .ok () ∧
      m' = m.commit pid (m.state.resolveAlias token) amount fee := by
  unfold tryCommit at h
  split at h
  · cases h
  · rename_i hcheck
    exact ⟨hcheck, (Except.ok.inj h).symm⟩

/-- A proposal that is released has no commitment left. -/
theorem hasCommitment_release : (m.release pid).hasCommitment pid = false := by
  unfold hasCommitment
  rw [Bool.or_eq_false_iff, decide_eq_false_iff_not, List.any_eq_false]
  refine ⟨fun hmem => (AList.mem_erase.mp hmem).1 rfl, ?_⟩
  intro t ht
  obtain ⟨k, hk⟩ := Pool.mem_values.mp ht
  simp only [release, Pool.lookup_mapVal, Option.map_eq_some_iff] at hk
  obtain ⟨t', -, rfl⟩ := hk
  simp only [AList.mem_erase, ne_eq, not_true_eq_false, false_and, decide_false,
    Bool.false_eq_true, not_false_eq_true]

theorem hasCommitment_iff : m.hasCommitment pid = true ↔
    pid ∈ m.state.feeCommitments ∨
      ∃ key t, m.state.tokens.lookup key = some t ∧ pid ∈ t.allocationCommitments := by
  unfold hasCommitment
  rw [Bool.or_eq_true, decide_eq_true_eq, List.any_eq_true]
  constructor
  · rintro (hfee | ⟨t, ht, hpid⟩)
    · exact .inl hfee
    · obtain ⟨key, hkey⟩ := Pool.mem_values.mp ht
      exact .inr ⟨key, t, hkey, of_decide_eq_true hpid⟩
  · rintro (hfee | ⟨key, t, hkey, hpid⟩)
    · exact .inl hfee
    · exact .inr ⟨t, Pool.mem_values.mpr ⟨key, hkey⟩, decide_eq_true hpid⟩

/-- A release leaves the other proposals' commitments. -/
theorem hasCommitment_release_ne {other : String} (h : other ≠ pid) :
    (m.release pid).hasCommitment other = m.hasCommitment other := by
  rw [Bool.eq_iff_iff, hasCommitment_iff, hasCommitment_iff]
  unfold release
  refine or_congr ?_ ?_
  · rw [AList.mem_erase]
    exact and_iff_right h
  · constructor
    · rintro ⟨key, t, hkey, hother⟩
      rw [Pool.lookup_mapVal, Option.map_eq_some_iff] at hkey
      obtain ⟨t', ht', rfl⟩ := hkey
      exact ⟨key, t', ht', (AList.mem_erase.mp hother).2⟩
    · rintro ⟨key, t, hkey, hother⟩
      refine ⟨key, { t with allocationCommitments := t.allocationCommitments.erase pid }, ?_, ?_⟩
      · rw [Pool.lookup_mapVal, hkey]
        rfl
      · exact AList.mem_erase.mpr ⟨h, hother⟩

theorem hasCommitment_commit : (m.commit pid token amount fee).hasCommitment pid = true := by
  rw [hasCommitment_iff]
  refine .inl ?_
  unfold commit
  rw [AList.mem_insert]
  exact .inl rfl

/-- Writing one token so that a proposal keeps or lacks its commitment there. -/
theorem hasCommitment_modifyToken {key : String} {f : TokenState → TokenState}
    (hf : ∀ t, pid ∈ (f t).allocationCommitments ↔ pid ∈ t.allocationCommitments) :
    hasCommitment { m with state := m.state.modifyToken key f } pid = m.hasCommitment pid := by
  rw [Bool.eq_iff_iff, hasCommitment_iff, hasCommitment_iff]
  refine or_congr Iff.rfl ?_
  unfold LiquidityState.modifyToken
  constructor
  · rintro ⟨other, t, hother, hpid⟩
    by_cases heq : other = key
    · subst heq
      rw [AList.lookup_insert] at hother
      obtain rfl := Option.some.inj hother
      rw [hf] at hpid
      unfold LiquidityState.token at hpid
      cases hold : m.state.tokens.lookup other with
      | none =>
        rw [hold] at hpid
        exact absurd hpid (AList.notMem_empty pid)
      | some t =>
        rw [hold] at hpid
        exact ⟨other, t, hold, hpid⟩
    · rw [AList.lookup_insert_ne heq] at hother
      exact ⟨other, t, hother, hpid⟩
  · rintro ⟨other, t, hother, hpid⟩
    by_cases heq : other = key
    · subst heq
      refine ⟨other, f t, ?_, (hf t).mpr hpid⟩
      rw [AList.lookup_insert]
      unfold LiquidityState.token
      rw [hother]
      rfl
    · refine ⟨other, t, ?_, hpid⟩
      rw [AList.lookup_insert_ne heq]
      exact hother

theorem hasCommitment_commit_ne {other : String} (h : other ≠ pid) :
    (m.commit pid token amount fee).hasCommitment other = m.hasCommitment other := by
  let insert : TokenState → TokenState := fun t =>
    { t with allocationCommitments := t.allocationCommitments.insert pid amount }
  have hallocation :
      hasCommitment { m with state := m.state.modifyToken token insert } other
        = m.hasCommitment other := by
    refine hasCommitment_modifyToken fun t => ?_
    rw [AList.mem_insert]
    exact or_iff_right h
  rw [← hallocation, Bool.eq_iff_iff, hasCommitment_iff, hasCommitment_iff]
  refine or_congr ?_ Iff.rfl
  unfold commit
  rw [AList.mem_insert]
  exact or_iff_right h

/-- Reconciling only drops commitments. -/
theorem hasCommitment_of_retainCommitments {liveIds : List String}
    (h : (m.retainCommitments liveIds).hasCommitment pid = true) : m.hasCommitment pid = true := by
  rw [hasCommitment_iff] at h ⊢
  unfold retainCommitments at h
  rcases h with hfee | ⟨key, t, hkey, hpid⟩
  · exact .inl (Pool.mem_retain_keys.mp hfee).1
  · rw [Pool.lookup_mapVal, Option.map_eq_some_iff] at hkey
    obtain ⟨t', ht', rfl⟩ := hkey
    exact .inr ⟨key, t', ht', (Pool.mem_retain_keys.mp hpid).1⟩

theorem hasCommitment_updateTokenBalances (updates : List (String × ℚ)) :
    (m.updateTokenBalances updates).hasCommitment pid = m.hasCommitment pid := by
  induction updates generalizing m with
  | nil => rfl
  | cons u us ih => exact ih.trans (hasCommitment_modifyToken fun t => Iff.rfl)

/-- A check that passes is a commit that succeeds: the two never disagree. -/
theorem tryCommit_eq (h : m.checkCommit token amount fee = .ok ()) :
    m.tryCommit pid token amount fee
      = .ok (m.commit pid (m.state.resolveAlias token) amount fee) := by
  unfold tryCommit
  rw [h]

end LiquidityManager

end BookAgent.AgentLogic
