import Mathlib.Tactic.Linarith
import Mathlib.Tactic.NormNum
import BookAgent.Lib.Run
import BookAgent.AgentLogic.Liquidity

/-!
# Commitments stay within the balances

Balances move at any time, so a commitment made earlier may stop being covered.
What a manager promises is about the moment it accepts one: the allocation token
then covers every allocation of it, and CC covers the allocations in CC, all fees
and the reserve.
-/

namespace BookAgent.AgentLogic

open BookAgent.Lib

inductive LiquidityEvent
  | updateCcBalance (selectableCc : ℚ)
  | updateTokenBalance (instrumentId : String) (unlocked : ℚ)
  | updateTokenBalances (updates : List (String × ℚ))
  | tryCommit (proposalId allocationToken : String) (allocationAmount feeCc : ℚ)
  | release (proposalId : String)
  | retainCommitments (liveIds : List String)

namespace LiquidityManager

/-- A refused commitment changes nothing. -/
def apply (m : LiquidityManager) : LiquidityEvent → LiquidityManager
  | .updateCcBalance selectable => m.updateCcBalance selectable
  | .updateTokenBalance id unlocked => m.updateTokenBalance id unlocked
  | .updateTokenBalances updates => m.updateTokenBalances updates
  | .tryCommit pid token amount fee => (m.tryCommit pid token amount fee).toOption.getD m
  | .release pid => m.release pid
  | .retainCommitments liveIds => m.retainCommitments liveIds

/-- Amounts are not negative. -/
def Allowed (_ : LiquidityManager) : LiquidityEvent → Prop
  | .tryCommit _ _ amount fee => 0 ≤ amount ∧ 0 ≤ fee
  | _ => True

/-- A fresh manager with its aliases. -/
def start (feeReserveCc : ℚ) (aliases : List (String × String)) : LiquidityManager :=
  aliases.foldl (fun m a => m.registerAlias a.1 a.2) (.new feeReserveCc)

/-- The managers that runs from a fresh one reach. -/
abbrev Reached (feeReserveCc : ℚ) (aliases : List (String × String)) : LiquidityManager → Prop :=
  Reachable Allowed apply (start feeReserveCc aliases)

/-- The allocations of a token fit its balance. -/
def AllocationCovered (m : LiquidityManager) (key : String) : Prop :=
  (m.state.token key).committed ≤ (m.state.token key).balance

/-- CC allocations, fees and the reserve together fit the CC balance. -/
def CcCovered (m : LiquidityManager) : Prop :=
  (m.state.token ccToken).committed + m.state.feeTotal + m.feeReserveCc
    ≤ (m.state.token ccToken).balance

theorem apply_tryCommit (m : LiquidityManager) (pid token : String) (amount fee : ℚ) :
    m.apply (.tryCommit pid token amount fee) = m ∨
      m.apply (.tryCommit pid token amount fee)
        = m.commit pid (m.state.resolveAlias token) amount fee := by
  unfold apply
  dsimp only
  cases hcommit : m.tryCommit pid token amount fee with
  | error e => exact .inl rfl
  | ok m' => exact .inr (tryCommit_ok hcommit).2

/-! ## The invariant -/

/-- No commitment is negative. -/
structure NonNegative (m : LiquidityManager) : Prop where
  allocation : ∀ key pid x, (m.state.token key).allocationCommitments.lookup pid = some x → 0 ≤ x
  fee : ∀ pid x, m.state.feeCommitments.lookup pid = some x → 0 ≤ x

/-- Writing one more non-negative amount keeps a map non-negative. -/
theorem nonneg_insert {p : Pool String ℚ} {pid : String} {x : ℚ} (hx : 0 ≤ x)
    (h : ∀ k y, p.lookup k = some y → 0 ≤ y) :
    ∀ k y, (AList.insert pid x p).lookup k = some y → 0 ≤ y := by
  intro k y hy
  by_cases hk : k = pid
  · subst hk
    rw [AList.lookup_insert] at hy
    exact Option.some.inj hy ▸ hx
  · rw [AList.lookup_insert_ne hk] at hy
    exact h k y hy

theorem nonneg_erase {p : Pool String ℚ} {pid : String} (h : ∀ k y, p.lookup k = some y → 0 ≤ y) :
    ∀ k y, (AList.erase pid p).lookup k = some y → 0 ≤ y := by
  intro k y hy
  by_cases hk : k = pid
  · subst hk
    rw [AList.lookup_erase] at hy
    cases hy
  · rw [AList.lookup_erase_ne hk] at hy
    exact h k y hy

namespace NonNegative

variable {m : LiquidityManager}

/-- An update of one token that keeps its commitments non-negative. -/
theorem modifyToken (h : m.NonNegative) (key : String) (f : TokenState → TokenState)
    (hf : ∀ pid x, (f (m.state.token key)).allocationCommitments.lookup pid = some x → 0 ≤ x) :
    NonNegative { m with state := m.state.modifyToken key f } := by
  refine ⟨?_, h.fee⟩
  intro other pid x hx
  by_cases hother : other = key
  · subst hother
    rw [LiquidityState.token_modifyToken] at hx
    exact hf pid x hx
  · rw [LiquidityState.token_modifyToken_ne hother] at hx
    exact h.allocation other pid x hx

theorem updateTokenBalance (h : m.NonNegative) (id : String) (unlocked : ℚ) :
    (m.updateTokenBalance id unlocked).NonNegative :=
  h.modifyToken id _ fun pid x hx => h.allocation id pid x hx

theorem updateTokenBalances (h : m.NonNegative) (updates : List (String × ℚ)) :
    (m.updateTokenBalances updates).NonNegative := by
  induction updates generalizing m with
  | nil => exact h
  | cons u us ih => exact ih (h.updateTokenBalance u.1 u.2)

theorem commit (h : m.NonNegative) (pid token : String) {amount fee : ℚ} (hamount : 0 ≤ amount)
    (hfee : 0 ≤ fee) : (m.commit pid token amount fee).NonNegative := by
  constructor
  · exact (h.modifyToken token
      (fun t => { t with allocationCommitments := t.allocationCommitments.insert pid amount })
      (nonneg_insert hamount (h.allocation token))).allocation
  · exact nonneg_insert hfee h.fee

/-- Updating every token's commitments the same way. -/
theorem mapVal (h : m.NonNegative) (f : Pool String ℚ → Pool String ℚ) (hempty : f ∅ = ∅)
    (hf : ∀ p : Pool String ℚ, (∀ k y, p.lookup k = some y → 0 ≤ y) →
      ∀ k y, (f p).lookup k = some y → 0 ≤ y) :
    NonNegative { m with state := { m.state with
      tokens := m.state.tokens.mapVal fun _ t =>
        { t with allocationCommitments := f t.allocationCommitments }
      feeCommitments := f m.state.feeCommitments } } := by
  refine ⟨?_, hf _ h.fee⟩
  intro key pid x hx
  have found : LiquidityState.token { m.state with
      tokens := m.state.tokens.mapVal fun _ t =>
        { t with allocationCommitments := f t.allocationCommitments } } key
      = { m.state.token key with
          allocationCommitments := f (m.state.token key).allocationCommitments } :=
    LiquidityState.token_mapVal (f := fun t =>
      { t with allocationCommitments := f t.allocationCommitments })
      (congrArg (TokenState.mk 0) hempty)
  have hx' : (f (m.state.token key).allocationCommitments).lookup pid = some x :=
    (congrArg (fun t => t.allocationCommitments.lookup pid) found).symm.trans hx
  exact hf _ (h.allocation key) pid x hx'

theorem release (h : m.NonNegative) (pid : String) : (m.release pid).NonNegative :=
  h.mapVal (fun p => p.erase pid) rfl fun _ => nonneg_erase

theorem retainCommitments (h : m.NonNegative) (liveIds : List String) :
    (m.retainCommitments liveIds).NonNegative :=
  h.mapVal (fun p => p.retain fun pid _ => keepsCommitment liveIds pid) rfl
    fun _ hp k y hy => hp k y (Pool.lookup_retain_eq_some.mp hy).1

/-- Every event keeps the commitments non-negative. -/
theorem apply (h : m.NonNegative) (e : LiquidityEvent) (hallowed : m.Allowed e) :
    (m.apply e).NonNegative := by
  cases e with
  | updateCcBalance selectable => exact h.updateTokenBalance _ selectable
  | updateTokenBalance id unlocked => exact h.updateTokenBalance id unlocked
  | updateTokenBalances updates => exact h.updateTokenBalances updates
  | tryCommit pid token amount fee =>
    obtain ⟨hamount, hfee⟩ := hallowed
    rcases apply_tryCommit m pid token amount fee with heq | heq
    · rw [heq]
      exact h
    · rw [heq]
      exact h.commit pid _ hamount hfee
  | release pid => exact h.release pid
  | retainCommitments liveIds => exact h.retainCommitments liveIds

end NonNegative

theorem nonNegative_start (feeReserveCc : ℚ) (aliases : List (String × String)) :
    (start feeReserveCc aliases).NonNegative := by
  have keeps : ∀ (aliases : List (String × String)) (m : LiquidityManager), m.NonNegative →
      (aliases.foldl (fun m a => m.registerAlias a.1 a.2) m).NonNegative := by
    intro aliases
    induction aliases with
    | nil => exact fun _ h => h
    | cons a as ih => exact fun m h => ih _ ⟨h.allocation, h.fee⟩
  refine keeps aliases _ ⟨?_, ?_⟩
  · intro key pid x hx
    cases hx
  · intro pid x hx
    cases hx

theorem feeReserveCc_apply (m : LiquidityManager) (e : LiquidityEvent) :
    (m.apply e).feeReserveCc = m.feeReserveCc := by
  cases e with
  | updateTokenBalances updates =>
    unfold apply updateTokenBalances
    induction updates generalizing m with
    | nil => rfl
    | cons u us ih => exact ih _
  | tryCommit pid token amount fee =>
    rcases apply_tryCommit m pid token amount fee with heq | heq
    · rw [heq]
    · rw [heq]
      rfl
  | _ => rfl

theorem feeReserveCc_start (feeReserveCc : ℚ) (aliases : List (String × String)) :
    (start feeReserveCc aliases).feeReserveCc = feeReserveCc := by
  have keeps : ∀ (aliases : List (String × String)) (m : LiquidityManager),
      (aliases.foldl (fun m a => m.registerAlias a.1 a.2) m).feeReserveCc = m.feeReserveCc := by
    intro aliases
    induction aliases with
    | nil => exact fun _ => rfl
    | cons a as ih => exact fun m => ih _
  exact keeps aliases _

/-- The invariant of a run: non-negative commitments, and the reserve it began with. -/
theorem reached_invariant {feeReserveCc : ℚ} {aliases : List (String × String)}
    {m : LiquidityManager} (run : Reached feeReserveCc aliases m) :
    m.NonNegative ∧ m.feeReserveCc = feeReserveCc := by
  refine run.invariant (fun m => m.NonNegative ∧ m.feeReserveCc = feeReserveCc) ?_ ?_
  · exact ⟨nonNegative_start _ _, feeReserveCc_start _ _⟩
  · intro m e ⟨hnonneg, hreserve⟩ hallowed
    exact ⟨hnonneg.apply e hallowed, (feeReserveCc_apply m e).trans hreserve⟩

/-! ## What an accepted commitment is covered by -/

/-- A positive amount fits only in an availability that was not clamped. -/
theorem available_eq_of_pos {t : TokenState} (h : 0 < t.available) :
    t.available = t.balance - t.committed :=
  (max_choice _ _).resolve_right fun hz => h.ne' hz

/-- Committing over an older commitment of the same proposal only frees it. -/
theorem committed_insert_le {t : TokenState} {pid : String} {amount : ℚ}
    (h : ∀ k y, t.allocationCommitments.lookup k = some y → 0 ≤ y) :
    TokenState.committed { t with allocationCommitments := t.allocationCommitments.insert pid amount }
      ≤ amount + t.committed := by
  unfold TokenState.committed
  rw [Pool.sum_values_eq_total, Pool.sum_values_eq_total]
  exact Pool.total_insert_le h

theorem feeTotal_commit_le {m : LiquidityManager} (pid token : String) (amount fee : ℚ)
    (h : m.NonNegative) : (m.commit pid token amount fee).state.feeTotal ≤ fee + m.state.feeTotal := by
  unfold LiquidityState.feeTotal
  rw [Pool.sum_values_eq_total, Pool.sum_values_eq_total]
  exact Pool.total_insert_le h.fee

theorem feeTotal_nonneg {m : LiquidityManager} (h : m.NonNegative) : 0 ≤ m.state.feeTotal := by
  unfold LiquidityState.feeTotal
  rw [Pool.sum_values_eq_total]
  exact Pool.total_nonneg h.fee

variable {m m' : LiquidityManager} {pid token : String} {amount fee : ℚ}

theorem token_commit (key : String) :
    (m.commit pid token amount fee).state.token key =
      (m.state.modifyToken token fun t =>
        { t with allocationCommitments := t.allocationCommitments.insert pid amount }).token key :=
  rfl

theorem balance_commit (key : String) :
    ((m.commit pid token amount fee).state.token key).balance = (m.state.token key).balance := by
  rw [token_commit]
  by_cases hkey : key = token
  · rw [hkey, LiquidityState.token_modifyToken]
  · rw [LiquidityState.token_modifyToken_ne hkey]

theorem committed_commit_le (pid token : String) (amount fee : ℚ) (h : m.NonNegative) :
    ((m.commit pid token amount fee).state.token token).committed
      ≤ amount + (m.state.token token).committed := by
  rw [token_commit, LiquidityState.token_modifyToken]
  exact committed_insert_le (h.allocation token)

theorem committed_commit_ne {key : String} (hkey : key ≠ token) :
    ((m.commit pid token amount fee).state.token key).committed
      = (m.state.token key).committed := by
  rw [token_commit, LiquidityState.token_modifyToken_ne hkey]

/-- The token's allocations fit its balance once a positive amount is accepted. -/
theorem allocationCovered_of_tryCommit (h : m.NonNegative) (hamount : 0 < amount)
    (hok : m.tryCommit pid token amount fee = .ok m') :
    m'.AllocationCovered (m.state.resolveAlias token) := by
  obtain ⟨hcheck, rfl⟩ := tryCommit_ok hok
  obtain ⟨hfits, -⟩ := checkCommit_ok hcheck
  have unclamped := available_eq_of_pos (hamount.trans_le hfits)
  unfold AllocationCovered
  rw [balance_commit]
  have grown := committed_commit_le pid (m.state.resolveAlias token) amount fee h
  rw [unclamped] at hfits
  linarith

/-- CC covers everything after a commitment in CC. -/
theorem ccCovered_of_tryCommit_cc (h : m.NonNegative) (hamount : 0 < amount)
    (hcc : m.state.resolveAlias token = ccToken)
    (hok : m.tryCommit pid token amount fee = .ok m') : m'.CcCovered := by
  obtain ⟨hcheck, rfl⟩ := tryCommit_ok hok
  obtain ⟨hfits, hfees⟩ := checkCommit_ok hcheck
  rw [hcc] at hfits
  rw [if_pos hcc, available_eq_of_pos (hamount.trans_le hfits)] at hfees
  unfold CcCovered
  rw [hcc, balance_commit]
  have grown := committed_commit_le pid ccToken amount fee h
  have fees := feeTotal_commit_le pid ccToken amount fee h
  have reserve : (m.commit pid ccToken amount fee).feeReserveCc = m.feeReserveCc := rfl
  linarith

/-- CC covers everything after a commitment in another token, when what is set
aside for fees is positive: only then is the availability known not to be clamped. -/
theorem ccCovered_of_tryCommit_ne (h : m.NonNegative)
    (hcc : m.state.resolveAlias token ≠ ccToken)
    (haside : 0 < fee + m.state.feeTotal + m.feeReserveCc)
    (hok : m.tryCommit pid token amount fee = .ok m') : m'.CcCovered := by
  obtain ⟨hcheck, rfl⟩ := tryCommit_ok hok
  obtain ⟨-, hfees⟩ := checkCommit_ok hcheck
  rw [if_neg hcc, sub_zero] at hfees
  have unclamped : (m.state.token ccToken).available
      = (m.state.token ccToken).balance - (m.state.token ccToken).committed :=
    available_eq_of_pos (by linarith)
  unfold CcCovered
  rw [balance_commit, committed_commit_ne (Ne.symm hcc)]
  have fees := feeTotal_commit_le pid (m.state.resolveAlias token) amount fee h
  have reserve : (m.commit pid (m.state.resolveAlias token) amount fee).feeReserveCc
      = m.feeReserveCc := rfl
  linarith

/-! ## No over-commitment -/

/-- In every run, an accepted commitment of a positive amount leaves the token's
allocations within its balance and, where a fee or a reserve is at stake, all of
CC's obligations within the CC balance. A negative reserve is excluded for tokens
other than CC. -/
theorem no_over_commitment {feeReserveCc : ℚ} {aliases : List (String × String)}
    (run : Reached feeReserveCc aliases m) (hamount : 0 < amount) (hfee : 0 ≤ fee)
    (hok : m.tryCommit pid token amount fee = .ok m') :
    m'.AllocationCovered (m.state.resolveAlias token) ∧
      (0 < fee ∨ 0 < feeReserveCc →
        0 ≤ feeReserveCc ∨ m.state.resolveAlias token = ccToken → m'.CcCovered) := by
  obtain ⟨hnonneg, hreserve⟩ := reached_invariant run
  refine ⟨allocationCovered_of_tryCommit hnonneg hamount hok, ?_⟩
  intro haside hcovered
  by_cases hcc : m.state.resolveAlias token = ccToken
  · exact ccCovered_of_tryCommit_cc hnonneg hamount hcc hok
  · have hzero : 0 ≤ feeReserveCc := hcovered.resolve_right hcc
    apply ccCovered_of_tryCommit_ne hnonneg hcc ?_ hok
    have fees := feeTotal_nonneg hnonneg
    rw [hreserve]
    rcases haside with hpos | hpos <;> linarith

/-- A manager with a reserve of 5 and 100 CC. -/
def funded : LiquidityManager := (start 5 []).apply (.updateCcBalance 100)

theorem no_over_commitment_funded :
    ∃ m', funded.tryCommit "p1" "CC" 20 1 = .ok m' ∧
      m'.AllocationCovered (funded.state.resolveAlias "CC") ∧ m'.CcCovered := by
  have run : Reached 5 [] funded := .step .start trivial
  have hok : funded.tryCommit "p1" "CC" 20 1
      = .ok (funded.commit "p1" (funded.state.resolveAlias "CC") 20 1) :=
    tryCommit_eq (by decide +kernel)
  obtain ⟨hcovered, hcc⟩ := no_over_commitment run (by norm_num) (by norm_num) hok
  exact ⟨_, hok, hcovered, hcc (.inl (by norm_num)) (.inl (by norm_num))⟩

/-- The CC allocation of `p1` is no longer covered once the balance has dropped; the
clamped availability then lets a negative reserve admit the fee of `p2`. -/
def dropped : LiquidityManager :=
  [.updateCcBalance 100, .updateTokenBalance "USDC" 1, .tryCommit "p1" "CC" 20 0,
    .updateCcBalance 10].foldl apply (start (-10) [])

theorem negative_reserve_over_commits :
    Reached (-10) [] dropped ∧
      ∃ m', dropped.tryCommit "p2" "USDC" 1 5 = .ok m' ∧ ¬ m'.CcCovered := by
  constructor
  · have cc : Reached (-10) [] ((start (-10) []).apply (.updateCcBalance 100)) := .step .start trivial
    have usdc := cc.step (e := LiquidityEvent.updateTokenBalance "USDC" 1) trivial
    have allocated := usdc.step (e := LiquidityEvent.tryCommit "p1" "CC" 20 0) ⟨by norm_num, le_refl _⟩
    exact allocated.step (e := LiquidityEvent.updateCcBalance 10) trivial
  · refine ⟨dropped.commit "p2" (dropped.state.resolveAlias "USDC") 1 5, ?_, ?_⟩
    · exact tryCommit_eq (by decide +kernel)
    · unfold CcCovered
      decide +kernel

end LiquidityManager

end BookAgent.AgentLogic
