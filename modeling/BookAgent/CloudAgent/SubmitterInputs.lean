import BookAgent.CloudAgent.ExclusiveReservations
import BookAgent.CloudAgent.Submitters

/-!
# The inputs of a submitter

While other tasks use the cache, the inputs stay under the submitter's reservation until it
expires or the ledger spends them. When the submitter ends, they follow what it takes the
fate of the transaction to be.
-/

namespace BookAgent.CloudAgent

open BookAgent.Lib

variable {D : Type} {c : HoldingsCache D} {cids : List String} {now : Instant}

/-! ## The cache among other tasks -/

/-- The cache, the ids that others marked consumed, and the time. -/
structure SharedRun (D : Type) where
  cache : SplitCache D
  marked : List String
  clock : Instant

namespace SharedRun

/-- Another task's operation, and the time after it. -/
def apply (w : SharedRun D) (e : CacheEvent D × Instant) : SharedRun D where
  cache := { w.cache with holdings := w.cache.holdings.apply e.1 }
  marked := e.1.marks ++ w.marked
  clock := e.2

/-- Time does not go back, and nobody else ends or replaces the submitter's reservation. -/
def Allows (own : ReservedEntry) (cids : List String) (w : SharedRun D)
    (e : CacheEvent D × Instant) : Prop :=
  w.clock ≤ e.2 ∧
    match e.1 with
    | .reserve _ _ now | .cleanup now => now ≤ e.2
    | .release ids | .restore ids _ _ _ => ∀ cid ∈ cids, cid ∈ ids →
        w.cache.holdings.reserved.lookup cid ≠ some own
    | _ => True

/-- Each input is spent, or still reserved by the submitter until its reservation expires. -/
def Holds (own : ReservedEntry) (cids : List String) (w : SharedRun D) : Prop :=
  ∀ cid ∈ cids, cid ∈ w.marked ∨ own.isExpired w.clock = true ∨
    w.cache.holdings.reserved.lookup cid = some own

theorem lookup_setReserved_of_notMem {entry : ReservedEntry} {cid : String} (h : cid ∉ cids) :
    (c.setReserved cids entry).reserved.lookup cid = c.reserved.lookup cid := by
  refine Pool.lookup_insertAll_of_notMem ?_
  rwa [List.map_map, Function.comp_def, List.map_id']

theorem lookup_setReserved_of_mem {entry : ReservedEntry} {cid : String} (h : cid ∈ cids) :
    (c.setReserved cids entry).reserved.lookup cid = some entry :=
  Pool.lookup_insertAll_const h

/-- A live entry of the submitter outlasts what others may do. -/
theorem lookup_apply {own : ReservedEntry} {w : SharedRun D} {e : CacheEvent D × Instant}
    (hallows : Allows own cids w e) {cid : String} (hcid : cid ∈ cids)
    (hlive : own.isExpired e.2 = false) (hmarks : cid ∉ e.1.marks)
    (hown : w.cache.holdings.reserved.lookup cid = some own) :
    (w.cache.holdings.apply e.1).reserved.lookup cid = some own := by
  obtain ⟨e, later⟩ := e
  obtain ⟨-, hrule⟩ := hallows
  cases e with
  | addCreated holdings => exact hown
  | markConsumed ids reason now => exact (Pool.lookup_eraseAll_of_notMem hmarks).trans hown
  | reserve ids kind now =>
    rcases w.cache.holdings.reserveWithKind_eq ids kind now with heq | heq
    · simpa [HoldingsCache.apply, heq] using hown
    · have hmem : cid ∉ ids := by
        intro hmem
        have hall := HoldingsCache.reserveWithKind_fst.mp (congrArg Prod.fst heq) cid hmem
        rw [Workers.canReserve_eq_false hrule hlive (.inr hown)] at hall
        cases hall
      simpa [HoldingsCache.apply, heq, lookup_setReserved_of_notMem hmem] using hown
  | release ids =>
    have hmem : cid ∉ ids := fun hmem => hrule cid hcid hmem hown
    exact (Pool.lookup_eraseAll_of_notMem hmem).trans hown
  | restore ids quoteId expiresAt now =>
    have hmem : cid ∉ ids := fun hmem => hrule cid hcid hmem hown
    exact (lookup_setReserved_of_notMem hmem).trans hown
  | cleanup now =>
    refine Pool.lookup_retain_eq_some.mpr ⟨hown, ?_⟩
    rw [Workers.live_at hrule hlive, Bool.not_false]
  | refresh holdings snapshotStart => exact hown

theorem Holds.apply {own : ReservedEntry} {w : SharedRun D} {e : CacheEvent D × Instant}
    (h : w.Holds own cids) (hallows : Allows own cids w e) : (w.apply e).Holds own cids := by
  intro cid hcid
  by_cases hmarks : cid ∈ e.1.marks
  · exact .inl (List.mem_append_left _ hmarks)
  · rcases h cid hcid with hmarked | hexpired | hown
    · exact .inl (List.mem_append_right _ hmarked)
    · exact .inr (.inl (ReservedEntry.isExpired_mono hallows.1 hexpired))
    · cases hlive : own.isExpired e.2 with
      | true => exact .inr (.inl hlive)
      | false => exact .inr (.inr (lookup_apply hallows hcid hlive hmarks hown))

end SharedRun

/-! ## What each end leaves -/

variable (before : HoldingsCache D)

theorem inputsFollow_release : InputsFollow c (c.releaseReservations cids) cids .notCommitted :=
  fun _ hcid => ⟨Iff.rfl, AList.lookup_eq_none.mp (Pool.lookup_eraseAll_of_mem hcid)⟩

theorem inputsFollow_markConsumed (reason : String) :
    InputsFollow before (c.markConsumed cids reason now) cids .committed :=
  fun _ hcid => ⟨HoldingsCache.mem_consumed_markConsumed.mpr (.inl hcid),
    AList.lookup_eq_none.mp (Pool.lookup_eraseAll_of_mem hcid)⟩

theorem inputsFollow_kept : InputsFollow c c cids .unknown := fun _ _ => ⟨Iff.rfl, rfl⟩

theorem inputsFollow_handleInactiveContracts :
    InputsFollow before (handleInactiveContracts c cids now) cids .committed := by
  intro cid hcid
  unfold handleInactiveContracts
  rw [if_neg (by simpa using List.ne_nil_of_mem hcid)]
  exact inputsFollow_markConsumed before "inactive" cid hcid

theorem inputsFollow_processTxResult [Decimal D] (response : ExecuteTransactionResponse)
    (created : List (CreatedContract D)) :
    InputsFollow before (processTxResult c cids response created now) cids .committed := by
  intro cid hcid
  have hmarked : cid ∈ (c.markConsumed cids response.updateId now).consumed ∧
      cid ∉ (c.markConsumed cids response.updateId now).reserved :=
    inputsFollow_markConsumed before response.updateId cid hcid
  unfold processTxResult
  simp only [if_neg (show ¬ cids.isEmpty = true by simpa using List.ne_nil_of_mem hcid)]
  split
  · exact hmarked
  · exact hmarked

/-- A committed execute is recorded, and its reservations released once more. -/
theorem inputsFollow_recordExecute [Decimal D] {response : ExecuteTransactionResponse}
    (hsuccess : response.success = true) (created : List (CreatedContract D)) :
    InputsFollow before (recordExecute c cids (.ok (response, created)) now) cids .committed := by
  intro cid hcid
  unfold recordExecute
  dsimp only
  rw [if_pos hsuccess]
  exact ⟨(inputsFollow_processTxResult before response created cid hcid).1,
    AList.lookup_eq_none.mp (Pool.lookup_eraseAll_of_mem hcid)⟩

/-! ## Submits that end well -/

theorem success_of_found {a : ScanAnswers} {commandId : String} {startOffset : Int}
    {response : ExecuteTransactionResponse}
    (h : findTransactionInUpdates a commandId startOffset = .found response) :
    response.success = true := by
  unfold findTransactionInUpdates at h
  split at h
  · cases h
  · split at h
    · cases h
    · split at h
      · unfold scanUpdates at h
        split at h
        · cases h
          rfl
        · split at h <;> cases h
      · cases h

theorem success_of_recovered {error commandId : String} {startOffset : Int} {a : ScanAnswers}
    {response : ExecuteTransactionResponse}
    (h : recoverAfterExecuteError error commandId startOffset a = .recovered response) :
    response.success = true := by
  unfold recoverAfterExecuteError at h
  split at h
  · cases h
  · split at h
    · next found hfound =>
      cases h
      exact success_of_found hfound
    · cases h
    · cases h

section Submit

variable [TxVerifier.VerifierCrates] {call : SubmitCall} {w : SubmitWorld} {attempt : Nat}
  {uncertain after : Option String} {response : ExecuteTransactionResponse}

omit [TxVerifier.VerifierCrates] in
theorem retryOr_ne_ok {error : String} :
    retryOr call w attempt error uncertain ≠ .stop after (.ok response) := by
  unfold retryOr
  split <;> exact fun h => by cases h

omit [TxVerifier.VerifierCrates] in
theorem success_of_executeFailed {error commandId : String}
    (h : executeFailed call w attempt error commandId uncertain = .stop after (.ok response)) :
    response.success = true := by
  unfold executeFailed at h
  dsimp only at h
  split at h
  · cases h
  · split at h
    · split at h
      · next found hfound =>
        cases h
        split at hfound
        · exact success_of_found hfound
        · cases hfound
      · cases h
    · split at h
      · split at h
        · cases h
        · split at h <;> cases h
      · split at h
        · cases h
        · split at h
          · exact absurd h retryOr_ne_ok
          · split at h
            · next found hrecovered =>
              cases h
              exact success_of_recovered hrecovered
            · cases h
            · exact absurd h retryOr_ne_ok

omit [TxVerifier.VerifierCrates] in
theorem success_of_afterExecute {commandId : String}
    (h : afterExecute call w attempt commandId uncertain = .stop after (.ok response)) :
    response.success = true := by
  unfold afterExecute at h
  split at h
  · unfold executeLost at h
    split at h
    · next found hrecovered =>
      cases h
      exact success_of_recovered hrecovered
    · cases h
    · exact absurd h retryOr_ne_ok
  · split at h
    · next hsuccess =>
      cases h
      exact hsuccess
    · exact success_of_executeFailed h

/-- A submit that is no dry run only ends well with a transaction that succeeded. -/
theorem success_of_submitTransaction (hdry : call.dryRun = false)
    (h : (submitTransaction call w).2 = .ok response) : response.success = true := by
  have hresult : (submitAttempts call w).2.2 = .ok response := by
    unfold submitTransaction at h
    cases hrun : (submitAttempts call w).2.2 with
    | error e => simp [hrun, Except.mapError] at h
    | ok r => simpa [hrun, Except.mapError] using h
  unfold submitAttempts at hresult
  refine attempts_rule (I := fun _ (_ : List Signed) _ => True)
    (Q := fun (_ : List Signed) _ (r : Except String ExecuteTransactionResponse) =>
      ∀ response, r = .ok response → response.success = true)
    (fun _ _ _ _ _ _ _ => True.intro) ?_ (fun _ _ _ _ _ hr => by cases hr) _ 0 [] none
    True.intro response hresult
  rintro n sent u t u' r - hstep response rfl
  unfold submitAttempt at hstep
  dsimp only at hstep
  split at hstep
  · cases hstep
  · split at hstep
    · next result hsign =>
      cases hstep
      unfold signPrepared at hsign
      split at hsign
      · cases hsign
      · rw [hdry, if_neg Bool.noConfusion] at hsign
        split at hsign
        · cases hsign
        · split at hsign <;> cases hsign
    · exact success_of_afterExecute (Prod.mk.inj hstep).2

end Submit

/-! ## Runs -/

variable [Decimal D] {own : ReservedEntry} {w : SharedRun D}

theorem Submitter.inputsFollow_error (s : Submitter D) (c : SplitCache D) {e : SubmitError}
    {taken : TxFate} (hfate : s.fate (.submitted (.error e)) = some taken) :
    InputsFollow c.holdings (s.ended c cids (.submitted (.error e)) now).holdings cids taken := by
  cases s with
  | allocate =>
    simp only [fate, ended, executeAllocate] at hfate ⊢
    split at hfate
    · cases hfate
    · obtain rfl := Option.some.inj hfate
      split
      · exact inputsFollow_handleInactiveContracts c.holdings
      · exact inputsFollow_release
  | merge key total =>
    simp only [fate, ended, checkAndMergeInstrument] at hfate ⊢
    split at hfate
    · cases hfate
    · obtain rfl := Option.some.inj hfate
      split
      · exact inputsFollow_markConsumed c.holdings "inactive"
      · exact inputsFollow_release
  | split key splits =>
    simp only [fate] at hfate
    split at hfate
    · cases hfate
    · obtain rfl := Option.some.inj hfate
      exact inputsFollow_release
  | settle =>
    obtain rfl := Option.some.inj hfate
    simp only [ended, executeWatched, recordExecute]
    split
    · exact inputsFollow_kept
    · exact inputsFollow_release

/-- The end of a submitter does to its inputs what it takes the fate to be. -/
theorem Submitter.inputsFollow (s : Submitter D) (c : SplitCache D) {e : SubmitterEnd D}
    {taken : TxFate} (hsuccess : ∀ r created, e = .submitted (.ok r created) → r.success = true)
    (hfate : s.fate e = some taken) :
    InputsFollow c.holdings (s.ended c cids e now).holdings cids taken := by
  cases e with
  | early =>
    obtain rfl := Option.some.inj hfate
    cases s <;> exact inputsFollow_release
  | submitted e =>
    cases e with
    | ok response created =>
      obtain rfl := Option.some.inj hfate
      cases s with
      | allocate => exact inputsFollow_processTxResult c.holdings response created
      | merge key total => exact inputsFollow_markConsumed c.holdings response.updateId
      | split key splits => exact inputsFollow_markConsumed c.holdings response.updateId
      | settle => exact inputsFollow_recordExecute c.holdings (hsuccess _ _ rfl) created
    | panic =>
      cases s <;> obtain rfl := Option.some.inj hfate
      · exact inputsFollow_release
      · exact inputsFollow_release
      · exact inputsFollow_kept
      · exact inputsFollow_kept
    | error e => exact s.inputsFollow_error c hfate

/-- While the submitter runs its inputs are reserved or spent, and when it has ended they follow
what it takes the fate of the transaction to be. -/
theorem Submitter.leaves_inputs (s : Submitter D) {c : SplitCache D} {holdings : HoldingsCache D}
    {kind : ReservationKind} {reservedAt : Instant}
    (hreserve : c.holdings.reserveWithKind cids kind reservedAt = (true, holdings))
    (run : Reachable (SharedRun.Allows ⟨kind, reservedAt⟩ cids) SharedRun.apply
      ⟨{ c with holdings }, [], reservedAt⟩ w)
    {e : SubmitterEnd D} {taken : TxFate}
    (hsuccess : ∀ r created, e = .submitted (.ok r created) → r.success = true)
    (hfate : s.fate e = some taken) :
    w.Holds ⟨kind, reservedAt⟩ cids ∧
      InputsFollow w.cache.holdings (s.ended w.cache cids e now).holdings cids taken := by
  refine ⟨?_, s.inputsFollow w.cache hsuccess hfate⟩
  refine run.invariant (SharedRun.Holds ⟨kind, reservedAt⟩ cids) ?_ fun w e hholds hallows =>
    hholds.apply hallows
  rcases c.holdings.reserveWithKind_eq cids kind reservedAt with heq | heq
  · cases heq.symm.trans hreserve
  · obtain rfl := (Prod.mk.inj (heq.symm.trans hreserve)).2
    exact fun cid hcid => .inr (.inr (SharedRun.lookup_setReserved_of_mem hcid))

/-! ### Concrete runs -/

/-- An empty cache, in which one amulet is reserved for a payment. -/
def oneReserved : SplitCache ScaledInt :=
  ⟨(HoldingsCache.new false).setReserved ["a"] ⟨.v1Payment "p", 0⟩, [], ∅⟩

theorem reserve_one : (HoldingsCache.new false : HoldingsCache ScaledInt).reserveWithKind ["a"]
    (.v1Payment "p") 0 = (true, oneReserved.holdings) := by
  rcases HoldingsCache.reserveWithKind_eq (HoldingsCache.new false : HoldingsCache ScaledInt) ["a"]
    (.v1Payment "p") 0 with heq | heq
  · have hgranted : ((HoldingsCache.new false : HoldingsCache ScaledInt).reserveWithKind ["a"]
        (.v1Payment "p") 0).1 = true := by decide +kernel
    rw [heq] at hgranted
    cases hgranted
  · exact heq

def unknownExecute : SubmitterEnd ScaledInt :=
  .submitted (.error ⟨"EXECUTE_OUTCOME_UNKNOWN: ledger scan incomplete", ["timeout"]⟩)

/-- A settle of unknown outcome keeps its amulet, also through a clean-up. -/
theorem settle_keeps_amulet :
    SharedRun.Holds ⟨.v1Payment "p", 0⟩ ["a"]
        (SharedRun.apply ⟨oneReserved, [], 0⟩ (.cleanup (seconds 1), seconds 1)) ∧
      InputsFollow (oneReserved.holdings.cleanupExpiredReservations (seconds 1))
        (Submitter.settle.ended
          { oneReserved with
            holdings := oneReserved.holdings.cleanupExpiredReservations (seconds 1) } ["a"]
          unknownExecute (seconds 2)).holdings ["a"] .unknown := by
  have run : Reachable (SharedRun.Allows ⟨.v1Payment "p", 0⟩ ["a"]) SharedRun.apply
      ⟨oneReserved, [], 0⟩
      (SharedRun.apply ⟨oneReserved, [], 0⟩ (.cleanup (seconds 1), seconds 1)) :=
    Reachable.start.step ⟨Nat.zero_le _, Nat.le_refl _⟩
  exact Submitter.leaves_inputs (c := ⟨HoldingsCache.new false, [], ∅⟩) .settle reserve_one run
    (fun r created h => by cases h) (by decide +kernel)

def inactiveInput : SubmitterEnd ScaledInt :=
  .submitted (.error ⟨"INACTIVE_CONTRACTS after 3 attempts: contract not found", []⟩)

/-- An allocation that was refused marks its amulet consumed. -/
theorem allocate_consumes_refused : ∃ (s : Submitter ScaledInt) (w : SharedRun ScaledInt)
    (e : SubmitterEnd ScaledInt), Reachable (SharedRun.Allows ⟨.v1Payment "p", 0⟩ ["a"])
      SharedRun.apply ⟨oneReserved, [], 0⟩ w ∧ e.fate = .notCommitted ∧
    "a" ∈ (s.ended w.cache ["a"] e (seconds 2)).holdings.consumed ∧
    ¬ InputsFollow w.cache.holdings (s.ended w.cache ["a"] e (seconds 2)).holdings ["a"] e.fate := by
  have hfate : inactiveInput.fate = .notCommitted := by decide +kernel
  have hconsumed : "a" ∈ (Submitter.allocate.ended oneReserved ["a"] inactiveInput
      (seconds 2)).holdings.consumed := by decide +kernel
  refine ⟨.allocate, _, inactiveInput, .start, hfate, hconsumed, fun hfollow => ?_⟩
  have hleft := hfollow "a" (List.mem_singleton.mpr rfl)
  rw [hfate] at hleft
  exact absurd (hleft.1.mp hconsumed) (by decide +kernel)

end BookAgent.CloudAgent
