import Mathlib.Algebra.BigOperators.Ring.List
import Mathlib.Data.Int.ConditionallyCompleteOrder
import Mathlib.Tactic.Abel
import BookAgent.Lib.PoolTotal
import BookAgent.AgentLogic.NetPosition

/-!
# What net positions add up to

One family of aggregates beside the flows that count in it: those pending, and those
settled since the aggregate was last loaded. Each operation of the tracker moves the
aggregates and the flows together, up to what dropping small aggregates loses.
-/

namespace BookAgent.AgentLogic.NetPosition

open BookAgent.Lib

variable {K κ : Type} [Field K] [LinearOrder K] [DecidableEq κ]

/-- What a flow adds to the aggregate of `key`, at `now`. -/
def contribution (cfg : Config K) (keyOf : PendingNet K → Option κ) (key : κ) (now : Int)
    (p : PendingNet K) : K :=
  if keyOf p = some key then p.remaining cfg now else 0

/-- One for a flow of `key` whose delta satisfies the predicate. -/
def counts (keyOf : PendingNet K → Option κ) (key : κ) (sign : K → Prop) [DecidablePred sign]
    (p : PendingNet K) : Nat :=
  if keyOf p = some key ∧ sign p.delta then 1 else 0

/-- What is lost where the clock moves between a quote's two readings of it. -/
def sampleLoss (cfg : Config K) (keyOf : PendingNet K → Option κ) (key : κ)
    (record : PendingNet K × Int) : K :=
  if keyOf record.1 = some key then
    |record.1.delta| * (1 - cfg.decay.between record.1.atMs record.2)
  else 0

/-- Aggregates with the flows that count in them: the pending ones and the settled ones.
`records` lists every flow recorded so far with the time it was applied. -/
structure Side (κ K : Type) where
  aggregates : Aggregates κ K
  pending : Pool String (PendingNet K)
  settled : List (PendingNet K)
  records : List (PendingNet K × Int)
  operations : Nat

/-- The key of a flow whose reversal leaves the aggregate as it is, though more of its
delta remains than a small value. -/
def lost (cfg : Config K) (keyOf : PendingNet K → Option κ) (mode : ReverseMode)
    (aggregates : Aggregates κ K) (p : PendingNet K) (now : Int) : List κ :=
  match keyOf p with
  | none => []
  | some key =>
    if reverses mode aggregates (some key) = false ∧ epsilonBase < |p.remaining cfg now| then [key]
    else []

namespace Side

variable (cfg : Config K) (keyOf : PendingNet K → Option κ)

/-- The decayed sum of the flows pending and settled. -/
def flow (s : Side κ K) (key : κ) (now : Int) : K :=
  s.pending.total (fun _ p => contribution cfg keyOf key now p)
    + (s.settled.map (contribution cfg keyOf key now)).sum

/-- What the records of a key have lost between their readings of the clock. -/
def drift (s : Side κ K) (key : κ) : K := (s.records.map (sampleLoss cfg keyOf key)).sum

/-- The pending flows of a key whose delta satisfies the predicate. -/
def pendingCount (s : Side κ K) (key : κ) (sign : K → Prop) [DecidablePred sign] : Nat :=
  s.pending.total fun _ p => counts keyOf key sign p

/-- The difference between an aggregate and its flows is what small values dropped from it
amount to, and each dropped value answers an operation of its own. -/
def Bounded (s : Side κ K) (key : κ) (now : Int) : Prop :=
  ∃ ups downs : Nat,
    ups + s.pendingCount keyOf key (· < 0) ≤ s.operations ∧
    downs + s.pendingCount keyOf key (0 < ·) ≤ s.operations ∧
    Tracks epsilonBase (s.drift cfg keyOf key) (Aggregates.read cfg.decay s.aggregates key now)
      (Aggregates.read cfg.decay s.aggregates key now - s.flow cfg keyOf key now) ups downs

/-- The invariant, for all keys but those of `except`. -/
structure Tracked (except : κ → Prop) (s : Side κ K) (clock : Int) : Prop where
  stamped : Aggregates.StampedBy s.aggregates clock
  pendingBy : ∀ q p, s.pending.lookup q = some p → p.atMs ≤ clock
  settledBy : ∀ p ∈ s.settled, p.atMs ≤ clock
  recordedBy : ∀ r ∈ s.records, r.1.atMs ≤ r.2
  /-- An aggregate was written after each pending flow of its key was recorded. -/
  newest : ∀ q p key a, s.pending.lookup q = some p → keyOf p = some key →
    s.aggregates.lookup key = some a → p.atMs ≤ a.time
  bounded : ∀ key, ¬ except key → s.Bounded cfg keyOf key clock

end Side

variable {cfg : Config K} {keyOf : PendingNet K → Option κ} {key : κ} {t u : Int}

theorem remaining_later {p : PendingNet K} (hp : p.atMs ≤ t) (htu : t ≤ u) :
    p.remaining cfg u = p.remaining cfg t * cfg.decay.between t u := by
  unfold PendingNet.remaining
  rw [mul_assoc, cfg.decay.between_mul hp htu]

theorem contribution_later {p : PendingNet K} (hp : p.atMs ≤ t) (htu : t ≤ u) :
    contribution cfg keyOf key u p = contribution cfg keyOf key t p * cfg.decay.between t u := by
  unfold contribution
  split
  · exact remaining_later hp htu
  · exact (zero_mul _).symm

section

variable [IsStrictOrderedRing K]

theorem epsilonBase_nonneg : 0 ≤ (epsilonBase : K) := by
  unfold epsilonBase
  positivity

theorem sampleLoss_nonneg (r : PendingNet K × Int) : 0 ≤ sampleLoss cfg keyOf key r := by
  unfold sampleLoss
  split
  · exact mul_nonneg (abs_nonneg _) (sub_nonneg.mpr (cfg.decay.between_le_one _ _))
  · exact le_rfl

/-- What remains of a delta keeps its sign. -/
theorem pos_of_remaining_pos {p : PendingNet K} (h : 0 < p.remaining cfg t) : 0 < p.delta :=
  pos_of_mul_pos_left h (cfg.decay.between_nonneg _ _)

theorem neg_of_remaining_neg {p : PendingNet K} (h : p.remaining cfg t < 0) : p.delta < 0 :=
  neg_of_mul_neg_left h (cfg.decay.between_nonneg _ _)

/-- What is left of a delta when it is applied. -/
theorem abs_delta_sub_remaining (p : PendingNet K) (applied : Int) :
    |p.delta - p.remaining cfg applied| = |p.delta| * (1 - cfg.decay.between p.atMs applied) := by
  have factored : p.delta - p.remaining cfg applied
      = p.delta * (1 - cfg.decay.between p.atMs applied) := by
    unfold PendingNet.remaining
    ring
  rw [factored, abs_mul, abs_of_nonneg (sub_nonneg.mpr (cfg.decay.between_le_one _ _))]

end

namespace Side

variable {s : Side κ K} {except except' : κ → Prop} {q : String} {p : PendingNet K}

theorem flow_later (hpending : ∀ q p, s.pending.lookup q = some p → p.atMs ≤ t)
    (hsettled : ∀ p ∈ s.settled, p.atMs ≤ t) (htu : t ≤ u) :
    s.flow cfg keyOf key u = s.flow cfg keyOf key t * cfg.decay.between t u := by
  have pending : s.pending.total (fun _ p => contribution cfg keyOf key u p)
      = s.pending.total (fun _ p => contribution cfg keyOf key t p) * cfg.decay.between t u := by
    unfold Pool.total
    rw [← List.sum_map_mul_right]
    congr 1
    refine List.map_congr_left ?_
    rintro ⟨q, p⟩ hmem
    exact contribution_later (hpending q p (AList.mem_lookup_iff.mpr hmem)) htu
  have settled : (s.settled.map (contribution cfg keyOf key u)).sum
      = (s.settled.map (contribution cfg keyOf key t)).sum * cfg.decay.between t u := by
    rw [← List.sum_map_mul_right]
    congr 1
    exact List.map_congr_left fun p hp => contribution_later (hsettled p hp) htu
  unfold flow
  rw [pending, settled, add_mul]

/-- Removing a pending flow takes out what it contributes. -/
theorem flow_erase (cfg : Config K) (keyOf : PendingNet K → Option κ) (key : κ) (t : Int)
    (h : s.pending.lookup q = some p) :
    Pool.total (fun _ p => contribution cfg keyOf key t p) (AList.erase q s.pending)
      = s.pending.total (fun _ p => contribution cfg keyOf key t p) - contribution cfg keyOf key t p := by
  rw [← Pool.total_erase h]
  abel

omit [Field K] [LinearOrder K] in
theorem count_erase (keyOf : PendingNet K → Option κ) (key : κ) (h : s.pending.lookup q = some p)
    (sign : K → Prop) [DecidablePred sign] :
    counts keyOf key sign p + Pool.total (fun _ p => counts keyOf key sign p) (AList.erase q s.pending)
      = s.pendingCount keyOf key sign := by
  unfold pendingCount
  rw [← Pool.total_erase h]

theorem drift_nonneg [IsStrictOrderedRing K] : 0 ≤ s.drift cfg keyOf key := by
  refine List.sum_nonneg ?_
  intro x hx
  obtain ⟨r, -, rfl⟩ := List.mem_map.mp hx
  exact sampleLoss_nonneg r

namespace Bounded

variable {s' : Side κ K}

/-- A step that leaves the key's aggregate, flows and drift as they are. -/
theorem keep (h : s.Bounded cfg keyOf key t)
    (hread : Aggregates.read cfg.decay s'.aggregates key t
      = Aggregates.read cfg.decay s.aggregates key t)
    (hflow : s'.flow cfg keyOf key t = s.flow cfg keyOf key t)
    (hdrift : s'.drift cfg keyOf key = s.drift cfg keyOf key)
    (hneg : s'.pendingCount keyOf key (· < 0) ≤ s.pendingCount keyOf key (· < 0))
    (hpos : s'.pendingCount keyOf key (0 < ·) ≤ s.pendingCount keyOf key (0 < ·))
    (hoperations : s.operations ≤ s'.operations) : s'.Bounded cfg keyOf key t := by
  obtain ⟨ups, downs, hups, hdowns, htracks⟩ := h
  refine ⟨ups, downs, by omega, by omega, ?_⟩
  rw [hread, hflow, hdrift]
  exact htracks

/-- A step that drops the key's aggregate because it is small. -/
theorem drop [IsStrictOrderedRing K] (h : s.Bounded cfg keyOf key t)
    (hread : Aggregates.read cfg.decay s'.aggregates key t = 0)
    (hsmall : |Aggregates.read cfg.decay s.aggregates key t| ≤ epsilonBase)
    (hpending : s'.pending = s.pending) (hsettled : s'.settled = s.settled)
    (hrecords : s'.records = s.records) (hoperations : s.operations ≤ s'.operations) :
    s'.Bounded cfg keyOf key t := by
  obtain ⟨ups, downs, hups, hdowns, htracks⟩ := h
  have hflow : s'.flow cfg keyOf key t = s.flow cfg keyOf key t := by
    unfold flow
    rw [hpending, hsettled]
  have hdrift : s'.drift cfg keyOf key = s.drift cfg keyOf key := by
    unfold drift
    rw [hrecords]
  refine ⟨ups, downs, ?_, ?_, ?_⟩
  · unfold pendingCount at hups ⊢
    rw [hpending]
    exact hups.trans hoperations
  · unfold pendingCount at hdowns ⊢
    rw [hpending]
    exact hdowns.trans hoperations
  · have dropped := htracks.drop hsmall
    rw [hread, hflow, hdrift]
    rwa [sub_right_comm, sub_self] at dropped

/-- A step that adds `delta` to the key's aggregate and `amount` to its flows. -/
theorem write [IsStrictOrderedRing K] (h : s.Bounded cfg keyOf key t) (delta amount loss : K)
    (hread : Aggregates.read cfg.decay s'.aggregates key t
      = if |Aggregates.read cfg.decay s.aggregates key t + delta| ≤ epsilonBase then 0
        else Aggregates.read cfg.decay s.aggregates key t + delta)
    (hflow : s'.flow cfg keyOf key t = s.flow cfg keyOf key t + amount)
    (hdrift : s'.drift cfg keyOf key = s.drift cfg keyOf key + loss)
    (hloss : |delta - amount| ≤ loss)
    (hneg : (if 0 < delta then 1 else 0) + s'.pendingCount keyOf key (· < 0) + s.operations
      ≤ s.pendingCount keyOf key (· < 0) + s'.operations)
    (hpos : (if delta < 0 then 1 else 0) + s'.pendingCount keyOf key (0 < ·) + s.operations
      ≤ s.pendingCount keyOf key (0 < ·) + s'.operations) : s'.Bounded cfg keyOf key t := by
  obtain ⟨ups, downs, hups, hdowns, htracks⟩ := h
  have written := htracks.write epsilonBase_nonneg hloss hread
  rw [← hflow, ← hdrift] at written
  refine ⟨_, _, ?_, ?_, written⟩
  · by_cases hdelta : 0 < delta
    · rw [if_pos hdelta] at hneg ⊢
      omega
    · rw [if_neg hdelta] at hneg ⊢
      omega
  · by_cases hdelta : delta < 0
    · rw [if_pos hdelta] at hpos ⊢
      omega
    · rw [if_neg hdelta] at hpos ⊢
      omega

end Bounded

namespace Tracked

/-! ## Time passes -/

theorem advance [IsStrictOrderedRing K] (h : s.Tracked cfg keyOf except t) (htu : t ≤ u) :
    s.Tracked cfg keyOf except u where
  stamped key a ha := (h.stamped key a ha).trans htu
  pendingBy q p hp := (h.pendingBy q p hp).trans htu
  settledBy p hp := (h.settledBy p hp).trans htu
  recordedBy := h.recordedBy
  newest := h.newest
  bounded key hkey := by
    obtain ⟨ups, downs, hups, hdowns, htracks⟩ := h.bounded key hkey
    refine ⟨ups, downs, hups, hdowns, ?_⟩
    rw [Aggregates.read_later h.stamped htu, flow_later h.pendingBy h.settledBy htu, ← sub_mul]
    exact htracks.decay epsilonBase_nonneg drift_nonneg (cfg.decay.between_nonneg _ _)
      (cfg.decay.between_le_one _ _)

/-- One more operation. -/
theorem operation (h : s.Tracked cfg keyOf except t) :
    Tracked cfg keyOf except { s with operations := s.operations + 1 } t where
  stamped := h.stamped
  pendingBy := h.pendingBy
  settledBy := h.settledBy
  recordedBy := h.recordedBy
  newest := h.newest
  bounded key hkey := by
    obtain ⟨ups, downs, hups, hdowns, htracks⟩ := h.bounded key hkey
    exact ⟨ups, downs, hups.trans (Nat.le_succ _), hdowns.trans (Nat.le_succ _), htracks⟩

theorem weaken (h : s.Tracked cfg keyOf except t) (hexcept : ∀ key, except key → except' key) :
    s.Tracked cfg keyOf except' t where
  stamped := h.stamped
  pendingBy := h.pendingBy
  settledBy := h.settledBy
  recordedBy := h.recordedBy
  newest := h.newest
  bounded key hkey := h.bounded key fun hold => hkey (hexcept key hold)

/-! ## A flow is recorded -/

/-- The flow is pending and its delta is added to the aggregate of its key. -/
def record (cfg : Config K) (keyOf : PendingNet K → Option κ) (s : Side κ K) (q : String)
    (p : PendingNet K) (applied : Int) : Side κ K where
  aggregates := rebase cfg s.aggregates (keyOf p) applied p.delta
  pending := s.pending.insert q p
  settled := s.settled
  records := (p, applied) :: s.records
  operations := s.operations + 1

/-- What a rebase does to a key that is not the flow's. -/
theorem lookup_rebase_ne {aggregates : Aggregates κ K} {target : Option κ} {delta : K}
    (h : target ≠ some key) :
    (rebase cfg aggregates target t delta).lookup key = aggregates.lookup key := by
  cases target with
  | none => rfl
  | some other => exact Aggregates.lookup_add_ne fun heq => h (congrArg some heq.symm)

theorem time_rebase {aggregates : Aggregates κ K} {delta : K} {a : Stamped K}
    (h : (rebase cfg aggregates (some key) t delta).lookup key = some a) : a.time = t :=
  Aggregates.time_add h

theorem stampedBy_rebase {aggregates : Aggregates κ K} {target : Option κ} {delta : K}
    (h : Aggregates.StampedBy aggregates t) :
    Aggregates.StampedBy (rebase cfg aggregates target t delta) t := by
  cases target with
  | none => exact h
  | some key => exact Aggregates.stampedBy_add h le_rfl

omit [Field K] [LinearOrder K] in
theorem counts_of_ne {sign : K → Prop} [DecidablePred sign] (h : keyOf p ≠ some key) :
    counts keyOf key sign p = 0 :=
  if_neg fun hp => h hp.1

theorem record_tracked [IsStrictOrderedRing K] (h : s.Tracked cfg keyOf except t)
    (hnew : s.pending.lookup q = none) (hat : p.atMs ≤ t) :
    Tracked cfg keyOf except (record cfg keyOf s q p t) t where
  stamped := stampedBy_rebase h.stamped
  pendingBy q' p' hp' := by
    by_cases hq : q' = q
    · subst hq
      rw [record, AList.lookup_insert] at hp'
      obtain rfl := Option.some.inj hp'
      exact hat
    · rw [record, AList.lookup_insert_ne hq] at hp'
      exact h.pendingBy q' p' hp'
  settledBy := h.settledBy
  recordedBy r hr := by
    rcases List.mem_cons.mp hr with rfl | hold
    · exact hat
    · exact h.recordedBy r hold
  newest q' p' key a hp' hkey ha := by
    unfold record at hp' ha
    dsimp only at hp' ha
    by_cases hq : q' = q
    · subst hq
      rw [AList.lookup_insert] at hp'
      obtain rfl := Option.some.inj hp'
      rw [hkey] at ha
      rw [time_rebase ha]
      exact hat
    · rw [AList.lookup_insert_ne hq] at hp'
      by_cases hp : keyOf p = some key
      · rw [hp] at ha
        rw [time_rebase ha]
        exact h.pendingBy q' p' hp'
      · rw [lookup_rebase_ne hp] at ha
        exact h.newest q' p' key a hp' hkey ha
  bounded key hkey := by
    have hflow : (record cfg keyOf s q p t).flow cfg keyOf key t
        = s.flow cfg keyOf key t + contribution cfg keyOf key t p := by
      unfold record flow
      dsimp only
      rw [Pool.total_insert_new hnew]
      abel
    have hcount : ∀ (sign : K → Prop) [DecidablePred sign],
        (record cfg keyOf s q p t).pendingCount keyOf key sign
          = counts keyOf key sign p + s.pendingCount keyOf key sign := by
      intro sign _
      exact Pool.total_insert_new hnew
    have hdrift : (record cfg keyOf s q p t).drift cfg keyOf key
        = s.drift cfg keyOf key + sampleLoss cfg keyOf key (p, t) := by
      unfold record drift
      rw [List.map_cons, List.sum_cons, add_comm]
    by_cases hp : keyOf p = some key
    · unfold contribution at hflow
      rw [if_pos hp] at hflow
      unfold sampleLoss at hdrift
      rw [if_pos hp] at hdrift
      refine (h.bounded key hkey).write _ _ _ ?_ hflow hdrift (abs_delta_sub_remaining p t).le ?_ ?_
      · unfold record
        dsimp only
        rw [hp]
        exact Aggregates.read_add
      · rw [hcount, record, counts]
        dsimp only
        by_cases hpos : 0 < p.delta
        · rw [if_pos hpos, if_neg fun hneg => lt_asymm hpos hneg.2]
          omega
        · rw [if_neg hpos]
          split <;> omega
      · rw [hcount, record, counts]
        dsimp only
        by_cases hneg : p.delta < 0
        · rw [if_pos hneg, if_neg fun hpos => lt_asymm hneg hpos.2]
          omega
        · rw [if_neg hneg]
          split <;> omega
    · unfold contribution at hflow
      rw [if_neg hp, add_zero] at hflow
      unfold sampleLoss at hdrift
      rw [if_neg hp, add_zero] at hdrift
      refine (h.bounded key hkey).keep ?_ hflow hdrift ?_ ?_ (Nat.le_succ _)
      · unfold Aggregates.read record
        dsimp only
        rw [lookup_rebase_ne hp]
      · rw [hcount, counts_of_ne hp, zero_add]
      · rw [hcount, counts_of_ne hp, zero_add]

/-! ## A flow settles -/

theorem settle_tracked (h : s.Tracked cfg keyOf except t) (hq : s.pending.lookup q = some p) :
    Tracked cfg keyOf except
      { s with pending := s.pending.erase q, settled := p :: s.settled } t where
  stamped := h.stamped
  pendingBy q' p' hp' := h.pendingBy q' p' (Pool.lookup_of_erase hp')
  settledBy p' hp' := by
    rcases List.mem_cons.mp hp' with rfl | hold
    · exact h.pendingBy q p' hq
    · exact h.settledBy p' hold
  recordedBy := h.recordedBy
  newest q' p' key a hp' hkey ha := h.newest q' p' key a (Pool.lookup_of_erase hp') hkey ha
  bounded key hkey := by
    refine (h.bounded key hkey).keep rfl ?_ rfl ?_ ?_ le_rfl
    · unfold flow
      dsimp only
      rw [flow_erase cfg keyOf key t hq, List.map_cons, List.sum_cons]
      abel
    · exact (Nat.le_add_left _ _).trans_eq (count_erase keyOf key hq (· < 0))
    · exact (Nat.le_add_left _ _).trans_eq (count_erase keyOf key hq (0 < ·))

/-! ## A flow is reversed -/

theorem lookup_reverseIn_ne {mode : ReverseMode} {aggregates : Aggregates κ K} {target : Option κ}
    {remaining : K} (h : target ≠ some key) :
    (reverseIn cfg mode aggregates target t remaining).lookup key = aggregates.lookup key := by
  unfold reverseIn
  split
  · exact lookup_rebase_ne h
  · rfl

/-- What is found after a reversal was there before, or was stamped by it. -/
theorem time_reverseIn {mode : ReverseMode} {aggregates : Aggregates κ K} {target : Option κ}
    {remaining : K} {a : Stamped K}
    (h : (reverseIn cfg mode aggregates target t remaining).lookup key = some a) :
    aggregates.lookup key = some a ∨ a.time = t := by
  by_cases htarget : target = some key
  · subst htarget
    unfold reverseIn at h
    split at h
    · exact .inr (time_rebase h)
    · exact .inl h
  · rw [lookup_reverseIn_ne htarget] at h
    exact .inl h

/-- A reversal that is not lost reads as if it were always written. -/
theorem read_reverseIn [IsStrictOrderedRing K] {mode : ReverseMode} {aggregates : Aggregates κ K}
    (hkey : keyOf p = some key) (hlost : key ∉ lost cfg keyOf mode aggregates p t) :
    Aggregates.read cfg.decay
        (reverseIn cfg mode aggregates (some key) t (p.remaining cfg t)) key t
      = if |Aggregates.read cfg.decay aggregates key t + -p.remaining cfg t| ≤ epsilonBase then 0
        else Aggregates.read cfg.decay aggregates key t + -p.remaining cfg t := by
  unfold reverseIn
  by_cases hrev : reverses mode aggregates (some key) = true
  · rw [if_pos hrev]
    exact Aggregates.read_add
  · rw [if_neg hrev]
    have habsent : aggregates.lookup key = none := by
      rw [reverses, Bool.or_eq_true, not_or, decide_eq_true_eq] at hrev
      exact AList.lookup_eq_none.mpr hrev.1
    have hread : Aggregates.read cfg.decay aggregates key t = 0 := by
      unfold Aggregates.read
      rw [habsent]
    have hsmall : |p.remaining cfg t| ≤ epsilonBase := by
      rw [← not_lt]
      intro hbig
      refine hlost ?_
      unfold lost
      rw [hkey]
      dsimp only
      rw [if_pos ⟨Bool.eq_false_iff.mpr hrev, hbig⟩]
      exact List.mem_singleton_self key
    rw [hread, zero_add, abs_neg, if_pos hsmall]

theorem reverse_tracked [IsStrictOrderedRing K] (h : s.Tracked cfg keyOf except t)
    (mode : ReverseMode) (hq : s.pending.lookup q = some p) :
    Tracked cfg keyOf (fun key => except key ∨ key ∈ lost cfg keyOf mode s.aggregates p t)
      { s with
        aggregates := reverseIn cfg mode s.aggregates (keyOf p) t (p.remaining cfg t)
        pending := s.pending.erase q } t where
  stamped key a ha := by
    rcases time_reverseIn ha with hold | hnew
    · exact h.stamped key a hold
    · exact hnew.le
  pendingBy q' p' hp' := h.pendingBy q' p' (Pool.lookup_of_erase hp')
  settledBy := h.settledBy
  recordedBy := h.recordedBy
  newest q' p' key a hp' hkey ha := by
    have hbefore := Pool.lookup_of_erase hp'
    rcases time_reverseIn ha with hold | hnew
    · exact h.newest q' p' key a hbefore hkey hold
    · exact (h.pendingBy q' p' hbefore).trans hnew.ge
  bounded key hkey := by
    rw [not_or] at hkey
    obtain ⟨hexcept, hlost⟩ := hkey
    have hneg := count_erase keyOf key hq (· < 0)
    have hpos := count_erase keyOf key hq (0 < ·)
    have hflow := flow_erase cfg keyOf key t hq
    by_cases hp : keyOf p = some key
    · have hcontribution : contribution cfg keyOf key t p = p.remaining cfg t := if_pos hp
      rw [hcontribution] at hflow
      refine (h.bounded key hexcept).write (-p.remaining cfg t) (-p.remaining cfg t) 0 ?_ ?_ ?_ ?_
        ?_ ?_
      · dsimp only
        rw [hp]
        exact read_reverseIn hp hlost
      · unfold flow
        dsimp only
        rw [hflow]
        abel
      · exact (add_zero _).symm
      · rw [sub_self, abs_zero]
      · -- only a negative flow is reversed by a positive amount
        have hsign : (if 0 < -p.remaining cfg t then 1 else 0) ≤ counts keyOf key (· < 0) p := by
          unfold counts
          split
          · rename_i hrem
            rw [if_pos ⟨hp, neg_of_remaining_neg (neg_pos.mp hrem)⟩]
          · exact Nat.zero_le _
        unfold pendingCount at hneg ⊢
        dsimp only
        omega
      · have hsign : (if -p.remaining cfg t < 0 then 1 else 0) ≤ counts keyOf key (0 < ·) p := by
          unfold counts
          split
          · rename_i hrem
            rw [if_pos ⟨hp, pos_of_remaining_pos (neg_neg_iff_pos.mp hrem)⟩]
          · exact Nat.zero_le _
        unfold pendingCount at hpos ⊢
        dsimp only
        omega
    · have hcontribution : contribution cfg keyOf key t p = 0 := if_neg hp
      rw [hcontribution, sub_zero] at hflow
      rw [counts_of_ne hp, zero_add] at hneg hpos
      refine (h.bounded key hexcept).keep ?_ ?_ rfl hneg.le hpos.le le_rfl
      · unfold Aggregates.read
        dsimp only
        rw [lookup_reverseIn_ne hp]
      · unfold flow
        dsimp only
        rw [hflow]

/-- A reversal on the live path is never lost. -/
theorem lost_live {aggregates : Aggregates κ K} : lost cfg keyOf .live aggregates p t = [] := by
  unfold lost
  cases keyOf p with
  | none => rfl
  | some key =>
    dsimp only
    rw [if_neg]
    rintro ⟨hrev, -⟩
    rw [reverses, decide_eq_true rfl, Bool.or_true] at hrev
    cases hrev

theorem release_tracked [IsStrictOrderedRing K] (h : s.Tracked cfg keyOf except t)
    (hq : s.pending.lookup q = some p) :
    Tracked cfg keyOf except
      { s with
        aggregates := reverseIn cfg .live s.aggregates (keyOf p) t (p.remaining cfg t)
        pending := s.pending.erase q } t := by
  refine (h.reverse_tracked .live hq).weaken ?_
  rintro key (hexcept | hlost)
  · exact hexcept
  · rw [lost_live] at hlost
    cases hlost

/-! ## Aggregates are dropped -/

omit [LinearOrder K] in
/-- What is filtered out adds nothing. -/
theorem sum_map_filter {α : Type} {f : α → K} {keep : α → Bool} {l : List α}
    (h : ∀ x ∈ l, keep x = false → f x = 0) : ((l.filter keep).map f).sum = (l.map f).sum := by
  induction l with
  | nil => rfl
  | cons x l ih =>
    have rest := ih fun y hy => h y (List.mem_cons_of_mem _ hy)
    rw [List.map_cons, List.sum_cons]
    cases hx : keep x with
    | true => rw [List.filter_cons_of_pos hx, List.map_cons, List.sum_cons, rest]
    | false =>
      rw [List.filter_cons_of_neg (Bool.eq_false_iff.mp hx), rest, h x List.mem_cons_self hx, zero_add]

/-- Aggregates are dropped where they are small. -/
theorem retain_tracked [IsStrictOrderedRing K] (h : s.Tracked cfg keyOf except t)
    (keep : κ → Stamped K → Bool)
    (hkeep : ∀ key a, ¬ except key → s.aggregates.lookup key = some a →
      keep key a = false → |a.read cfg.decay t| ≤ epsilonBase) :
    Tracked cfg keyOf except { s with aggregates := s.aggregates.retain keep } t where
  stamped := Aggregates.stampedBy_retain keep h.stamped
  pendingBy := h.pendingBy
  settledBy := h.settledBy
  recordedBy := h.recordedBy
  newest q p key a hp hkey ha := h.newest q p key a hp hkey (Pool.lookup_retain_eq_some.mp ha).1
  bounded key hkey := by
    cases ha : s.aggregates.lookup key with
    | none =>
      have gone : (s.aggregates.retain keep).lookup key = none := Pool.lookup_retain_of_none ha
      refine (h.bounded key hkey).keep ?_ rfl rfl le_rfl le_rfl le_rfl
      unfold Aggregates.read
      rw [ha, gone]
    | some a =>
      cases hk : keep key a with
      | true =>
        have kept : (s.aggregates.retain keep).lookup key = some a :=
          Pool.lookup_retain_eq_some.mpr ⟨ha, hk⟩
        refine (h.bounded key hkey).keep ?_ rfl rfl le_rfl le_rfl le_rfl
        unfold Aggregates.read
        rw [ha, kept]
      | false =>
        have gone : (s.aggregates.retain keep).lookup key = none := Pool.lookup_retain_of_dropped ha hk
        refine (h.bounded key hkey).drop ?_ ?_ rfl rfl rfl le_rfl
        · unfold Aggregates.read
          dsimp only
          rw [gone]
        · unfold Aggregates.read
          rw [ha]
          exact hkeep key a hkey ha hk

/-- The settled flows of some keys are no longer counted. -/
theorem forget_tracked (h : s.Tracked cfg keyOf except t) (forgotten : κ → Bool) :
    Tracked cfg keyOf (fun key => except key ∨ forgotten key = true)
      { s with settled := s.settled.filter fun p => !(keyOf p).any forgotten } t where
  stamped := h.stamped
  pendingBy := h.pendingBy
  settledBy p hp := h.settledBy p (List.mem_filter.mp hp).1
  recordedBy := h.recordedBy
  newest := h.newest
  bounded key hkey := by
    rw [not_or] at hkey
    refine (h.bounded key hkey.1).keep rfl ?_ rfl le_rfl le_rfl le_rfl
    have hsum : ((s.settled.filter fun p => !(keyOf p).any forgotten).map
        (contribution cfg keyOf key t)).sum = (s.settled.map (contribution cfg keyOf key t)).sum := by
      refine sum_map_filter ?_
      intro p _ hdropped
      unfold contribution
      rw [if_neg]
      intro hp
      rw [hp] at hdropped
      rw [Bool.not_eq_false'] at hdropped
      exact hkey.2 hdropped
    unfold flow
    dsimp only
    rw [hsum]

/-- Only what is looked up matters. -/
theorem congr_tracked (h : s.Tracked cfg keyOf except t) (aggregates : Aggregates κ K)
    (pending : Pool String (PendingNet K))
    (haggregates : ∀ key, aggregates.lookup key = s.aggregates.lookup key)
    (hpending : ∀ q, pending.lookup q = s.pending.lookup q) :
    Tracked cfg keyOf except { s with aggregates, pending } t where
  stamped key a ha := h.stamped key a ((haggregates key).symm.trans ha)
  pendingBy q p hp := h.pendingBy q p ((hpending q).symm.trans hp)
  settledBy := h.settledBy
  recordedBy := h.recordedBy
  newest q p key a hp hkey ha :=
    h.newest q p key a ((hpending q).symm.trans hp) hkey ((haggregates key).symm.trans ha)
  bounded key hkey := by
    refine (h.bounded key hkey).keep ?_ ?_ rfl ?_ ?_ le_rfl
    · unfold Aggregates.read
      dsimp only
      rw [haggregates]
    · unfold flow
      dsimp only
      rw [Pool.total_eq_of_lookup hpending]
    · exact (Pool.total_eq_of_lookup hpending).le
    · exact (Pool.total_eq_of_lookup hpending).le

/-- A key with no aggregate and no flow. -/
theorem bounded_of_empty [IsStrictOrderedRing K] (haggregate : s.aggregates.lookup key = none)
    (hpending : ∀ q p, s.pending.lookup q = some p → keyOf p ≠ some key)
    (hsettled : ∀ p ∈ s.settled, keyOf p ≠ some key) : s.Bounded cfg keyOf key t := by
  have hread : Aggregates.read cfg.decay s.aggregates key t = 0 := by
    unfold Aggregates.read
    rw [haggregate]
  have hflow : s.flow cfg keyOf key t = 0 := by
    have pending : s.pending.total (fun _ p => contribution cfg keyOf key t p) = 0 :=
      Pool.total_eq_zero fun q p hp => if_neg (hpending q p hp)
    have settled : (s.settled.map (contribution cfg keyOf key t)).sum = 0 := by
      refine List.sum_eq_zero ?_
      intro x hx
      obtain ⟨p, hp, rfl⟩ := List.mem_map.mp hx
      exact if_neg (hsettled p hp)
    unfold flow
    rw [pending, settled, add_zero]
  have hcount : ∀ (sign : K → Prop) [DecidablePred sign], s.pendingCount keyOf key sign = 0 :=
    fun sign _ => Pool.total_eq_zero fun q p hp => counts_of_ne (hpending q p hp)
  refine ⟨0, 0, ?_, ?_, ?_⟩
  · rw [hcount]
    exact Nat.zero_le _
  · rw [hcount]
    exact Nat.zero_le _
  · rw [hread, hflow, sub_zero]
    exact .zero epsilonBase_nonneg drift_nonneg 0 0

end Tracked

/-! ## Flows are reversed one after another -/

/-- What a loop that reverses flows does to one side, each flow at the next reading of the
clock. -/
def reverseEach (cfg : Config K) (keyOf : PendingNet K → Option κ) (mode : ReverseMode)
    (s : Side κ K) (clock : Nat → Int) : List (String × PendingNet K) → Side κ K
  | [] => s
  | (q, p) :: rest =>
    reverseEach cfg keyOf mode
      { s with
        aggregates := reverseIn cfg mode s.aggregates (keyOf p) (clock 0) (p.remaining cfg (clock 0))
        pending := s.pending.erase q }
      (fun i => clock (i + 1)) rest

/-- The keys of the flows such a loop loses. -/
def lostEach (cfg : Config K) (keyOf : PendingNet K → Option κ) (mode : ReverseMode)
    (aggregates : Aggregates κ K) (clock : Nat → Int) : List (PendingNet K) → List κ
  | [] => []
  | p :: rest =>
    lost cfg keyOf mode aggregates p (clock 0) ++
      lostEach cfg keyOf mode
        (reverseIn cfg mode aggregates (keyOf p) (clock 0) (p.remaining cfg (clock 0)))
        (fun i => clock (i + 1)) rest

theorem reverseEach_tracked [IsStrictOrderedRing K] (mode : ReverseMode) {clock : Nat → Int}
    {visits : List (String × PendingNet K)} (h : s.Tracked cfg keyOf except t)
    (hclock : Monotone clock) (ht : t ≤ clock 0) (hnodup : (visits.map Prod.fst).Nodup)
    (hpending : ∀ q p, (q, p) ∈ visits → s.pending.lookup q = some p) :
    Tracked cfg keyOf
      (fun key => except key ∨
        key ∈ lostEach cfg keyOf mode s.aggregates clock (visits.map Prod.snd))
      (reverseEach cfg keyOf mode s clock visits) (clock visits.length) := by
  induction visits generalizing s except t clock with
  | nil => exact (h.advance ht).weaken fun key hkey => .inl hkey
  | cons visit rest ih =>
    obtain ⟨q, p⟩ := visit
    rw [List.map_cons, List.nodup_cons] at hnodup
    have reversed := (h.advance ht).reverse_tracked mode (hpending q p List.mem_cons_self)
    have rested := ih reversed (fun i j hij => hclock (Nat.succ_le_succ hij))
      (hclock (Nat.zero_le 1)) hnodup.2 fun q' p' hmem => by
        have hne : q' ≠ q := by
          rintro rfl
          exact hnodup.1 (List.mem_map.mpr ⟨(q', p'), hmem, rfl⟩)
        dsimp only
        rw [AList.lookup_erase_ne hne]
        exact hpending q' p' (List.mem_cons_of_mem _ hmem)
    refine rested.weaken ?_
    intro key hkey
    rw [List.map_cons, lostEach, List.mem_append]
    exact or_assoc.mp hkey

/-- The loop erases what it visits. -/
theorem pending_reverseEach {mode : ReverseMode} {clock : Nat → Int}
    {visits : List (String × PendingNet K)} :
    (reverseEach cfg keyOf mode s clock visits).pending
      = s.pending.eraseAll (visits.map Prod.fst) := by
  induction visits generalizing s clock with
  | nil => rfl
  | cons visit rest ih => exact ih

/-- The loop touches nothing but aggregates and pending flows. -/
theorem reverseEach_eq (cfg : Config K) (keyOf : PendingNet K → Option κ) (mode : ReverseMode)
    (s : Side κ K) (clock : Nat → Int) (visits : List (String × PendingNet K)) :
    reverseEach cfg keyOf mode s clock visits
      = { s with
          aggregates := (reverseEach cfg keyOf mode s clock visits).aggregates
          pending := (reverseEach cfg keyOf mode s clock visits).pending } := by
  induction visits generalizing s clock with
  | nil => rfl
  | cons visit rest ih => exact ih _ _

theorem lostEach_live {aggregates : Aggregates κ K} {clock : Nat → Int} {ps : List (PendingNet K)} :
    lostEach cfg keyOf .live aggregates clock ps = [] := by
  induction ps generalizing aggregates clock with
  | nil => rfl
  | cons p ps ih => rw [lostEach, ih, List.append_nil, Tracked.lost_live]

/-- On the load path an aggregate that is absent stays absent. -/
theorem absent_reverseEach {clock : Nat → Int} {visits : List (String × PendingNet K)}
    (h : s.aggregates.lookup key = none) :
    (reverseEach cfg keyOf .afterPrune s clock visits).aggregates.lookup key = none := by
  induction visits generalizing s clock with
  | nil => exact h
  | cons visit rest ih =>
    refine ih ?_
    dsimp only
    by_cases hp : keyOf visit.2 = some key
    · rw [hp, reverseIn, reverses]
      have habsent : key ∉ s.aggregates := AList.lookup_eq_none.mp h
      rw [decide_eq_false habsent, if_neg]
      · exact h
      · decide
    · rw [Tracked.lookup_reverseIn_ne hp]
      exact h

end Side

end BookAgent.AgentLogic.NetPosition
