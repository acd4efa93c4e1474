import BookAgent.Lib.Run
import BookAgent.AgentLogic.NetFlow

/-!
# Net positions are decayed sums

Over every run, the net of a party and token and the net of the desk are the decayed sums
of the flows that are pending or have settled, up to one small value for each operation
and to what decays between the two readings of the clock when a flow is recorded. An
aggregate that a load drops for its age takes its flows with it.
-/

namespace BookAgent.AgentLogic.NetPosition

open BookAgent.Lib

variable {K : Type} [Field K] [LinearOrder K]

/-- Whether a load at `now` drops the aggregate of a key for its age. -/
def aged {κ : Type} [DecidableEq κ] (cfg : Config K) (aggregates : Aggregates κ K) (now : Int)
    (key : κ) : Bool :=
  (aggregates.lookup key).any fun a => decide (maxAgeMs cfg < now - a.time)

section Restart

variable {κ : Type} [DecidableEq κ] {cfg : Config K} {keyOf : PendingNet K → Option κ}
  {s : Side κ K} {except : κ → Prop} {t now : Int}

/-- A flow whose aggregate is dropped for its age is dead. -/
theorem isDead_of_aged (h : s.Tracked cfg keyOf except t) {q : String} {p : PendingNet K} {key : κ}
    (hp : s.pending.lookup q = some p) (hkey : keyOf p = some key)
    (haged : aged cfg s.aggregates now key = true) : isDead cfg now p = true := by
  unfold aged at haged
  cases ha : s.aggregates.lookup key with
  | none =>
    rw [ha] at haged
    cases haged
  | some a =>
    rw [ha, Option.any_some, decide_eq_true_eq] at haged
    have hat := h.newest q p key a hp hkey ha
    have hstale : cfg.stalePendingAfterMs ≤ maxAgeMs cfg := le_max_right _ _
    refine decide_eq_true ?_
    omega

/-- A saved aggregate that is not loaded is small, or dropped for its age. -/
theorem small_of_not_keeps [IsStrictOrderedRing K] {aggregates : Aggregates κ K} {key : κ}
    {a : Stamped K} (ha : aggregates.lookup key = some a)
    (hkeeps : keeps cfg now a.value a.time = false) (haged : ¬ aged cfg aggregates now key = true) :
    |a.read cfg.decay now| ≤ epsilonBase := by
  have hyoung : now - a.time ≤ maxAgeMs cfg := by
    unfold aged at haged
    rw [ha, Option.any_some, decide_eq_true_eq] at haged
    exact not_lt.mp haged
  unfold keeps at hkeeps
  rw [decide_eq_true hyoung, Bool.and_true, decide_eq_false_iff_not, not_lt] at hkeeps
  unfold Stamped.read
  rw [abs_mul, abs_of_nonneg (cfg.decay.between_nonneg _ _)]
  calc |a.value| * cfg.decay.between a.time now ≤ |a.value| * 1 :=
        mul_le_mul_of_nonneg_left (cfg.decay.between_le_one _ _) (abs_nonneg _)
    _ = |a.value| := mul_one _
    _ ≤ epsilonBase := hkeeps

/-- What a restart leaves: `aggregates` are those loaded, `live` and `dead` part the
pending flows. -/
theorem restart_tracked [IsStrictOrderedRing K] (h : s.Tracked cfg keyOf except t) (ht : t ≤ now)
    (aggregates : Aggregates κ K) (live : Pool String (PendingNet K))
    (dead : List (String × PendingNet K)) {clock : Nat → Int}
    (haggregates : ∀ key, aggregates.lookup key
      = (s.aggregates.retain fun _ a => keeps cfg now a.value a.time).lookup key)
    (hlive : ∀ q, live.lookup q = (s.pending.retain fun _ p => !isDead cfg now p).lookup q)
    (hdead : ∀ q p, (q, p) ∈ dead ↔ s.pending.lookup q = some p ∧ isDead cfg now p = true)
    (hnodup : (dead.map Prod.fst).Nodup) (hnow : now ≤ clock 0) (hclock : Monotone clock) :
    Side.Tracked cfg keyOf
      (fun key => (except key ∨
        key ∈ Side.lostEach cfg keyOf .afterPrune aggregates clock (dead.map Prod.snd)) ∧
          aged cfg s.aggregates now key = false)
      { Side.reverseEach cfg keyOf .afterPrune
          { s with
            aggregates
            settled := s.settled.filter fun p => !(keyOf p).any (aged cfg s.aggregates now) }
          clock dead with
        pending := live }
      (clock dead.length) := by
  have hforgotten := (h.advance ht).forget_tracked (aged cfg s.aggregates now)
  have hpruned := hforgotten.retain_tracked (fun _ a => keeps cfg now a.value a.time)
    fun key a hkey ha hkeeps => small_of_not_keeps ha hkeeps fun haged => hkey (.inr haged)
  have hloaded : Side.Tracked cfg keyOf
      (fun key => except key ∨ aged cfg s.aggregates now key = true)
      { s with
        aggregates
        settled := s.settled.filter fun p => !(keyOf p).any (aged cfg s.aggregates now) } now :=
    hpruned.congr_tracked aggregates s.pending haggregates fun _ => rfl
  have hreversed := Side.reverseEach_tracked .afterPrune hloaded hclock hnow hnodup
    fun q p hmem => ((hdead q p).mp hmem).1
  -- what the loop leaves pending is what was loaded as pending
  have hpending : ∀ q, live.lookup q = (s.pending.eraseAll (dead.map Prod.fst)).lookup q := by
    intro q
    rw [hlive]
    by_cases hq : q ∈ dead.map Prod.fst
    · rw [Pool.lookup_eraseAll_of_mem hq]
      obtain ⟨⟨q', p⟩, hmem, rfl⟩ := List.mem_map.mp hq
      obtain ⟨hp, hisDead⟩ := (hdead q' p).mp hmem
      refine Pool.lookup_retain_of_dropped hp ?_
      rw [hisDead, Bool.not_true]
    · rw [Pool.lookup_eraseAll_of_notMem hq]
      cases hp : s.pending.lookup q with
      | none => exact Pool.lookup_retain_of_none hp
      | some p =>
        refine Pool.lookup_retain_eq_some.mpr ⟨hp, ?_⟩
        rw [Bool.not_eq_true', Bool.eq_false_iff]
        exact fun hisDead => hq (List.mem_map.mpr ⟨(q, p), (hdead q p).mpr ⟨hp, hisDead⟩, rfl⟩)
  have hrestarted := hreversed.congr_tracked _ live (fun _ => rfl) fun q => by
    rw [Side.pending_reverseEach]
    exact hpending q
  refine ⟨hrestarted.stamped, hrestarted.pendingBy, hrestarted.settledBy, hrestarted.recordedBy,
    hrestarted.newest, ?_⟩
  intro key hkey
  by_cases haged : aged cfg s.aggregates now key = true
  · refine Side.Tracked.bounded_of_empty (Side.absent_reverseEach ?_) ?_ ?_
    · obtain ⟨a, ha, hold⟩ := (Option.any_eq_true ..).mp haged
      refine (haggregates key).trans (Pool.lookup_retain_of_dropped ha ?_)
      unfold keeps
      rw [decide_eq_false (not_le.mpr (of_decide_eq_true hold)), Bool.and_false]
    · intro q p hp hkeyOf
      have hpending : (s.pending.retain fun _ p => !isDead cfg now p).lookup q = some p :=
        (hlive q).symm.trans hp
      obtain ⟨hp, hnotDead⟩ := Pool.lookup_retain_eq_some.mp hpending
      rw [isDead_of_aged h hp hkeyOf haged] at hnotDead
      cases hnotDead
    · intro p hp hkeyOf
      rw [Side.reverseEach_eq] at hp
      have hkept := (List.mem_filter.mp hp).2
      rw [hkeyOf, Option.any_some, haged] at hkept
      cases hkept
  · refine hrestarted.bounded key ?_
    rintro ((hexcept | hold) | hlost)
    · exact hkey ⟨.inl hexcept, Bool.eq_false_iff.mpr haged⟩
    · exact haged hold
    · exact hkey ⟨.inr hlost, Bool.eq_false_iff.mpr haged⟩

end Restart

/-- A tracker with what its operations were: the flows that settled, for each family of
aggregates without those that went with an aged aggregate, every flow recorded with the
time it was applied, the number of operations, and the keys for which a load met a flow
to reverse and no aggregate. -/
structure NetRun (K : Type) where
  inner : Inner K
  clock : Int
  settledNets : List (PendingNet K)
  settledDesk : List (PendingNet K)
  records : List (PendingNet K × Int)
  operations : Nat
  lostNets : List (String × String)
  lostDesk : List String

inductive NetEvent (K : Type)
  | checkAndRecord (quoteId : String) (party : Option String) (token : String)
      (signedBaseDelta : K) (accept : K → Bool) (now applied : Int)
  | settle (quoteId : String)
  | release (quoteId : String) (now : Int)
  | expireStalePending (cutoffNow : Int)
      (order : List (String × PendingNet K) → List (String × PendingNet K)) (clock : Nat → Int)
  | sweepDecayed (now : Int)
  /-- The state is saved and loaded into a fresh tracker. -/
  | restart (order : List (String × PendingNet K) → List (String × PendingNet K)) (now : Int)
      (clock : Nat → Int)

namespace NetRun

omit [Field K] [LinearOrder K] in
def start (clock : Int) : NetRun K := ⟨⟨∅, ∅, ∅, false⟩, clock, [], [], [], 0, [], []⟩

variable (cfg : Config K)

def step (r : NetRun K) : NetEvent K → NetRun K
  | .checkAndRecord quoteId party token delta accept now applied =>
    let inner := (r.inner.checkAndRecord cfg quoteId party token delta accept now applied).2
    { r with
      inner
      clock := applied
      records := match inner.pending.lookup quoteId with
        | some p => if quoteId ∈ r.inner.pending then r.records else (p, applied) :: r.records
        | none => r.records }
  | .settle quoteId =>
    { r with
      inner := r.inner.settle quoteId
      settledNets := (r.inner.pending.lookup quoteId).toList ++ r.settledNets
      settledDesk := (r.inner.pending.lookup quoteId).toList ++ r.settledDesk }
  | .release quoteId now => { r with inner := r.inner.release cfg quoteId now, clock := now }
  | .expireStalePending cutoffNow order clock =>
    { r with
      inner := r.inner.expireStalePending cfg cutoffNow order clock
      clock := clock (r.inner.stalePendings cfg cutoffNow order).length }
  | .sweepDecayed now => { r with inner := (r.inner.sweepDecayed cfg now).2, clock := now }
  | .restart order now clock =>
    let saved := r.inner.snapshot order
    let agedNets := aged cfg r.inner.nets now
    let agedDesk := aged cfg r.inner.desk now
    let dead := (saved.dead cfg now).map Prod.snd
    { r with
      inner := Inner.loadOrNew cfg (some saved) now clock
      clock := clock dead.length
      settledNets := r.settledNets.filter fun p => !p.netKey.any agedNets
      settledDesk := r.settledDesk.filter fun p => !p.deskKey.any agedDesk
      lostNets := (r.lostNets ++ Side.lostEach cfg PendingNet.netKey .afterPrune
        (saved.loadNets cfg now) clock dead).filter fun key => !agedNets key
      lostDesk := (r.lostDesk ++ Side.lostEach cfg PendingNet.deskKey .afterPrune
        (saved.loadDesk cfg now) clock dead).filter fun key => !agedDesk key }

def apply (r : NetRun K) (e : NetEvent K) : NetRun K :=
  let r' := r.step cfg e
  { r' with operations := r'.operations + 1 }

omit [Field K] [LinearOrder K] in
/-- The clock does not run back, and a map's entries are visited in some order. -/
def Allowed (r : NetRun K) : NetEvent K → Prop
  | .checkAndRecord _ _ _ _ _ now applied => now ≤ applied ∧ r.clock ≤ applied
  | .settle _ => True
  | .release _ now => r.clock ≤ now
  | .expireStalePending _ order clock =>
    (∀ l, (order l).Perm l) ∧ r.clock ≤ clock 0 ∧ Monotone clock
  | .sweepDecayed now => r.clock ≤ now
  | .restart order now clock =>
    (∀ l, (order l).Perm l) ∧ r.clock ≤ now ∧ now ≤ clock 0 ∧ Monotone clock

/-- The runs of a tracker that starts empty. -/
abbrev Reached (clock : Int) : NetRun K → Prop := Reachable Allowed (apply cfg) (start clock)

omit [Field K] [LinearOrder K] in
def nets (r : NetRun K) : Side (String × String) K :=
  ⟨r.inner.nets, r.inner.pending, r.settledNets, r.records, r.operations⟩

omit [Field K] [LinearOrder K] in
def desk (r : NetRun K) : Side String K :=
  ⟨r.inner.desk, r.inner.pending, r.settledDesk, r.records, r.operations⟩

structure Invariant (r : NetRun K) : Prop where
  nets : r.nets.Tracked cfg PendingNet.netKey (· ∈ r.lostNets) r.clock
  desk : r.desk.Tracked cfg PendingNet.deskKey (· ∈ r.lostDesk) r.clock

end NetRun

/-! ## What the operations do to the two sides -/

namespace Inner

variable {cfg : Config K} {inner : Inner K}

/-- The live loop, seen from one side. -/
theorem nets_releaseEach (cfg : Config K) (inner : Inner K) (s : Side (String × String) K)
    (clock : Nat → Int) (stale : List (String × PendingNet K)) (haggregates : s.aggregates = inner.nets)
    (hpending : s.pending = inner.pending) :
    (releaseEach cfg inner clock stale).nets
        = (s.reverseEach cfg PendingNet.netKey .live clock stale).aggregates ∧
      (releaseEach cfg inner clock stale).pending
        = (s.reverseEach cfg PendingNet.netKey .live clock stale).pending := by
  induction stale generalizing inner s clock with
  | nil => exact ⟨haggregates.symm, hpending.symm⟩
  | cons e stale ih =>
    refine ih _ _ _ ?_ ?_
    · dsimp only
      rw [haggregates]
      rfl
    · dsimp only
      rw [hpending]
      rfl

theorem desk_releaseEach (cfg : Config K) (inner : Inner K) (s : Side String K)
    (clock : Nat → Int) (stale : List (String × PendingNet K)) (haggregates : s.aggregates = inner.desk)
    (hpending : s.pending = inner.pending) :
    (releaseEach cfg inner clock stale).desk
        = (s.reverseEach cfg PendingNet.deskKey .live clock stale).aggregates ∧
      (releaseEach cfg inner clock stale).pending
        = (s.reverseEach cfg PendingNet.deskKey .live clock stale).pending := by
  induction stale generalizing inner s clock with
  | nil => exact ⟨haggregates.symm, hpending.symm⟩
  | cons e stale ih =>
    refine ih _ _ _ ?_ ?_
    · dsimp only
      rw [haggregates]
      rfl
    · dsimp only
      rw [hpending]
      rfl

/-- The loop of a load, seen from the two sides. -/
theorem nets_reverseEach (cfg : Config K) (inner : Inner K) (s : Side (String × String) K)
    (clock : Nat → Int) (dead : List (String × PendingNet K)) (haggregates : s.aggregates = inner.nets) :
    (reverseEach cfg inner clock dead).nets
      = (s.reverseEach cfg PendingNet.netKey .afterPrune clock dead).aggregates := by
  induction dead generalizing inner s clock with
  | nil => exact haggregates.symm
  | cons e dead ih =>
    refine ih _ _ _ ?_
    dsimp only
    rw [haggregates]
    rfl

theorem desk_reverseEach (cfg : Config K) (inner : Inner K) (s : Side String K)
    (clock : Nat → Int) (dead : List (String × PendingNet K)) (haggregates : s.aggregates = inner.desk) :
    (reverseEach cfg inner clock dead).desk
      = (s.reverseEach cfg PendingNet.deskKey .afterPrune clock dead).aggregates := by
  induction dead generalizing inner s clock with
  | nil => exact haggregates.symm
  | cons e dead ih =>
    refine ih _ _ _ ?_
    dsimp only
    rw [haggregates]
    rfl

theorem pending_reverseEach {clock : Nat → Int} {dead : List (String × PendingNet K)} :
    (reverseEach cfg inner clock dead).pending = inner.pending := by
  induction dead generalizing inner clock with
  | nil => rfl
  | cons e dead ih => exact ih

/-! ### Saving and loading -/

variable {order : List (String × PendingNet K) → List (String × PendingNet K)} {now : Int}

theorem pendings_snapshot : (inner.snapshot order).pendings = order inner.pending.toPairs := by
  unfold SavedNetPositions.pendings snapshot
  dsimp only
  rw [List.map_map]
  exact List.map_id _

/-- Entries written, filtered again and read back. -/
theorem filter_saved {α β : Type} {l : List α} {write : α → β} {read : β → α} {big : α → Bool}
    {keep : β → Bool} (hread : ∀ e, read (write e) = e)
    (hbig : ∀ e, keep (write e) = true → big e = true) :
    (((l.filter big).map write).filter keep).map read = l.filter fun e => keep (write e) := by
  rw [List.filter_map, List.map_map, List.filter_filter]
  have hid : read ∘ write = id := funext hread
  rw [hid, List.map_id]
  refine List.filter_congr ?_
  intro e _
  rw [Function.comp_apply]
  cases hk : keep (write e) with
  | true => rw [hbig e hk, Bool.and_self]
  | false => rw [Bool.false_and]

theorem big_of_keeps {net : K} {updatedAtMs : Int} (h : keeps cfg now net updatedAtMs = true) :
    decide (epsilonBase < |net|) = true :=
  (Bool.and_eq_true_iff.mp h).1

theorem lookup_loadNets {key : String × String} :
    ((inner.snapshot order).loadNets cfg now).lookup key
      = (inner.nets.retain fun _ a => keeps cfg now a.value a.time).lookup key := by
  unfold SavedNetPositions.loadNets snapshot
  dsimp only
  rw [filter_saved]
  · exact Pool.lookup_insertAll_filter (.refl _) fun e : (String × String) × Stamped K =>
      keeps cfg now e.2.value e.2.time
  · exact fun _ => rfl
  · exact fun _ h => big_of_keeps h

theorem lookup_loadDesk {key : String} :
    ((inner.snapshot order).loadDesk cfg now).lookup key
      = (inner.desk.retain fun _ a => keeps cfg now a.value a.time).lookup key := by
  unfold SavedNetPositions.loadDesk snapshot
  dsimp only
  rw [filter_saved]
  · exact Pool.lookup_insertAll_filter (.refl _) fun e : String × Stamped K =>
      keeps cfg now e.2.value e.2.time
  · exact fun _ => rfl
  · exact fun _ h => big_of_keeps h

theorem lookup_live (horder : ∀ l, (order l).Perm l) {q : String} :
    ((inner.snapshot order).live cfg now).lookup q
      = (inner.pending.retain fun _ p => !isDead cfg now p).lookup q := by
  unfold SavedNetPositions.live
  rw [pendings_snapshot]
  exact Pool.lookup_insertAll_filter (horder _) fun e => !isDead cfg now e.2

theorem mem_dead (horder : ∀ l, (order l).Perm l) {q : String} {p : PendingNet K} :
    (q, p) ∈ (inner.snapshot order).dead cfg now
      ↔ inner.pending.lookup q = some p ∧ isDead cfg now p = true := by
  unfold SavedNetPositions.dead
  rw [pendings_snapshot, List.mem_filter, (horder _).mem_iff, Pool.mem_toPairs]

theorem nodup_dead (horder : ∀ l, (order l).Perm l) :
    (((inner.snapshot order).dead cfg now).map Prod.fst).Nodup := by
  unfold SavedNetPositions.dead
  rw [pendings_snapshot]
  refine List.Nodup.sublist (List.filter_sublist.map Prod.fst) ?_
  rw [((horder _).map Prod.fst).nodup_iff, Pool.fst_toPairs]
  exact inner.pending.nodupKeys

end Inner

/-! ## Runs -/

namespace NetRun

variable [IsStrictOrderedRing K] {cfg : Config K} {r : NetRun K}

theorem invariant_start (clock : Int) : (start clock : NetRun K).Invariant cfg := by
  have empty : ∀ {κ : Type} [DecidableEq κ] (keyOf : PendingNet K → Option κ),
      Side.Tracked cfg keyOf (· ∈ []) ⟨∅, ∅, [], [], 0⟩ clock := by
    intro κ _ keyOf
    refine ⟨?_, ?_, ?_, ?_, ?_, ?_⟩
    · intro key a ha
      cases ha
    · intro q p hp
      cases hp
    · intro p hp
      cases hp
    · intro p hp
      cases hp
    · intro q p key a hp
      cases hp
    · intro key _
      refine Side.Tracked.bounded_of_empty rfl ?_ ?_
      · intro q p hp
        cases hp
      · intro p hp
        cases hp
  exact ⟨empty _, empty _⟩

namespace Invariant

theorem checkAndRecord (h : r.Invariant cfg) {quoteId : String} {party : Option String}
    {token : String} {delta : K} {accept : K → Bool} {now applied : Int} (hnow : now ≤ applied)
    (hclock : r.clock ≤ applied) :
    (r.apply cfg (.checkAndRecord quoteId party token delta accept now applied)).Invariant cfg := by
  have hnets := h.nets.advance hclock
  have hdesk := h.desk.advance hclock
  unfold apply step
  dsimp only
  rcases Inner.checkAndRecord_cases cfg r.inner quoteId party token delta accept now applied with
    hsame | ⟨hnew, hrecorded⟩
  · rw [hsame]
    have hrecords : (match r.inner.pending.lookup quoteId with
        | some p => if quoteId ∈ r.inner.pending then r.records else (p, applied) :: r.records
        | none => r.records) = r.records := by
      cases hq : r.inner.pending.lookup quoteId with
      | none => rfl
      | some p => exact if_pos (Pool.mem_iff_lookup.mpr ⟨p, hq⟩)
    rw [hrecords]
    exact ⟨hnets.operation, hdesk.operation⟩
  · rw [hrecorded]
    have hrecords : (match (AList.insert quoteId (⟨party, token, delta, now⟩ : PendingNet K)
          r.inner.pending).lookup quoteId with
        | some p => if quoteId ∈ r.inner.pending then r.records else (p, applied) :: r.records
        | none => r.records) = (⟨party, token, delta, now⟩, applied) :: r.records := by
      rw [AList.lookup_insert]
      exact if_neg (AList.lookup_eq_none.mp hnew)
    unfold Inner.applyDelta
    dsimp only
    rw [hrecords]
    exact ⟨hnets.record_tracked hnew hnow, hdesk.record_tracked hnew hnow⟩

omit [IsStrictOrderedRing K] in
theorem settle (h : r.Invariant cfg) {quoteId : String} :
    (r.apply cfg (.settle quoteId)).Invariant cfg := by
  unfold apply step Inner.settle
  dsimp only
  cases hq : r.inner.pending.lookup quoteId with
  | none =>
    rw [if_neg (AList.lookup_eq_none.mp hq)]
    exact ⟨h.nets.operation, h.desk.operation⟩
  | some p =>
    rw [if_pos (Pool.mem_iff_lookup.mpr ⟨p, hq⟩)]
    exact ⟨(h.nets.settle_tracked hq).operation, (h.desk.settle_tracked hq).operation⟩

theorem release (h : r.Invariant cfg) {quoteId : String} {now : Int} (hclock : r.clock ≤ now) :
    (r.apply cfg (.release quoteId now)).Invariant cfg := by
  have hnets := h.nets.advance hclock
  have hdesk := h.desk.advance hclock
  unfold apply step Inner.release
  dsimp only
  cases hq : r.inner.pending.lookup quoteId with
  | none => exact ⟨hnets.operation, hdesk.operation⟩
  | some p =>
    exact ⟨(hnets.release_tracked hq).operation, (hdesk.release_tracked hq).operation⟩

omit [IsStrictOrderedRing K] in
theorem mem_stalePendings {inner : Inner K} {cutoffNow : Int}
    {order : List (String × PendingNet K) → List (String × PendingNet K)}
    (horder : ∀ l, (order l).Perm l) {q : String} {p : PendingNet K}
    (h : (q, p) ∈ inner.stalePendings cfg cutoffNow order) : inner.pending.lookup q = some p :=
  Pool.mem_toPairs.mp ((horder _).mem_iff.mp (List.mem_filter.mp h).1)

omit [IsStrictOrderedRing K] in
theorem nodup_stalePendings {inner : Inner K} {cutoffNow : Int}
    {order : List (String × PendingNet K) → List (String × PendingNet K)}
    (horder : ∀ l, (order l).Perm l) :
    ((inner.stalePendings cfg cutoffNow order).map Prod.fst).Nodup := by
  refine List.Nodup.sublist (List.filter_sublist.map Prod.fst) ?_
  rw [((horder _).map Prod.fst).nodup_iff, Pool.fst_toPairs]
  exact inner.pending.nodupKeys

/-- The live loop keeps one side in step. -/
theorem releaseEach_tracked {κ : Type} [DecidableEq κ] {keyOf : PendingNet K → Option κ}
    {s : Side κ K} {except : κ → Prop} {t : Int} {clock : Nat → Int}
    {stale : List (String × PendingNet K)} (h : s.Tracked cfg keyOf except t)
    (hclock : Monotone clock) (ht : t ≤ clock 0) (hnodup : (stale.map Prod.fst).Nodup)
    (hpending : ∀ q p, (q, p) ∈ stale → s.pending.lookup q = some p) :
    Side.Tracked cfg keyOf except
      { s with
        aggregates := (s.reverseEach cfg keyOf .live clock stale).aggregates
        pending := (s.reverseEach cfg keyOf .live clock stale).pending } (clock stale.length) := by
  have hreversed := Side.reverseEach_tracked .live h hclock ht hnodup hpending
  rw [Side.lostEach_live] at hreversed
  rw [← Side.reverseEach_eq]
  refine hreversed.weaken ?_
  rintro key (hexcept | hlost)
  · exact hexcept
  · cases hlost

theorem expireStalePending (h : r.Invariant cfg) {cutoffNow : Int}
    {order : List (String × PendingNet K) → List (String × PendingNet K)} {clock : Nat → Int}
    (horder : ∀ l, (order l).Perm l) (hr : r.clock ≤ clock 0) (hclock : Monotone clock) :
    (r.apply cfg (.expireStalePending cutoffNow order clock)).Invariant cfg := by
  have hmem : ∀ q p, (q, p) ∈ r.inner.stalePendings cfg cutoffNow order →
      r.inner.pending.lookup q = some p := fun q p => mem_stalePendings horder
  have hnets := releaseEach_tracked h.nets hclock hr (nodup_stalePendings horder) hmem
  have hdesk := releaseEach_tracked h.desk hclock hr (nodup_stalePendings horder) hmem
  obtain ⟨nets, netsPending⟩ := Inner.nets_releaseEach cfg r.inner r.nets clock
    (r.inner.stalePendings cfg cutoffNow order) rfl rfl
  obtain ⟨desk, deskPending⟩ := Inner.desk_releaseEach cfg r.inner r.desk clock
    (r.inner.stalePendings cfg cutoffNow order) rfl rfl
  rw [← nets, ← netsPending] at hnets
  rw [← desk, ← deskPending] at hdesk
  exact ⟨hnets.operation, hdesk.operation⟩

theorem sweepDecayed (h : r.Invariant cfg) {now : Int} (hclock : r.clock ≤ now) :
    (r.apply cfg (.sweepDecayed now)).Invariant cfg := by
  have hnets := (h.nets.advance hclock).retain_tracked
    (fun _ a => decide (epsilonBase < |a.read cfg.decay now|))
    fun key a _ _ hdrop => not_lt.mp (of_decide_eq_false hdrop)
  have hdesk := (h.desk.advance hclock).retain_tracked
    (fun _ a => decide (epsilonBase < |a.read cfg.decay now|))
    fun key a _ _ hdrop => not_lt.mp (of_decide_eq_false hdrop)
  exact ⟨hnets.operation, hdesk.operation⟩

theorem restart (h : r.Invariant cfg)
    {order : List (String × PendingNet K) → List (String × PendingNet K)} {now : Int}
    {clock : Nat → Int} (horder : ∀ l, (order l).Perm l) (hr : r.clock ≤ now) (hnow : now ≤ clock 0)
    (hclock : Monotone clock) : (r.apply cfg (.restart order now clock)).Invariant cfg := by
  let saved := r.inner.snapshot order
  have hnets := restart_tracked h.nets hr (saved.loadNets cfg now) (saved.live cfg now)
    (saved.dead cfg now) (fun _ => Inner.lookup_loadNets) (fun _ => Inner.lookup_live horder)
    (fun _ _ => Inner.mem_dead horder) (Inner.nodup_dead horder) hnow hclock
  have hdesk := restart_tracked h.desk hr (saved.loadDesk cfg now) (saved.live cfg now)
    (saved.dead cfg now) (fun _ => Inner.lookup_loadDesk) (fun _ => Inner.lookup_live horder)
    (fun _ _ => Inner.mem_dead horder) (Inner.nodup_dead horder) hnow hclock
  rw [Side.reverseEach_eq] at hnets hdesk
  have lost : ∀ {κ : Type} {old new : List κ} {isAged : κ → Bool} (key : κ),
      (key ∈ old ∨ key ∈ new) ∧ isAged key = false →
        key ∈ (old ++ new).filter fun key => !isAged key := by
    intro κ old new isAged key ⟨hkey, hyoung⟩
    rw [List.mem_filter, List.mem_append, hyoung]
    exact ⟨hkey, rfl⟩
  have hpending : (Inner.loadOrNew cfg (some saved) now clock).pending = saved.live cfg now :=
    Inner.pending_reverseEach
  have netsLoaded : (Inner.loadOrNew cfg (some saved) now clock).nets = _ := Inner.nets_reverseEach cfg
    ⟨saved.loadNets cfg now, saved.loadDesk cfg now, saved.live cfg now, false⟩
    { r.nets with
      aggregates := saved.loadNets cfg now
      settled := r.nets.settled.filter fun p =>
        !(PendingNet.netKey p).any (aged cfg r.nets.aggregates now) }
    clock (saved.dead cfg now) rfl
  have deskLoaded : (Inner.loadOrNew cfg (some saved) now clock).desk = _ := Inner.desk_reverseEach cfg
    ⟨saved.loadNets cfg now, saved.loadDesk cfg now, saved.live cfg now, false⟩
    { r.desk with
      aggregates := saved.loadDesk cfg now
      settled := r.desk.settled.filter fun p =>
        !(PendingNet.deskKey p).any (aged cfg r.desk.aggregates now) }
    clock (saved.dead cfg now) rfl
  rw [← hpending, ← netsLoaded] at hnets
  rw [← hpending, ← deskLoaded] at hdesk
  have hlength : ((saved.dead cfg now).map Prod.snd).length = (saved.dead cfg now).length :=
    List.length_map _
  unfold apply step
  dsimp only
  constructor
  · dsimp only
    rw [hlength]
    exact (hnets.weaken lost).operation
  · dsimp only
    rw [hlength]
    exact (hdesk.weaken lost).operation

end Invariant

/-- Every operation keeps both sides in step. -/
theorem invariant_apply (h : r.Invariant cfg) {e : NetEvent K} (hallowed : r.Allowed e) :
    (r.apply cfg e).Invariant cfg := by
  cases e with
  | checkAndRecord quoteId party token delta accept now applied =>
    exact h.checkAndRecord hallowed.1 hallowed.2
  | settle quoteId => exact h.settle
  | release quoteId now => exact h.release hallowed
  | expireStalePending cutoffNow order clock =>
    obtain ⟨horder, hr, hclock⟩ := hallowed
    exact h.expireStalePending horder hr hclock
  | sweepDecayed now => exact h.sweepDecayed hallowed
  | restart order now clock =>
    obtain ⟨horder, hr, hnow, hclock⟩ := hallowed
    exact h.restart horder hr hnow hclock

theorem invariant_of_reached {t₀ : Int} (run : Reached cfg t₀ r) : r.Invariant cfg :=
  Reachable.invariant _ (invariant_start t₀) (fun _ _ h hallowed => invariant_apply h hallowed) run

/-- What an aggregate reads and what its flows add up to differ by one small value for each
operation, and by what the records of its key lost between their readings of the clock. -/
theorem abs_read_sub_flow {κ : Type} [DecidableEq κ] {keyOf : PendingNet K → Option κ} {s : Side κ K}
    {except : κ → Prop} {clock now : Int} {key : κ} (h : s.Tracked cfg keyOf except clock)
    (hnow : clock ≤ now) (hkey : ¬ except key) :
    |Aggregates.read cfg.decay s.aggregates key now - s.flow cfg keyOf key now|
      ≤ epsilonBase * s.operations + s.drift cfg keyOf key := by
  obtain ⟨ups, downs, hups, hdowns, htracks⟩ := (h.advance hnow).bounded key hkey
  exact htracks.abs_err_le epsilonBase_nonneg ((Nat.le_add_right _ _).trans hups)
    ((Nat.le_add_right _ _).trans hdowns)

/-- In every run the nets are the decayed sums of the flows pending and settled. -/
theorem nets_are_decayed_sums {t₀ now : Int} (run : Reached cfg t₀ r) (hnow : r.clock ≤ now) :
    (∀ party token, (party, token) ∉ r.lostNets →
      |r.inner.net cfg party token now - r.nets.flow cfg PendingNet.netKey (party, token) now|
        ≤ epsilonBase * r.operations + r.nets.drift cfg PendingNet.netKey (party, token)) ∧
    (∀ token, token ∉ r.lostDesk →
      |r.inner.deskNet cfg token now - r.desk.flow cfg PendingNet.deskKey token now|
        ≤ epsilonBase * r.operations + r.desk.drift cfg PendingNet.deskKey token) := by
  have h := invariant_of_reached run
  constructor
  · intro party token hlost
    exact abs_read_sub_flow h.nets hnow hlost
  · intro token hlost
    exact abs_read_sub_flow h.desk hnow hlost

/-! ### Runs that decay by half each millisecond -/

/-- Amounts halve each millisecond. -/
def halving : Decay ℚ where
  factor t := ((2 ^ t.toNat : Nat) : ℚ)⁻¹
  factor_zero := by decide +kernel
  factor_add hs ht := by rw [Int.toNat_add hs ht, pow_add, Nat.cast_mul, mul_inv]
  factor_nonneg t := inv_nonneg.mpr (Nat.cast_nonneg _)
  factor_le_one _ := inv_le_one_of_one_le₀ (Nat.one_le_cast.mpr Nat.one_le_two_pow)

def shortWindow : Config ℚ := ⟨halving, 10, 1⟩

/-- A quote of 5 is recorded, its flow applied at `applied`. -/
def bought (applied : Int) : NetRun ℚ :=
  (start 0).apply shortWindow (.checkAndRecord "q1" (some "alice") "CC" 5 (fun _ => true) 0 applied)

theorem bought_reached {applied : Int} (h : 0 ≤ applied) :
    Reached shortWindow 0 (bought applied) := .step .start ⟨h, h⟩

/-- It settles, and the tracker restarts past the decay window. -/
def aging : NetRun ℚ :=
  ((bought 0).apply shortWindow (.settle "q1")).apply shortWindow (.restart id 11 fun _ => 11)

/-- It is offset by a quote of -5 that settles, and the tracker restarts. -/
def offset : NetRun ℚ :=
  (((bought 0).apply shortWindow
    (.checkAndRecord "q2" (some "alice") "CC" (-5) (fun _ => true) 0 0)).apply shortWindow
      (.settle "q2")).apply shortWindow (.restart id 2 fun _ => 2)

/-- Another quote of 3 is recorded at 1 and applied at 2, and the first one settles. -/
def growing : NetRun ℚ :=
  ((bought 0).apply shortWindow
    (.checkAndRecord "q2" (some "alice") "CC" 3 (fun _ => true) 1 2)).apply shortWindow (.settle "q1")

theorem growing_reached : Reached shortWindow 0 growing :=
  .step (.step (bought_reached le_rfl) ⟨by decide, by decide⟩) trivial

theorem aging_reached : Reached shortWindow 0 aging := by
  refine .step (.step (bought_reached le_rfl) trivial) ⟨fun _ => .refl _, ?_, le_rfl, ?_⟩
  · decide
  · exact monotone_const

theorem offset_reached : Reached shortWindow 0 offset := by
  refine .step (.step (.step (bought_reached le_rfl) ⟨le_rfl, ?_⟩) trivial)
    ⟨fun _ => .refl _, ?_, le_rfl, ?_⟩
  · decide
  · decide
  · exact monotone_const

/-- A second flow comes in, applied a millisecond after its record, and the first quote settles;
the net stays near the sum of both, decayed. -/
theorem nets_are_decayed_sums_growing :
    growing.nets.flow shortWindow PendingNet.netKey ("alice", "CC") 4 = 5 / 16 + 3 / 8 ∧
    |growing.inner.net shortWindow "alice" "CC" 4
        - growing.nets.flow shortWindow PendingNet.netKey ("alice", "CC") 4|
      ≤ epsilonBase * growing.operations
        + growing.nets.drift shortWindow PendingNet.netKey ("alice", "CC") :=
  ⟨by decide +kernel,
    (nets_are_decayed_sums growing_reached (by decide)).1 "alice" "CC" (by decide +kernel)⟩

/-- The net does not follow the settled flow once its aggregate is dropped for its age, reads
ahead of a flow between its two readings of the clock, and keeps a stale flow that was offset. -/
theorem nets_are_not_all_flows :
    (Reached shortWindow 0 aging ∧ aging.inner.net shortWindow "alice" "CC" 11 = 0 ∧
      epsilonBase * aging.operations < (5 : ℚ) * halving.between 0 11) ∧
    (Reached shortWindow 0 (bought 1) ∧ (bought 1).inner.net shortWindow "alice" "CC" 1 = 5 ∧
      epsilonBase * (bought 1).operations < |5 - (5 : ℚ) * halving.between 0 1|) ∧
    (Reached shortWindow 0 offset ∧ offset.inner.net shortWindow "alice" "CC" 2 = 0 ∧
      epsilonBase * offset.operations < |0 - (-5 : ℚ) * halving.between 0 2|) := by
  refine ⟨⟨aging_reached, ?_, ?_⟩, ⟨bought_reached (by decide), ?_, ?_⟩, offset_reached, ?_, ?_⟩
  · decide +kernel
  · decide +kernel
  · decide +kernel
  · decide +kernel
  · decide +kernel
  · decide +kernel

end NetRun

end BookAgent.AgentLogic.NetPosition
