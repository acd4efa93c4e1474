import Mathlib.Logic.Function.Basic
import BookAgent.Lib.Run
import BookAgent.Lib.ScaledInt
import BookAgent.CloudAgent.HoldingsCache

/-!
# Exclusive reservations

Any number of workers share the cache: each reserves a list of ids and later
releases or consumes exactly those. A reservation expires by its kind, and the
calls that end one name contract ids only, so a worker that is late releases
whatever reservation its ids are under by then. Where no release does that, a
live reservation keeps every other worker out.
-/

namespace BookAgent.CloudAgent

open BookAgent.Lib

variable {D Ω : Type}

/-! ## Workers sharing the cache -/

/-- What a worker reserved: the ids, and the entry the cache put them under. -/
structure Grant where
  ids : List String
  entry : ReservedEntry

/-- One step of a worker, of the clean-up, or of time. An operation samples its
instant before it takes the locks, so possibly earlier than it takes effect. -/
inductive WorkerEvent (Ω : Type)
  | reserve (owner : Ω) (contractIds : List String) (kind : ReservationKind) (now : Instant)
  | release (owner : Ω)
  | consume (owner : Ω) (reason : String) (now : Instant)
  | cleanup (now : Instant)
  | tick (later : Instant)

/-- The cache, what each worker has reserved and neither released nor consumed,
and the time. -/
structure Workers (D Ω : Type) where
  cache : HoldingsCache D
  held : Ω → Option Grant
  clock : Instant

namespace Workers

/-- Nobody has reserved anything yet. -/
def start (cache : HoldingsCache D) (clock : Instant) : Workers D Ω := ⟨cache, fun _ => none, clock⟩

/-- The worker's reservation has not expired. -/
def Live (w : Workers D Ω) (owner : Ω) (g : Grant) : Prop :=
  w.held owner = some g ∧ g.entry.isExpired w.clock = false

section Step

variable [DecidableEq Ω]

/-- The worker holds what it reserved, if the cache granted it. -/
def reserve (w : Workers D Ω) (owner : Ω) (cids : List String) (kind : ReservationKind)
    (now : Instant) : Workers D Ω :=
  let result := w.cache.reserveWithKind cids kind now
  { w with
    cache := result.2
    held := if result.1 then Function.update w.held owner (some ⟨cids, ⟨kind, now⟩⟩) else w.held }

/-- The worker ends its reservation by a call on exactly the ids it reserved. -/
def finish (w : Workers D Ω) (owner : Ω) (call : HoldingsCache D → List String → HoldingsCache D) :
    Workers D Ω :=
  { w with
    cache := ((w.held owner).map fun g => call w.cache g.ids).getD w.cache
    held := Function.update w.held owner none }

def apply (w : Workers D Ω) : WorkerEvent Ω → Workers D Ω
  | .reserve owner cids kind now => w.reserve owner cids kind now
  | .release owner => w.finish owner fun c cids => c.releaseReservations cids
  | .consume owner reason now => w.finish owner fun c cids => c.markConsumed cids reason now
  | .cleanup now => { w with cache := w.cache.cleanupExpiredReservations now }
  | .tick later => { w with clock := later }

end Step

/-- A worker reserves when it holds nothing, no instant is sampled ahead of time,
and time does not run back. -/
def Allowed (w : Workers D Ω) : WorkerEvent Ω → Prop
  | .reserve owner _ _ now => w.held owner = none ∧ now ≤ w.clock
  | .release _ => True
  | .consume _ _ now => now ≤ w.clock
  | .cleanup now => now ≤ w.clock
  | .tick later => w.clock ≤ later

/-- A release names no unconsumed id that another worker's live reservation
covers. -/
def Careful (w : Workers D Ω) : WorkerEvent Ω → Prop
  | .release owner => ∀ g, w.held owner = some g → ∀ other g', other ≠ owner → w.Live other g' →
      ∀ cid ∈ g.ids, cid ∈ g'.ids → cid ∈ w.cache.consumed
  | _ => True

/-- While a worker's reservation is live, no reservation of one of its ids
succeeds. -/
def Exclusive (w : Workers D Ω) : Prop :=
  ∀ owner g, w.Live owner g → ∀ cid ∈ g.ids, ∀ cids, cid ∈ cids → ∀ kind, ∀ now ≤ w.clock,
    (w.cache.reserveWithKind cids kind now).1 = false

/-! ## The invariant -/

/-- Every id of a live reservation is consumed or still under its entry. -/
def Backed (w : Workers D Ω) : Prop :=
  ∀ owner g, w.Live owner g → ∀ cid ∈ g.ids,
    cid ∈ w.cache.consumed ∨ w.cache.reserved.lookup cid = some g.entry

/-- An entry that has not expired by the clock had not at an earlier instant. -/
theorem live_at {entry : ReservedEntry} {now clock : Instant} (h : now ≤ clock)
    (hlive : entry.isExpired clock = false) : entry.isExpired now = false := by
  by_contra hexp
  have expired := ReservedEntry.isExpired_mono h (Bool.not_eq_false _ ▸ hexp)
  rw [hlive] at expired
  cases expired

/-- An id under a live entry, or consumed, cannot be reserved. -/
theorem canReserve_eq_false {c : HoldingsCache D} {cid : String} {entry : ReservedEntry}
    {now clock : Instant} (h : now ≤ clock) (hlive : entry.isExpired clock = false)
    (hback : cid ∈ c.consumed ∨ c.reserved.lookup cid = some entry) :
    c.canReserve cid now = false := by
  unfold HoldingsCache.canReserve HoldingsCache.isReserved
  rcases hback with hconsumed | hlookup
  · simp only [hconsumed, not_true_eq_false, decide_false, Bool.false_and]
  · rw [hlookup, Option.any_some, live_at h hlive, Bool.not_false, Bool.not_true, Bool.and_false]

theorem exclusive_of_backed {w : Workers D Ω} (hw : Backed w) : Exclusive w := by
  intro owner g hlive cid hcid cids hmem kind now hnow
  by_contra hsuccess
  have all := HoldingsCache.reserveWithKind_fst.mp (Bool.not_eq_false _ ▸ hsuccess)
  have blocked := canReserve_eq_false hnow hlive.2 (hw owner g hlive cid hcid)
  rw [all cid hmem] at blocked
  cases blocked

/-! ## What one step preserves -/

section Preserved

variable [DecidableEq Ω]

theorem reserve_cases (w : Workers D Ω) (owner : Ω) (cids : List String) (kind : ReservationKind)
    (now : Instant) :
    w.reserve owner cids kind now = w ∨
      (∀ cid ∈ cids, w.cache.canReserve cid now = true) ∧
      w.reserve owner cids kind now = { w with
        cache := w.cache.setReserved cids ⟨kind, now⟩
        held := Function.update w.held owner (some ⟨cids, ⟨kind, now⟩⟩) } := by
  unfold reserve
  rcases w.cache.reserveWithKind_eq cids kind now with h | h
  · left
    rw [h]
    rfl
  · right
    refine ⟨HoldingsCache.reserveWithKind_fst.mp (by rw [h]), ?_⟩
    rw [h]
    rfl

/-- Another worker keeps what it holds when one ends its reservation. -/
theorem live_finish {w : Workers D Ω} {owner other : Ω} {g : Grant}
    {call : HoldingsCache D → List String → HoldingsCache D} :
    (w.finish owner call).Live other g ↔ other ≠ owner ∧ w.Live other g := by
  unfold Live finish
  by_cases hother : other = owner
  · simp only [hother, Function.update_self, reduceCtorEq, false_and, ne_eq, not_true_eq_false]
  · simp only [Function.update_of_ne hother, ne_eq, hother, not_false_eq_true, true_and]

theorem finish_cache_of_none {w : Workers D Ω} {owner : Ω} (h : w.held owner = none)
    (call : HoldingsCache D → List String → HoldingsCache D) :
    (w.finish owner call).cache = w.cache := by
  rw [finish, h]
  rfl

theorem finish_cache_of_some {w : Workers D Ω} {owner : Ω} {g : Grant} (h : w.held owner = some g)
    (call : HoldingsCache D → List String → HoldingsCache D) :
    (w.finish owner call).cache = call w.cache g.ids := by
  rw [finish, h]
  rfl

theorem backed_reserve {w : Workers D Ω} {owner : Ω} {cids : List String} {kind : ReservationKind}
    {now : Instant} (hw : Backed w) (hnow : now ≤ w.clock) :
    Backed (w.reserve owner cids kind now) := by
  rcases w.reserve_cases owner cids kind now with h | ⟨hfree, h⟩
  · rw [h]
    exact hw
  · rw [h]
    rintro other g ⟨hheld, hlive⟩ cid hcid
    dsimp only at hheld hlive ⊢
    by_cases hother : other = owner
    · rw [hother, Function.update_self] at hheld
      obtain rfl := Option.some.inj hheld
      exact .inr (Pool.lookup_insertAll_const hcid)
    · rw [Function.update_of_ne hother] at hheld
      have back := hw other g ⟨hheld, hlive⟩ cid hcid
      -- the ids just reserved were free, those of a live reservation are not
      have notTaken : cid ∉ cids := by
        intro hmem
        have blocked := canReserve_eq_false hnow hlive back
        rw [hfree cid hmem] at blocked
        cases blocked
      rcases back with hconsumed | hlookup
      · exact .inl hconsumed
      · refine .inr ((Pool.lookup_insertAll_of_notMem ?_).trans hlookup)
        rwa [List.map_map, Function.comp_def, List.map_id']

/-- **A release keeps the invariant exactly when it is careful.** -/
theorem backed_release_iff {w : Workers D Ω} {owner : Ω} (hw : Backed w) :
    Backed (w.apply (.release owner)) ↔ w.Careful (.release owner) := by
  constructor
  · intro hback g hheld other g' hother hlive cid hcid hcid'
    rcases hback other g' (live_finish.mpr ⟨hother, hlive⟩) cid hcid' with hconsumed | hlookup
    · rwa [apply, finish_cache_of_some hheld] at hconsumed
    · rw [apply, finish_cache_of_some hheld, HoldingsCache.releaseReservations,
        Pool.lookup_eraseAll_of_mem hcid] at hlookup
      cases hlookup
  · intro hcareful other g' hlive cid hcid'
    obtain ⟨hother, hlive⟩ := live_finish.mp hlive
    have back := hw other g' hlive cid hcid'
    cases hheld : w.held owner with
    | none => rwa [apply, finish_cache_of_none hheld]
    | some g =>
      rw [apply, finish_cache_of_some hheld, HoldingsCache.releaseReservations]
      by_cases hcid : cid ∈ g.ids
      · exact .inl (hcareful g hheld other g' hother hlive cid hcid hcid')
      · rwa [Pool.lookup_eraseAll_of_notMem hcid]

theorem backed_consume {w : Workers D Ω} {owner : Ω} {reason : String} {now : Instant}
    (hw : Backed w) : Backed (w.apply (.consume owner reason now)) := by
  intro other g' hlive cid hcid'
  obtain ⟨-, hlive⟩ := live_finish.mp hlive
  have back := hw other g' hlive cid hcid'
  cases hheld : w.held owner with
  | none => rwa [apply, finish_cache_of_none hheld]
  | some g =>
    rw [apply, finish_cache_of_some hheld, HoldingsCache.mem_consumed_markConsumed]
    by_cases hcid : cid ∈ g.ids
    · exact .inl (.inl hcid)
    · rcases back with hconsumed | hlookup
      · exact .inl (.inr hconsumed)
      · exact .inr ((Pool.lookup_eraseAll_of_notMem hcid).trans hlookup)

theorem backed_step {w : Workers D Ω} {e : WorkerEvent Ω} (hw : Backed w) (hallowed : w.Allowed e)
    (hcareful : w.Careful e) : Backed (w.apply e) := by
  cases e with
  | reserve owner cids kind now => exact backed_reserve hw hallowed.2
  | release owner => exact (backed_release_iff hw).mpr hcareful
  | consume owner reason now => exact backed_consume hw
  | cleanup now =>
    rintro owner g ⟨hheld, hlive⟩ cid hcid
    rcases hw owner g ⟨hheld, hlive⟩ cid hcid with hconsumed | hlookup
    · exact .inl hconsumed
    · -- the clean-up drops only what had expired at the instant it sampled
      refine .inr (Pool.lookup_retain_eq_some.mpr ⟨hlookup, ?_⟩)
      rw [live_at hallowed hlive, Bool.not_false]
  | tick later =>
    rintro owner g ⟨hheld, hlive⟩ cid hcid
    exact hw owner g ⟨hheld, live_at hallowed hlive⟩ cid hcid

/-- **Reservations are exclusive** in a run whose releases are careful. -/
theorem exclusive_of_careful {cache : HoldingsCache D} {clock : Instant} {w : Workers D Ω}
    (run : Reachable (fun w e => Allowed w e ∧ Careful w e) apply (start cache clock) w) :
    Exclusive w := by
  refine exclusive_of_backed (Reachable.invariant Backed ?_ ?_ run)
  · rintro owner g ⟨hheld, -⟩
    cases hheld
  · rintro s e hbacked ⟨hallowed, hcareful⟩
    exact backed_step hbacked hallowed hcareful

end Preserved

/-! ## A late release -/

section Sample

/-- A payment reserves the holding and takes 61 seconds; a quote reserves it once
the payment's reservation has expired. -/
def requoted : Workers ScaledInt String :=
  (((start (HoldingsCache.new false) 0).apply
    (.reserve "payment" ["00aa"] (.v1Payment "p1") 0)).apply (.tick (seconds 61))).apply
    (.reserve "quote" ["00aa"] (.v2Quote "q1" (seconds 120)) (seconds 61))

theorem requoted_held : requoted.held =
    Function.update
      (Function.update (fun _ => none) "payment" (some ⟨["00aa"], ⟨.v1Payment "p1", 0⟩⟩))
      "quote" (some ⟨["00aa"], ⟨.v2Quote "q1" (seconds 120), seconds 61⟩⟩) := rfl

/-- Under rules that admit its steps, the run is a run. -/
theorem requoted_reachable {allowed : Workers ScaledInt String → WorkerEvent String → Prop}
    (hpayment : ∀ w, w.held "payment" = none → w.clock = 0 →
      allowed w (.reserve "payment" ["00aa"] (.v1Payment "p1") 0))
    (htick : ∀ w, w.clock = 0 → allowed w (.tick (seconds 61)))
    (hquote : ∀ w, w.held "quote" = none → w.clock = seconds 61 →
      allowed w (.reserve "quote" ["00aa"] (.v2Quote "q1" (seconds 120)) (seconds 61))) :
    Reachable allowed apply (start (HoldingsCache.new false) 0) requoted :=
  .step (.step (.step .start (hpayment _ rfl rfl)) (htick _ rfl)) (hquote _ rfl rfl)

/-- A split that reserves another holding meanwhile gives that one back. -/
def besideQuote : Workers ScaledInt String :=
  requoted.apply (.reserve "split" ["00bb"] (.split "job") (seconds 61))

theorem besideQuote_held : besideQuote.held =
    Function.update requoted.held "split" (some ⟨["00bb"], ⟨.split "job", seconds 61⟩⟩) := rfl

/-- The split's release is careful: the quote's reservation, still live, keeps
the payment and every other worker out. -/
theorem requoted_exclusive :
    (besideQuote.apply (.release "split")).Live "quote"
        ⟨["00aa"], ⟨.v2Quote "q1" (seconds 120), seconds 61⟩⟩ ∧
      Exclusive (besideQuote.apply (.release "split")) := by
  refine ⟨⟨rfl, by decide⟩, ?_⟩
  have run : Reachable (fun w e => Allowed w e ∧ Careful w e) apply
      (start (HoldingsCache.new false) 0) requoted := by
    apply requoted_reachable
    · exact fun w hheld hclock => ⟨⟨hheld, hclock ▸ le_rfl⟩, trivial⟩
    · exact fun w hclock => ⟨show w.clock ≤ _ from hclock ▸ Nat.zero_le _, trivial⟩
    · exact fun w hheld hclock => ⟨⟨hheld, hclock ▸ le_rfl⟩, trivial⟩
  refine exclusive_of_careful (.step (.step run ⟨⟨rfl, le_rfl⟩, trivial⟩) ⟨trivial, ?_⟩)
  intro g hg other g' hother hlive cid hcid hcid'
  obtain rfl := Option.some.inj hg
  have held : requoted.held other = some g' := by
    rw [← hlive.1, besideQuote_held, Function.update_of_ne hother]
  rw [requoted_held] at held
  by_cases hquote : other = "quote"
  · -- the quote holds the other holding
    subst hquote
    obtain rfl := Option.some.inj held
    obtain rfl := List.mem_singleton.mp hcid
    exact absurd (List.mem_singleton.mp hcid') (by decide)
  · by_cases hpayment : other = "payment"
    · -- the payment's reservation has expired
      subst hpayment
      obtain rfl := Option.some.inj held
      exact absurd hlive.2 (by decide)
    · rw [Function.update_of_ne hquote, Function.update_of_ne hpayment] at held
      cases held

/-- The payment's own release opens the quote's reservation to anyone. -/
theorem late_release_opens :
    ¬ ∀ (cache : HoldingsCache ScaledInt) (clock : Instant) (w : Workers ScaledInt String),
      Reachable Allowed apply (start cache clock) w → Exclusive w := by
  intro claim
  have run : Reachable Allowed apply (start (HoldingsCache.new false) 0) requoted := by
    apply requoted_reachable
    · exact fun w hheld hclock => ⟨hheld, hclock ▸ le_rfl⟩
    · exact fun w hclock => show w.clock ≤ _ from hclock ▸ Nat.zero_le _
    · exact fun w hheld hclock => ⟨hheld, hclock ▸ le_rfl⟩
  have late : Exclusive (requoted.apply (.release "payment")) :=
    claim _ _ _ (.step run trivial)
  have refused := late "quote" ⟨["00aa"], ⟨.v2Quote "q1" (seconds 120), seconds 61⟩⟩ ⟨rfl, by decide⟩
    "00aa" List.mem_cons_self ["00aa"] List.mem_cons_self (.split "job") (seconds 61) le_rfl
  exact absurd refused (by decide +kernel)

end Sample

end Workers

end BookAgent.CloudAgent
