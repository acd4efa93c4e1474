import BookAgent.CloudAgent.QuoteRuns

/-!
# Resources follow the quotes

In every run from the first quote on, a quote holds resources only while it is confirmed,
or what a settle left behind, whenever no handler is in the middle of its work.
-/

namespace BookAgent.CloudAgent

open BookAgent.Lib BookAgent.AgentLogic RfqV2State

variable {D K E : Type}

namespace Quotes

variable {w : Quotes D K E} {q : String}

/-- Before the first quote: nothing runs, and nothing is held or reserved for a quote. -/
structure Starts (w : Quotes D K E) : Prop where
  tasks : w.tasks = ∅
  pending : w.state.pending = ∅
  settled : w.settled = []
  free : ∀ q r, ¬ w.state.Has q r

theorem Starts.sound (h : w.Starts) : w.Sound q := by
  have noTask : ∀ j t, w.tasks.lookup j ≠ some t := by
    intro j t ht
    rw [h.tasks] at ht
    cases ht
  have hentry : w.entry q = none := by
    unfold entry
    rw [h.pending]
    rfl
  have hsettled : q ∉ w.settled := by
    rw [h.settled]
    exact List.not_mem_nil
  refine ⟨fun j t _ ht => absurd ht (noTask j t), fun j _ t _ _ _ _ ht => absurd ht (noTask j t), ?_,
    fun r hr => absurd hr (h.free q r), ?_, fun j t ht => absurd ht (noTask j t),
    fun hmem => absurd hmem hsettled⟩
  · rintro (hne | hmem | ⟨j, t, role, ht, -⟩)
    · exact absurd hentry hne
    · exact absurd hmem hsettled
    · exact absurd ht (noTask j t)
  · intro c hc
    rw [hentry] at hc
    cases hc

theorem sound_of_run [Field K] [LinearOrder K] {cfg : RfqV2Config K} {start : Quotes D K E}
    (hstart : start.Starts)
    (run : Reachable Allowed (apply cfg) start w) : w.Sound q :=
  run.invariant (fun w => w.Sound q) hstart.sound fun _ _ h hallowed => sound_apply h hallowed

/-! ## Between the handlers -/

/-- No confirm is between its claim and its return, and no settle or sweep runs. -/
def Quiet (w : Quotes D K E) : Prop :=
  ∀ i t, w.tasks.lookup i = some t →
    match t with
    | .register _ => True
    | .confirm t => t.role.claims = false
    | .settle _ => False
    | .sweep _ => False

/-- The quote is confirmed. -/
def Confirmed (w : Quotes D K E) (q : String) (c : ConfirmedQuote E) : Prop :=
  w.state.pending.lookup q = some (.confirmed c)

theorem exists_confirmed (h : isConfirmed w.state q = true) : ∃ c, w.Confirmed q c := by
  unfold isConfirmed at h
  split at h
  · rename_i c hc
    exact ⟨c, hc⟩
  · cases h

/-- The quote settled, as its entry says until that is dropped, and one of its holdings was
consumed. -/
def SettledOnLedger (w : Quotes D K E) (q : String) : Prop :=
  q ∈ w.settled ∧ (∃ cid, (q, cid) ∈ w.observed) ∧
    (w.state.pending.lookup q = none ∨ ∃ since, w.state.pending.lookup q = some (.settled since))

/-- In a quiet state only the entry or a settle stands for a resource. -/
theorem Sound.backed_of_quiet (h : w.Sound q) (hquiet : w.Quiet) {r : Resource}
    (hr : w.state.Has q r) : w.Backed q r := by
  rcases h.answered r hr with hbacked | ⟨j, t, ht, hans⟩
  · exact hbacked
  · have hidle := hquiet j t ht
    cases t with
    | register t => exact hans.elim
    | confirm t =>
      cases hans.2.1.symm.trans hidle
    | settle t => exact hidle.elim
    | sweep t => exact hidle.elim

end Quotes

open Quotes in
/-- Whenever no handler is in the middle of its work, the commitment of a quote is there
exactly while the quote is confirmed, its pending net position only then, and every holding
reserved for it and every ticket assigned to it is a confirmed quote's own, or left behind
by a settle. A quote that is neither confirmed nor settled holds nothing. -/
theorem resources_follow_quotes [Field K] [LinearOrder K] (cfg : RfqV2Config K)
    {start w : Quotes D K E} (hstart : start.Starts)
    (run : Reachable Allowed (apply cfg) start w) (hquiet : w.Quiet) (q : String) :
    (w.state.liquidityManager.hasCommitment (lmKey q) = true ↔ ∃ c, w.Confirmed q c) ∧
      (∀ t, w.state.netPositions = some t → q ∈ t.pending → ∃ c, w.Confirmed q c) ∧
      (∀ cid entry expiresAt, w.state.cache.reserved.lookup cid = some entry →
        entry.kind = .v2Quote q expiresAt →
          (∃ c, w.Confirmed q c ∧ cid ∈ c.holdingCids) ∨ w.SettledOnLedger q) ∧
      (∀ pool tid entry expiresAt, w.state.ticketPool = some pool →
        pool.lookup tid = some entry → entry.status = .assigned q expiresAt →
          (∃ c, w.Confirmed q c ∧ c.expiresAt = expiresAt) ∨ w.SettledOnLedger q) ∧
      ((¬ ∃ c, w.Confirmed q c) → ¬ w.SettledOnLedger q → ∀ r, ¬ w.state.Has q r) := by
  have h : w.Sound q := sound_of_run hstart run
  have backed : ∀ {r}, w.state.Has q r → w.state.Backs q r ∨ (w.SettledOnLedger q ∧ Lasting r) := by
    intro r hr
    refine (h.backed_of_quiet hquiet hr).imp_right fun hback => ⟨?_, hback.2⟩
    exact ⟨hback.1, (h.settled hback.1).2, (h.settled hback.1).1⟩
  refine ⟨⟨?_, ?_⟩, ?_, ?_, ?_, ?_⟩
  · intro hfunds
    rcases backed (r := .funds) hfunds with ⟨c, hc, -⟩ | ⟨-, hlasting⟩
    · exact ⟨c, hc⟩
    · exact hlasting.elim
  · rintro ⟨c, hc⟩
    exact h.funded c hc
  · intro t ht hmem
    rcases backed (r := .net) ⟨t, ht, hmem⟩ with ⟨c, hc, -⟩ | ⟨-, hlasting⟩
    · exact ⟨c, hc⟩
    · exact hlasting.elim
  · intro cid entry expiresAt hlookup hkind
    rcases backed (r := .holding cid) ⟨entry, expiresAt, hlookup, hkind⟩ with
      ⟨c, hc, hcid⟩ | ⟨hsettled, -⟩
    · exact .inl ⟨c, hc, hcid⟩
    · exact .inr hsettled
  · intro pool tid entry expiresAt hpool hlookup hstatus
    rcases backed (r := .ticket expiresAt) ⟨pool, hpool, tid, entry, hlookup, hstatus⟩ with
      ⟨c, hc, huntil⟩ | ⟨hsettled, -⟩
    · exact .inl ⟨c, hc, huntil⟩
    · exact .inr hsettled
  · intro hconfirmed hsettled r hr
    rcases backed hr with ⟨c, hc, -⟩ | ⟨hback, -⟩
    · exact hconfirmed ⟨c, hc⟩
    · exact hsettled hback

/-! ### A quote from its registration to its envelope -/

namespace Quotes

def oneMarket : RfqV2Config ℚ where
  atomicQuoteValidSecs := 30
  settleGraceSecs := 30
  ticketThresholdUsd := some 0
  midPrices := false
  poolImpact _ := false
  marketInstruments _ := some ⟨"EUR", false, "USDC", false⟩
  lastInstant := seconds 100000
  net := ⟨⟨fun _ => 1, rfl, fun _ _ => (one_mul 1).symm, fun _ => zero_le_one, fun _ => le_rfl⟩, 10, 1⟩
  toF64 := id
  fixed4 _ := ""

/-- A process before its first quote. -/
def opening : Quotes Nat ℚ String :=
  ⟨⟨∅, ∅, .new false, some ∅, .new 0, some ⟨∅, ∅, ∅, false⟩⟩, ∅, 0, [], [], []⟩

def answers : ConfirmAnswers Nat ℚ String where
  now := 0
  nowMs := 0
  appliedMs := 0
  nowMicros := 0
  midOk := true
  depth := true
  heldInRange := true
  accept _ := true
  stale := none
  venueValidated := true
  picks := some [⟨"h1", "tpl", "EUR", 5, some "blob", "sync", 0⟩]
  splitInFlight := false
  deadline := 0
  ticket := "t1"
  sealed := .ok "envelope"

/-- The task goes on. -/
def next (w : Quotes Nat ℚ String) (id : Nat) : Quotes Nat ℚ String :=
  w.apply oneMarket (.resume id answers (fun l => l) ⟨0, 0, fun _ => 0, 0⟩)

/-- The quote is registered against 100 EUR, with one free ticket in the pool. -/
def quoted : Quotes Nat ℚ String :=
  ((((opening.apply oneMarket (.balances [("EUR", 100)])).apply oneMarket
    (.reconcile [⟨"t1", "t1cid", some "tpl", some "blob", some "payload"⟩])).apply oneMarket
      (.register 0 ⟨"q1", "EUR-USDC", .buy, ⟨5, 10, ("EUR", 5), none, 60, none⟩, none, none⟩)).next
        0).next 0

/-- It is confirmed. -/
def issued : Quotes Nat ℚ String :=
  (((((quoted.apply oneMarket (.confirm 1 ⟨"r1", "q1", "alice", none⟩ 0 answers)).next 1).next
    1).next 1).next 1)

theorem opening_starts : opening.Starts := by
  refine ⟨rfl, rfl, rfl, ?_⟩
  intro q r
  cases r with
  | funds => exact Bool.false_ne_true
  | net =>
    rintro ⟨t, ht, hmem⟩
    obtain rfl := Option.some.inj ht
    exact AList.notMem_empty q hmem
  | holding cid =>
    rintro ⟨entry, expiresAt, hlookup, -⟩
    cases hlookup
  | ticket e =>
    rintro ⟨pool, hpool, tid, entry, hlookup, -⟩
    obtain rfl := Option.some.inj hpool
    cases hlookup

theorem reached_next {w : Quotes Nat ℚ String} {id : Nat} (hclock : w.clock = 0)
    (h : Reachable Allowed (apply oneMarket) opening w) :
    Reachable Allowed (apply oneMarket) opening (w.next id) :=
  .step h ⟨hclock.le, fun _ => .refl _⟩

theorem quoted_reached : Reachable Allowed (apply oneMarket) opening quoted := by
  refine reached_next rfl (reached_next rfl (.step (.step (.step .start trivial) trivial) ⟨?_, ?_⟩))
  · exact AList.notMem_empty 0
  · exact List.not_mem_nil

theorem issued_reached : Reachable Allowed (apply oneMarket) opening issued := by
  refine reached_next ?_ (reached_next ?_ (reached_next ?_ (reached_next ?_
    (.step quoted_reached ⟨?_, ?_⟩))))
  · decide +kernel
  · decide +kernel
  · decide +kernel
  · decide +kernel
  · decide +kernel
  · decide +kernel

theorem issued_quiet : issued.Quiet := by
  have hidle : issued.tasks.keys = [] := by decide +kernel
  intro i t ht
  have hmem : i ∈ issued.tasks.keys := AList.mem_keys.mp (Pool.mem_iff_lookup.mpr ⟨t, ht⟩)
  rw [hidle] at hmem
  exact absurd hmem List.not_mem_nil

end Quotes

open Quotes in
theorem resources_follow_quotes_issued :
    issued.state.liquidityManager.hasCommitment (lmKey "q1") = true := by
  refine (resources_follow_quotes oneMarket opening_starts issued_reached issued_quiet "q1").1.mpr ?_
  exact exists_confirmed (by decide +kernel)

end BookAgent.CloudAgent
