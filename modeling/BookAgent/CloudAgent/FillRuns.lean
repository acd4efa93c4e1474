import BookAgent.CloudAgent.FillLoop
import BookAgent.Lib.Run

/-!
# Fill rounds across crashes

The state file and the loop's memory against the rounds that commit. While a settle may
commit, the file holds the round's marker over the progress before it; otherwise the file
and the memory each hold a total of committed rounds, or the marker of a round that is
already decided. So a restart counts a committed round once, as long as the quantity of
every V1 round can be read.
-/

namespace BookAgent.CloudAgent

open BookAgent.Lib BookAgent.AgentLogic

open ExactFloat (finite parse number)

/-! ## Truthful outcomes -/

/-- A committed check means that the round commits, an ended one that it does not. -/
def SettleCheck.Truthful (commits : Bool) : SettleCheck → Prop
  | committed _ => commits = true
  | ended _ => commits = false
  | notEstablished _ => True

/-- An outcome says what becomes of the round, unless it is unknown. -/
def SettleEnd.Truthful (commits : Bool) : SettleEnd → Prop
  | .v1 .ok | .atomic (.filled _) => commits = true
  | .v1 (.unknown check) => check.Truthful commits
  | .atomic .abort => True
  | .v1 .stop | .v1 .retry | .atomic .requote | .atomic .dryRun | .atomic .stop | .atomic .error =>
    commits = false

def SettleEnd.isAtomic : SettleEnd → Bool
  | .v1 _ => false
  | .atomic _ => true

namespace FillWorld

/-- The events of a run: outcomes are of the protocol in use and truthful about the last round, and
a settle trades the quantity that the accepted quote names. -/
def Allows (params : FillParams) (w : FillWorld) : FillEvent → Prop
  | .start _ check _ => ∀ r, w.rounds.getLast? = some r → check.Truthful r.commits
  | .settleStart _ _ base _ _ => ∀ p a, w.loop = some p → p.stage = .accepted a →
      ∀ q, number a.quote.quantity = some q → base = q
  | .settleEnd e _ => e.isAtomic = params.atomic ∧ ∀ r, w.rounds.getLast? = some r →
      e.Truthful r.commits ∧ ∀ base, e = .atomic (.filled base) → r.own = base
  | _ => True

/-- The quantity of a V1 quote that goes to settlement can be read. -/
def Reads (params : FillParams) (w : FillWorld) : FillEvent → Prop
  | .settleStart _ _ _ _ _ => params.atomic = false → ∀ p a, w.loop = some p →
      p.stage = .accepted a → ∃ q, number a.quote.quantity = some q
  | _ => True

/-- Nothing has happened yet: whatever the state file holds is of no order to continue. -/
def Begins (params : FillParams) (w : FillWorld) : Prop :=
  (∃ file, w = ⟨file, none, [], [], []⟩) ∧
    restorePlan w.file params = .fresh

end FillWorld

/-! ## The books -/

/-- What the committed rounds trade. -/
def committedTotal (rounds : List FillRound) : ℚ :=
  ((rounds.filter FillRound.commits).map FillRound.own).sum

/-- Whenever a round can be opened, the running total is what the committed rounds of the order
trade, each counted once; while a settle runs, all rounds but its own; and an order is left for a
new one only with its committed rounds in the saved total. -/
structure FillWorld.Booked (w : FillWorld) : Prop where
  running : ∀ p, w.loop = some p →
    match p.stage with
    | .settling _ _ => p.filled = finite (committedTotal w.rounds.dropLast)
    | _ => p.filled = finite (committedTotal w.rounds)
  left : ∀ order ∈ w.past, order.2 = [] ∨ order.1 = some (finite (committedTotal order.2))

theorem committedTotal_append_of_not (rs : List FillRound) {r : FillRound}
    (h : r.commits = false) : committedTotal (rs ++ [r]) = committedTotal rs := by
  simp [committedTotal, h]

theorem committedTotal_append_of_commits (rs : List FillRound) {r : FillRound}
    (h : r.commits = true) : committedTotal (rs ++ [r]) = committedTotal rs + r.own := by
  simp [committedTotal, h]

/-! ## Starting over the saved state -/

variable {params : FillParams} {w : FillWorld} {t f rem : ℚ} {n : Nat}

theorem finite_of_validateParams (h : validateParams params = .ok ()) :
    ∃ t, params.totalAmount = finite t ∧ 0 < t := by
  unfold validateParams at h
  dsimp only at h
  split at h
  · cases h
  · next hfind =>
    have htotal := List.find?_eq_none.mp hfind ("total_amount", some params.totalAmount)
      List.mem_cons_self
    cases hamount : params.totalAmount with
    | finite t => exact ⟨t, rfl, by simpa [hamount, ExactFloat.isFinite] using htotal⟩
    | inf s => simp [hamount, ExactFloat.isFinite] at htotal
    | nan => simp [hamount, ExactFloat.isFinite] at htotal

/-- What a saved order comes to: it is continued while something remains. -/
theorem restorePlan_fillSnapshot (ht : params.totalAmount = finite t)
    (unresolved : Option UnresolvedRound) :
    restorePlan (some (fillSnapshot params (finite f) (finite rem) n unresolved)) params =
      if 0 < rem then
        match unresolved with
        | none => .resume (finite rem) (finite f) n
        | some ⟨.v1, id, qty⟩ => .resolve id qty (finite rem) (finite f) n
        | some ⟨.atomic, id, qty⟩ => .refuse id qty n
      else .fresh := by
  have hsame : ((finite t).sub (finite t)).abs.lt (finite (1 / 1000000)) = true := by
    rw [ExactFloat.sub_finite, sub_self]
    decide +kernel
  unfold restorePlan fillSnapshot
  simp only [ht, hsame, decide_true, Bool.true_and, ExactFloat.max_finite]
  by_cases hrem : 0 < rem
  · have hmax : max rem 0 = rem := max_eq_left hrem.le
    have hlt : (finite 0).lt (finite rem) = true := ExactFloat.lt_finite.mpr hrem
    rcases unresolved with _ | ⟨_ | _, id, qty⟩ <;> simp [hmax, hlt, hrem]
  · have hmax : max rem 0 = 0 := max_eq_right (not_lt.mp hrem)
    have hzero : (finite 0).lt (finite 0) = false := rfl
    rw [hmax, hzero, if_pos rfl, if_neg hrem]

/-! ## The invariant -/

/-- A start from this file begins a new order. -/
def StartsFresh (params : FillParams) (file : Option SavedFillState) : Prop :=
  restorePlan file params = .fresh

section Invariant

variable (params : FillParams) (Keeps : ℚ → ℚ → Prop)

/-- The marker is of this round. -/
structure MarkOf (mark : UnresolvedRound) (r : FillRound) : Prop where
  kind : mark.kind = if params.atomic then .atomic else .v1
  qty : params.atomic = false → mark.qty = finite r.own

/-- What the state file holds against the rounds: another order, the total of all rounds, or the
marker of the last round over the total before it. -/
inductive FileShows : Option SavedFillState → List FillRound → Prop
  | foreign (file : Option SavedFillState) (hfresh : StartsFresh params file) : FileShows file []
  | counted (f rem : ℚ) (n : Nat) (rs : List FillRound) (htotal : committedTotal rs = f)
      (hkeeps : Keeps f rem) :
      FileShows (some (fillSnapshot params (finite f) (finite rem) n none)) rs
  | marked (f rem : ℚ) (n : Nat) (mark : UnresolvedRound) (rs : List FillRound) (r : FillRound)
      (hrem : 0 < rem) (htotal : committedTotal rs = f) (hkeeps : Keeps f rem)
      (hmark : MarkOf params mark r) (hround : Keeps (f + r.own) (rem - r.own)) :
      FileShows (some (fillSnapshot params (finite f) (finite rem) n (some mark))) (rs ++ [r])

/-- What the running loop holds against the rounds. -/
inductive LoopShows : FillProgress → List FillRound → Prop
  | idle (f rem : ℚ) (n : Nat) (rs : List FillRound) (htotal : committedTotal rs = f)
      (hkeeps : Keeps f rem) : LoopShows ⟨finite f, finite rem, n, .idle⟩ rs
  | accepted (f rem : ℚ) (n : Nat) (rs : List FillRound) (a : AcceptedQuote) (hrem : 0 < rem)
      (htotal : committedTotal rs = f) (hkeeps : Keeps f rem)
      (hround : ∀ q, (∀ m, number a.quote.quantity = some m → q = m) → Keeps (f + q) (rem - q)) :
      LoopShows ⟨finite f, finite rem, n, .accepted a⟩ rs
  | settling (f rem : ℚ) (n : Nat) (rs : List FillRound) (r : FillRound) (mark : UnresolvedRound)
      (hrem : 0 < rem) (htotal : committedTotal rs = f) (hkeeps : Keeps f rem)
      (hmark : MarkOf params mark r) (hround : Keeps (f + r.own) (rem - r.own))
      (hread : params.atomic = false → v1Qty r.accepted.quote = finite r.own) :
      LoopShows ⟨finite f, finite rem, n, .settling r.accepted mark⟩ (rs ++ [r])

/-- The order was left with its committed rounds in the saved total. -/
def LeftBooked (order : Option ExactFloat × List FillRound) : Prop :=
  order.2 = [] ∨ order.1 = some (finite (committedTotal order.2))

structure FillInv (w : FillWorld) : Prop where
  file : FileShows params Keeps w.file w.rounds
  loop : ∀ p, w.loop = some p → LoopShows params Keeps p w.rounds
  left : ∀ order ∈ w.past, LeftBooked order

end Invariant

variable {Keeps : ℚ → ℚ → Prop}

namespace FillWorld

@[simp] theorem save_rounds (saved : Bool) (s : SavedFillState) :
    (w.save saved s).rounds = w.rounds := by
  unfold save
  split <;> rfl

@[simp] theorem save_past (saved : Bool) (s : SavedFillState) :
    (w.save saved s).past = w.past := by
  unfold save
  split <;> rfl

@[simp] theorem save_accepted (saved : Bool) (s : SavedFillState) :
    (w.save saved s).accepted = w.accepted := by
  unfold save
  split <;> rfl

end FillWorld

/-- A save that shows the rounds keeps the file right, whether it works or not. -/
theorem FileShows.save {rs : List FillRound} {s : SavedFillState}
    (hfile : FileShows params Keeps w.file rs) (hnew : FileShows params Keeps (some s) rs)
    (saved : Bool) : FileShows params Keeps (w.save saved s).file rs := by
  unfold FillWorld.save
  split
  · exact hnew
  · exact hfile

section Start

variable {file : Option SavedFillState} {rs : List FillRound}

/-- An order is left only with all its committed rounds counted. -/
theorem FileShows.leftBooked (h : FileShows params Keeps file rs) (ht : params.totalAmount = finite t)
    (hfresh : StartsFresh params file) : LeftBooked (file.map SavedFillState.filledTotal, rs) := by
  cases h with
  | foreign => exact .inl rfl
  | counted f rem n _ htotal => exact .inr (by rw [htotal]; rfl)
  | marked f rem n mark rs r hrem =>
    unfold StartsFresh at hfresh
    rw [restorePlan_fillSnapshot ht, if_pos hrem] at hfresh
    obtain ⟨_ | _, id, qty⟩ := mark <;> cases hfresh

/-- Only a saved order is not begun anew. -/
theorem file_of_restorePlan (h : restorePlan file params ≠ .fresh) (s : SavedFillState) :
    some (file.getD s) = file := by
  cases file with
  | none => exact absurd rfl h
  | some s => rfl

/-- The counted progress of a saved order without a marker. -/
theorem FileShows.resume (h : FileShows params Keeps file rs) (ht : params.totalAmount = finite t)
    {remaining filled : ExactFloat} {round : Nat}
    (hplan : restorePlan file params = .resume remaining filled round) :
    LoopShows params Keeps ⟨filled, remaining, round, .idle⟩ rs := by
  cases h with
  | foreign _ hfresh => cases hfresh.symm.trans hplan
  | counted f rem n _ htotal hkeeps =>
    rw [restorePlan_fillSnapshot ht] at hplan
    split at hplan
    · cases hplan
      exact .idle f rem _ rs htotal hkeeps
    · cases hplan
  | marked f rem n mark rs r hrem =>
    rw [restorePlan_fillSnapshot ht, if_pos hrem] at hplan
    obtain ⟨_ | _, id, qty⟩ := mark <;> cases hplan

/-- The marker to resolve is of the last round, over the total before it. -/
theorem FileShows.resolve (h : FileShows params Keeps file rs) (ht : params.totalAmount = finite t)
    {id : String} {qty remaining filled : ExactFloat} {round : Nat}
    (hplan : restorePlan file params = .resolve id qty remaining filled round) :
    ∃ f rem rs' r, filled = finite f ∧ remaining = finite rem ∧ qty = finite r.own ∧
      rs = rs' ++ [r] ∧ committedTotal rs' = f ∧ Keeps f rem ∧ Keeps (f + r.own) (rem - r.own) := by
  cases h with
  | foreign _ hfresh => cases hfresh.symm.trans hplan
  | counted f rem n _ htotal hkeeps =>
    rw [restorePlan_fillSnapshot ht] at hplan
    split at hplan <;> cases hplan
  | marked f rem n mark rs r hrem htotal hkeeps hmark hround =>
    rw [restorePlan_fillSnapshot ht, if_pos hrem] at hplan
    obtain ⟨_ | _, markId, markQty⟩ := mark
    · cases hplan
      have hv1 : params.atomic = false := by
        have hkind := hmark.kind
        cases hatomic : params.atomic with
        | false => rfl
        | true => simp [hatomic] at hkind
      exact ⟨f, rem, rs, r, rfl, rfl, hmark.qty hv1, rfl, htotal, hkeeps, hround⟩
    · cases hplan

end Start

/-! ## One step -/

section Step

/-- The rest of the invariant stands while neither the file nor the rounds change. -/
theorem FillInv.withLoop {w' : FillWorld} (h : FillInv params Keeps w) (hfile : w'.file = w.file)
    (hrounds : w'.rounds = w.rounds) (hpast : w'.past = w.past)
    (hloop : ∀ p, w'.loop = some p → LoopShows params Keeps p w.rounds) :
    FillInv params Keeps w' where
  file := by
    rw [hfile, hrounds]
    exact h.file
  loop p hp := by
    rw [hrounds]
    exact hloop p hp
  left := by
    rw [hpast]
    exact h.left

theorem FillInv.resumeSavedV1Round (h : FillInv params Keeps w)
    (ht : params.totalAmount = finite t) {id : String} {qty remaining filled : ExactFloat}
    {round : Nat} (hplan : restorePlan w.file params = .resolve id qty remaining filled round)
    {check : SettleCheck} (saved : Bool)
    (htruthful : ∀ r, w.rounds.getLast? = some r → check.Truthful r.commits)
    (hidle : w.loop = none) :
    FillInv params Keeps (w.resumeSavedV1Round params qty remaining filled round check saved) := by
  obtain ⟨f, rem, rs, r, rfl, rfl, rfl, hrounds, htotal, hkeeps, hround⟩ := h.file.resolve ht hplan
  have hcheck := htruthful r (by rw [hrounds, List.getLast?_concat])
  -- either way the count agrees with what the round does
  have hcount : ∀ g rem', committedTotal w.rounds = g → Keeps g rem' →
      FillInv params Keeps
        { w.save saved (fillSnapshot params (finite g) (finite rem') round none) with
          loop := some ⟨finite g, finite rem', round, .idle⟩ } := fun g rem' hg hk =>
    { file := by
        simpa using h.file.save (.counted g rem' round w.rounds hg hk) saved
      loop := by
        rintro p hp
        obtain rfl := Option.some.inj hp
        simpa using LoopShows.idle g rem' round w.rounds hg hk
      left := by simpa using h.left }
  cases check with
  | committed stage =>
    have hg : committedTotal w.rounds = f + r.own := by
      rw [hrounds, committedTotal_append_of_commits rs hcheck, htotal]
    simpa [FillWorld.resumeSavedV1Round] using hcount (f + r.own) (rem - r.own) hg hround
  | ended stage =>
    have hg : committedTotal w.rounds = f := by
      rw [hrounds, committedTotal_append_of_not rs hcheck, htotal]
    simpa [FillWorld.resumeSavedV1Round] using hcount f rem hg hkeeps
  | notEstablished why =>
    refine h.withLoop rfl rfl rfl fun p hp => ?_
    cases hidle.symm.trans hp

theorem FillInv.start (h : FillInv params Keeps w)
    (hzero : validateParams params = .ok () → ∀ t, params.totalAmount = finite t → Keeps 0 t)
    (hidle : w.loop = none)
    (probeSaved saved : Bool) {check : SettleCheck}
    (htruthful : ∀ r, w.rounds.getLast? = some r → check.Truthful r.commits) :
    FillInv params Keeps (w.start params probeSaved check saved) := by
  unfold FillWorld.start
  split
  · exact h
  · cases hvalid : validateParams params with
    | error e => exact h
    | ok u =>
      obtain ⟨t, ht, -⟩ := finite_of_validateParams hvalid
      cases hplan : restorePlan w.file params with
      | refuse id qty round => exact h
      | fresh =>
        dsimp only
        split
        · exact h
        · refine ⟨?_, ?_, ?_⟩
          · cases hfile : w.file with
            | none =>
              rw [ht]
              exact .counted 0 t 0 [] rfl (hzero hvalid t ht)
            | some s => exact .foreign (some s) (hfile ▸ hplan)
          · rintro p hp
            obtain rfl := Option.some.inj hp
            rw [ht]
            exact .idle 0 t 0 [] rfl (hzero hvalid t ht)
          · rintro order horder
            rcases List.mem_cons.mp horder with rfl | hpast
            · exact h.file.leftBooked ht hplan
            · exact h.left order hpast
      | resume remaining filled round =>
        dsimp only
        split
        · exact h
        · have hfile := file_of_restorePlan (by rw [hplan]; exact RestorePlan.noConfusion)
            (fillSnapshot params (finite 0) params.totalAmount 0 none)
          refine h.withLoop hfile rfl rfl fun p hp => ?_
          obtain rfl := Option.some.inj hp
          exact h.file.resume ht hplan
      | resolve id qty remaining filled round =>
        dsimp only
        split
        · exact h
        · have hfile := file_of_restorePlan (by rw [hplan]; exact RestorePlan.noConfusion)
            (fillSnapshot params (finite 0) params.totalAmount 0 none)
          have hprobed : { w with
              file := some (w.file.getD (fillSnapshot params (finite 0) params.totalAmount 0 none)) } =
              w := by rw [hfile]
          rw [hprobed]
          exact h.resumeSavedV1Round ht hplan saved htruthful hidle

variable {p : FillProgress} {a : AcceptedQuote}

/-- A quote is accepted for a round whose quantity keeps the relation. -/
theorem FillInv.quote (h : FillInv params Keeps w) (hp : w.loop = some p) (hidle : p.stage = .idle)
    (answers : QuoteAnswers)
    (hopens : ∀ f rem request a, 0 < rem → Keeps f rem → p.remaining = finite rem →
      requestAmount params p.remaining = some request →
      quoteRound params request answers = some a →
      ∀ q, (∀ m, number a.quote.quantity = some m → q = m) → Keeps (f + q) (rem - q)) :
    FillInv params Keeps (w.quote params p answers) := by
  have hshows := h.loop p hp
  obtain ⟨filled, remaining, n, stage⟩ := p
  obtain rfl : stage = .idle := hidle
  cases hshows with
  | idle f rem _ _ htotal hkeeps =>
    unfold FillWorld.quote
    split
    · exact h.withLoop rfl rfl rfl fun p hp => by cases hp
    · next hpos =>
      have hrem : 0 < rem := by simpa using hpos
      dsimp only
      cases hrequest : requestAmount params (finite rem) with
      | none => exact h.withLoop rfl rfl rfl fun p hp => by cases hp
      | some request =>
        dsimp only
        cases hround : quoteRound params request answers with
        | none =>
          refine h.withLoop rfl rfl rfl fun p hp => ?_
          obtain rfl := Option.some.inj hp
          exact .idle f rem _ w.rounds htotal hkeeps
        | some a =>
          refine h.withLoop rfl rfl rfl fun p hp => ?_
          obtain rfl := Option.some.inj hp
          exact .accepted f rem _ w.rounds a hrem htotal hkeeps
            (hopens f rem request a hrem hkeeps rfl hrequest hround)

theorem FillInv.giveUp (h : FillInv params Keeps w) (hp : w.loop = some p)
    (hstage : p.stage = .accepted a) (exits : Bool) :
    FillInv params Keeps { w with loop := if exits then none else some { p with stage := .idle } } := by
  have hshows := h.loop p hp
  obtain ⟨filled, remaining, n, stage⟩ := p
  obtain rfl : stage = .accepted a := hstage
  cases hshows with
  | accepted f rem _ _ _ hrem htotal hkeeps hround =>
    refine h.withLoop rfl rfl rfl fun p hp => ?_
    cases exits with
    | true => cases hp
    | false =>
      obtain rfl := Option.some.inj hp
      exact .idle f rem n w.rounds htotal hkeeps

/-- The quantity that is read from a quote is the one that its settle trades. -/
theorem v1Qty_of_number {quote : QuoteInfo} {q : ℚ} (h : number quote.quantity = some q) :
    v1Qty quote = finite q := by
  unfold v1Qty
  rw [ExactFloat.parse_of_number h]
  rfl

theorem FillInv.settleStart (h : FillInv params Keeps w) (hp : w.loop = some p)
    (hstage : p.stage = .accepted a) (id : String) (envelopeBase : Option String) {base : ℚ}
    (commits saved : Bool) (hbase : ∀ q, number a.quote.quantity = some q → base = q)
    (hreads : params.atomic = false → ∃ q, number a.quote.quantity = some q) :
    FillInv params Keeps (w.settleStart params p a id envelopeBase base commits saved) := by
  have hshows := h.loop p hp
  obtain ⟨filled, remaining, n, stage⟩ := p
  obtain rfl : stage = .accepted a := hstage
  cases hshows with
  | accepted f rem _ _ _ hrem htotal hkeeps hround =>
    have hread : params.atomic = false → v1Qty a.quote = finite base := fun hv1 => by
      obtain ⟨q, hq⟩ := hreads hv1
      rw [v1Qty_of_number hq, hbase q hq]
    have hmark : MarkOf params (FillWorld.markerOf params id envelopeBase a.quote)
        ⟨a, base, commits⟩ := by
      unfold FillWorld.markerOf
      cases hatomic : params.atomic with
      | true => exact ⟨by simp [hatomic], fun hv1 => by simp [hatomic] at hv1⟩
      | false => exact ⟨by simp [hatomic], hread⟩
    unfold FillWorld.settleStart
    dsimp only
    split
    · refine ⟨.marked f rem n _ w.rounds _ hrem htotal hkeeps hmark (hround base hbase), ?_, h.left⟩
      rintro p hp
      obtain rfl := Option.some.inj hp
      exact .settling f rem n w.rounds _ _ hrem htotal hkeeps hmark (hround base hbase) hread
    · exact h.withLoop rfl rfl rfl fun p hp => by cases hp

theorem SettleEnd.not_commits {e : SettleEnd} {commits : Bool} (h : e.nothingCommitted = true)
    (ht : e.Truthful commits) : commits = false := by
  rcases e with (_ | _ | _ | _) | (_ | _ | _ | _ | _ | _) <;>
    first
    | exact ht
    | cases h

theorem nothingCommitted_of_goesOn {quote : QuoteInfo} {e : SettleEnd}
    (h : afterSettle quote e = .goesOn) : e.nothingCommitted = true := by
  unfold afterSettle at h
  split at h <;> first | rfl | cases h

/-- A fill is of a round that commits, with the quantity read for it. -/
theorem fills_of_afterSettle {quote : QuoteInfo} {e : SettleEnd} {qty : ExactFloat} {commits : Bool}
    (h : afterSettle quote e = .fills qty) (ht : e.Truthful commits) :
    commits = true ∧ (e.isAtomic = false ∧ qty = v1Qty quote ∨
      ∃ base, e = .atomic (.filled base) ∧ qty = finite base) := by
  unfold afterSettle at h
  split at h <;> cases h
  · exact ⟨ht, .inl ⟨rfl, rfl⟩⟩
  · exact ⟨ht, .inl ⟨rfl, rfl⟩⟩
  · exact ⟨ht, .inr ⟨_, rfl, rfl⟩⟩

/-- A save that shows the rounds keeps the whole invariant, with a loop that shows them too. -/
theorem FillInv.saved (hfile : FileShows params Keeps w.file w.rounds)
    (hleft : ∀ order ∈ w.past, LeftBooked order) {s : SavedFillState}
    (hnew : FileShows params Keeps (some s) w.rounds) (saved : Bool) {loop : Option FillProgress}
    (hloop : ∀ p, loop = some p → LoopShows params Keeps p w.rounds) :
    FillInv params Keeps { w.save saved s with loop } where
  file := by simpa using hfile.save hnew saved
  loop p hp := by simpa using hloop p hp
  left := by simpa using hleft

theorem FillInv.settleEnd (h : FillInv params Keeps w) (hp : w.loop = some p)
    {mark : UnresolvedRound} (hstage : p.stage = .settling a mark) {e : SettleEnd} (saved : Bool)
    (hkind : e.isAtomic = params.atomic)
    (htruthful : ∀ r, w.rounds.getLast? = some r →
      e.Truthful r.commits ∧ ∀ base, e = .atomic (.filled base) → r.own = base) :
    FillInv params Keeps (w.settleEnd params p a mark e saved) := by
  have hshows := h.loop p hp
  obtain ⟨filled, remaining, n, stage⟩ := p
  obtain rfl : stage = .settling a mark := hstage
  generalize hrounds : w.rounds = rounds at hshows
  cases hshows with
  | settling f rem _ rs r _ hrem htotal hkeeps hmark hround hread =>
    obtain ⟨hends, hbase⟩ := htruthful r (by rw [hrounds, List.getLast?_concat])
    have hnot : r.commits = false → committedTotal w.rounds = f := fun hcommits => by
      rw [hrounds, committedTotal_append_of_not rs hcommits, htotal]
    unfold FillWorld.settleEnd
    -- the marker is cleared where nothing committed
    obtain ⟨cleared, hcleared, hfile, hsame, hpast⟩ : ∃ cleared : FillWorld,
        (if e.nothingCommitted then
          w.save saved (fillSnapshot params (finite f) (finite rem) n none) else w) = cleared ∧
        FileShows params Keeps cleared.file w.rounds ∧ cleared.rounds = w.rounds ∧
        cleared.past = w.past := by
      refine ⟨_, rfl, ?_⟩
      split
      · next hnothing =>
        have hcounted : FileShows params Keeps
            (some (fillSnapshot params (finite f) (finite rem) n none)) w.rounds :=
          .counted f rem n w.rounds (hnot (SettleEnd.not_commits hnothing hends)) hkeeps
        exact ⟨h.file.save hcounted saved, FillWorld.save_rounds .., FillWorld.save_past ..⟩
      · exact ⟨h.file, rfl, rfl⟩
    have hleft : ∀ order ∈ cleared.past, LeftBooked order := by
      rw [hpast]
      exact h.left
    rw [← hsame] at hfile hnot
    rw [← hsame] at hrounds
    dsimp only
    rw [hcleared]
    cases hafter : afterSettle r.accepted.quote e with
    | fills qty =>
      obtain ⟨hcommits, hqty⟩ := fills_of_afterSettle hafter hends
      obtain rfl : qty = finite r.own := by
        rcases hqty with ⟨hv1, rfl⟩ | ⟨base, rfl, rfl⟩
        · exact hread (hkind ▸ hv1)
        · rw [hbase base rfl]
      have htotal' : committedTotal cleared.rounds = f + r.own := by
        rw [hrounds, committedTotal_append_of_commits rs hcommits, htotal]
      simp only [ExactFloat.add_finite, ExactFloat.sub_finite]
      refine FillInv.saved hfile hleft
        (.counted (f + r.own) (rem - r.own) n cleared.rounds htotal' hround) saved fun p hp => ?_
      obtain rfl := Option.some.inj hp
      exact .idle (f + r.own) (rem - r.own) n cleared.rounds htotal' hround
    | goesOn =>
      have hcommits := SettleEnd.not_commits (nothingCommitted_of_goesOn hafter) hends
      refine ⟨hfile, fun p hp => ?_, hleft⟩
      obtain rfl := Option.some.inj hp
      exact .idle f rem n cleared.rounds (hnot hcommits) hkeeps
    | exits =>
      refine ⟨hfile, fun p hp => ?_, hleft⟩
      cases hp
    | exitsMarked =>
      have hmarked : FileShows params Keeps
          (some (fillSnapshot params (finite f) (finite rem) n (some mark))) cleared.rounds := by
        rw [hrounds]
        exact .marked f rem n mark rs r hrem htotal hkeeps hmark hround
      exact FillInv.saved hfile hleft hmarked saved fun p hp => by cases hp

/-- One event keeps the invariant, if a quote is accepted only for a quantity that keeps the
relation. -/
theorem FillInv.apply (h : FillInv params Keeps w)
    (hzero : validateParams params = .ok () → ∀ t, params.totalAmount = finite t → Keeps 0 t)
    {e : FillEvent}
    (hallows : w.Allows params e) (hreads : w.Reads params e)
    (hopens : ∀ answers, e = .quote answers → ∀ p f rem request a, w.loop = some p → 0 < rem →
      Keeps f rem → p.remaining = finite rem → requestAmount params p.remaining = some request →
      quoteRound params request answers = some a →
      ∀ q, (∀ m, number a.quote.quantity = some m → q = m) → Keeps (f + q) (rem - q)) :
    FillInv params Keeps (w.apply params e) := by
  unfold FillWorld.apply
  split
  · next hidle => exact h.start hzero hidle _ _ hallows
  · next answers p hp =>
    split
    · next hstage =>
      exact h.quote hp hstage answers fun f rem request a => hopens answers rfl p f rem request a hp
    · exact h
  · next exits p hp =>
    split
    · next a hstage => exact h.giveUp hp hstage exits
    · exact h
  · next id envelopeBase base commits saved p hp =>
    split
    · next a hstage =>
      exact h.settleStart hp hstage id envelopeBase commits saved (hallows p a hp hstage)
        fun hv1 => hreads hv1 p a hp hstage
    · exact h
  · next e saved p hp =>
    split
    · next a mark hstage => exact h.settleEnd hp hstage saved hallows.1 hallows.2
    · exact h
  · exact h.withLoop rfl rfl rfl fun p hp => by cases hp
  · exact h

end Step

/-! ## Runs -/

theorem FillInv.begins (h : w.Begins params) : FillInv params Keeps w := by
  obtain ⟨⟨file, rfl⟩, hfresh⟩ := h
  refine ⟨.foreign file hfresh, fun p hp => ?_, fun order horder => ?_⟩
  · cases hp
  · cases horder

/-- What the invariant says without its relation. -/
theorem FillInv.booked (h : FillInv params Keeps w) : w.Booked where
  running p hp := by
    have hshows := h.loop p hp
    generalize w.rounds = rounds at hshows
    cases hshows with
    | idle f rem n _ htotal => exact congrArg finite htotal.symm
    | accepted f rem n _ a _ htotal => exact congrArg finite htotal.symm
    | settling f rem n rs r mark _ htotal =>
      show finite f = finite (committedTotal (rs ++ [r]).dropLast)
      rw [List.dropLast_concat, htotal]
  left := h.left

/-- Over any crashes and restarts the running total is that of the committed rounds, as long as the
quantity of every V1 quote that goes to settlement can be read. -/
theorem FillWorld.booked_of_reads {w₀ : FillWorld} (hbegins : w₀.Begins params)
    (run : Reachable (fun w e => w.Allows params e ∧ w.Reads params e) (·.apply params) w₀ w) :
    w.Booked := by
  have hinv : FillInv params (fun _ _ => True) w :=
    run.invariant _ (.begins hbegins) fun w e hinv hallowed =>
      hinv.apply (fun _ _ _ => True.intro) hallowed.1 hallowed.2
        fun _ _ _ _ _ _ _ _ _ _ _ _ _ _ _ => True.intro
  exact hinv.booked

/-! ### Concrete runs -/

def tenBaseOrder : FillParams :=
  ⟨.buy, "BTC-USD", finite 10, some (finite 2), finite 1, finite 10, false⟩

def worldAfter (events : List FillEvent) : FillWorld :=
  events.foldl (·.apply tenBaseOrder) ⟨none, none, [], [], []⟩

def plainAnswer : QuoteAnswers :=
  ⟨.error "not asked", .ok ⟨[⟨"q1", "1", "10"⟩], []⟩, .error "not asked"⟩

/-- The loop crashes while a settle runs, and a restart finds that it committed. -/
def crashedRun : List FillEvent :=
  [.start true (.notEstablished "") true, .quote plainAnswer,
    .settleStart "p1" none 10 true true, .stop, .start true (.committed 8) true]

theorem booked_after_crash : (worldAfter crashedRun).Booked ∧
    (worldAfter crashedRun).loop = some ⟨finite 10, finite 0, 1, .idle⟩ := by
  have haccepted : (worldAfter (crashedRun.take 2)).loop = some ⟨finite 0, finite 10, 1,
      .accepted ⟨⟨"q1", "1", "10"⟩, finite 10, finite 2⟩⟩ := by decide +kernel
  have hten : number "10" = some 10 := by decide +kernel
  have hround : (worldAfter (crashedRun.take 4)).rounds =
      [⟨⟨⟨"q1", "1", "10"⟩, finite 10, finite 2⟩, 10, true⟩] := by decide +kernel
  have hrun : Reachable
      (fun w e => FillWorld.Allows tenBaseOrder w e ∧ FillWorld.Reads tenBaseOrder w e)
      (·.apply tenBaseOrder) (worldAfter []) (worldAfter []) := .start
  replace hrun := hrun.step (e := FillEvent.start true (.notEstablished "") true)
    ⟨fun r hr => (by cases hr), True.intro⟩
  replace hrun := hrun.step (e := FillEvent.quote plainAnswer) ⟨True.intro, True.intro⟩
  replace hrun := hrun.step (e := FillEvent.settleStart "p1" none 10 true true) (by
    refine ⟨fun p a hp ha q hq => ?_, fun _ p a hp ha => ⟨10, ?_⟩⟩ <;>
      obtain rfl := Option.some.inj (haccepted.symm.trans hp) <;> cases ha
    · exact Option.some.inj (hten.symm.trans hq)
    · exact hten)
  replace hrun := hrun.step (e := FillEvent.stop) ⟨True.intro, True.intro⟩
  replace hrun := hrun.step (e := FillEvent.start true (.committed 8) true) (by
    refine ⟨fun r hr => ?_, True.intro⟩
    have hlast := congrArg List.getLast? hround
    obtain rfl := Option.some.inj (hlast.symm.trans hr)
    rfl)
  have hbegins : (worldAfter []).Begins tenBaseOrder := ⟨⟨none, rfl⟩, rfl⟩
  exact ⟨FillWorld.booked_of_reads hbegins hrun, by decide +kernel⟩

/-- A decimal number may have underscores, a float may not. -/
def underscoredAnswer : QuoteAnswers :=
  ⟨.error "not asked", .ok ⟨[⟨"q1", "1", "1_0"⟩], []⟩, .error "not asked"⟩

def underscoredRun : List FillEvent :=
  [.start true (.notEstablished "") true, .quote underscoredAnswer,
    .settleStart "p1" none 10 true true, .settleEnd (.v1 .ok) true, .quote underscoredAnswer]

/-- A committed round of 10 counts as 0, and the same 10 are bought again. -/
theorem buys_underscored_quantity_again : ∃ params w₀ w, FillWorld.Begins params w₀ ∧
    Reachable (fun w e => FillWorld.Allows params w e) (·.apply params) w₀ w ∧
    committedTotal w.rounds = 10 ∧
    (∃ p a, w.loop = some p ∧ p.stage = .accepted a ∧ p.filled = finite 0 ∧
      a.requested = finite 10) ∧
    ¬ w.Booked := by
  have hbegins : (worldAfter []).Begins tenBaseOrder := ⟨⟨none, rfl⟩, rfl⟩
  have haccepted : (worldAfter (underscoredRun.take 2)).loop = some ⟨finite 0, finite 10, 1,
      .accepted ⟨⟨"q1", "1", "1_0"⟩, finite 10, finite 2⟩⟩ := by decide +kernel
  have hround : (worldAfter (underscoredRun.take 3)).rounds =
      [⟨⟨⟨"q1", "1", "1_0"⟩, finite 10, finite 2⟩, 10, true⟩] := by decide +kernel
  have hagain : (worldAfter (underscoredRun.take 5)).loop = some ⟨finite 0, finite 10, 2,
      .accepted ⟨⟨"q1", "1", "1_0"⟩, finite 10, finite 2⟩⟩ := by decide +kernel
  have htotal : committedTotal (worldAfter (underscoredRun.take 5)).rounds = 10 := by decide +kernel
  have hrun : Reachable (fun w e => FillWorld.Allows tenBaseOrder w e) (·.apply tenBaseOrder)
      (worldAfter []) (worldAfter []) := .start
  replace hrun := hrun.step (e := FillEvent.start true (.notEstablished "") true)
    fun r hr => by cases hr
  replace hrun := hrun.step (e := FillEvent.quote underscoredAnswer) True.intro
  replace hrun := hrun.step (e := FillEvent.settleStart "p1" none 10 true true) (by
    rintro p a hp ha q hq
    obtain rfl := Option.some.inj (haccepted.symm.trans hp)
    cases ha
    have hnone : number "1_0" = none := by decide +kernel
    cases hnone.symm.trans hq)
  replace hrun := hrun.step (e := FillEvent.settleEnd (.v1 .ok) true) (by
    refine ⟨rfl, fun r hr => ?_⟩
    have hlast := congrArg List.getLast? hround
    obtain rfl := Option.some.inj (hlast.symm.trans hr)
    exact ⟨rfl, fun base hbase => by cases hbase⟩)
  replace hrun := hrun.step (e := FillEvent.quote underscoredAnswer) True.intro
  refine ⟨tenBaseOrder, _, worldAfter (underscoredRun.take 5), hbegins, hrun, htotal,
    ⟨_, _, hagain, rfl, rfl, rfl⟩, fun hbooked => ?_⟩
  have hfilled := hbooked.running _ hagain
  simp [htotal] at hfilled

end BookAgent.CloudAgent
