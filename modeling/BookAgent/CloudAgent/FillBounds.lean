import BookAgent.CloudAgent.FillRuns

/-!
# What a fill may trade

The loop asks for at most what remains, but takes the quantity of the quote that it picks as
it stands, and ranks a price that it cannot read. So the order's amount and limit bound the
committed rounds only where every quote within the limit names its price, and a quantity
within what it was asked for.
-/

namespace BookAgent.CloudAgent

open BookAgent.Lib BookAgent.AgentLogic

open ExactFloat (finite parse number)

/-! ## The bounds and the condition -/

/-- An accepted quote has a price on the user's side of the limit, and no more than the quantity it
was requested for. -/
structure AcceptedQuote.Within (params : FillParams) (a : AcceptedQuote) : Prop where
  price : ∃ price, number a.quote.price = some price ∧
    withinLimit params.direction a.limit (finite price) = true
  limit : ∀ limit, params.priceLimit = some limit → a.limit = limit
  quantity : ∃ qty amount, number a.quote.quantity = some qty ∧ a.requested = finite amount ∧
    qty ≤ sentAmount amount

/-- The committed rounds stay within the order, and every accepted quote within its round. -/
structure FillWorld.Bounded (params : FillParams) (w : FillWorld) : Prop where
  total : w.rounds ≠ [] → ∃ total, params.totalAmount = finite total ∧
    committedTotal w.rounds ≤ total
  accepted : ∀ a ∈ w.accepted, a.Within params

/-- The quote names its price and a quantity within what was asked for, also as it was sent. -/
def QuoteInfo.Fits (quote : QuoteInfo) (requested : ExactFloat) : Prop :=
  (∃ price, number quote.price = some price) ∧
    ∃ qty, number quote.quantity = some qty ∧
      ∀ amount, requested = finite amount → qty ≤ amount ∧ qty ≤ sentAmount amount

/-- Every quote within the limit fits what it answers. -/
def QuoteAnswers.Fair (params : FillParams) (remaining : ExactFloat) (answers : QuoteAnswers) :
    Prop :=
  ∀ request limit r, requestAmount params remaining = some request →
    roundLimit params answers.price = some limit → answers.first = .ok r →
    (∀ q ∈ r.quotes, acceptable params.direction limit q = true → q.Fits request) ∧
    ∀ adapted r', adaptedMax params request r.maxQuantities = some adapted →
      answers.retry = .ok r' →
      ∀ q ∈ r'.quotes, acceptable params.direction limit q = true → q.Fits adapted

def FillWorld.Fair (params : FillParams) (w : FillWorld) : FillEvent → Prop
  | .quote answers => ∀ p, w.loop = some p → answers.Fair params p.remaining
  | _ => True

/-! ## Choosing a quote -/

variable {params : FillParams} {w : FillWorld}

theorem foldl_choose_mem {α : Type} (choose : α → α → α)
    (hchoose : ∀ best x, choose best x = best ∨ choose best x = x) (q : α) (quotes : List α) :
    quotes.foldl choose q = q ∨ quotes.foldl choose q ∈ quotes := by
  induction quotes generalizing q with
  | nil => exact .inl rfl
  | cons x quotes ih =>
    rw [List.foldl_cons]
    rcases ih (choose q x) with heq | hmem
    · rw [heq]
      rcases hchoose q x with hq | hx
      · exact .inl hq
      · exact .inr (by simp [hx])
    · exact .inr (List.mem_cons_of_mem x hmem)

theorem pickBest_mem {direction : FillDirection} {quotes : List QuoteInfo} {q : QuoteInfo}
    (h : pickBest direction quotes = some q) : q ∈ quotes := by
  cases quotes with
  | nil => cases h
  | cons x quotes =>
    obtain rfl := Option.some.inj h
    refine List.mem_cons.mpr (foldl_choose_mem _ (fun best x => ?_) x quotes)
    cases direction <;> dsimp only <;> split
    · exact .inr rfl
    · exact .inl rfl
    · exact .inl rfl
    · exact .inr rfl

theorem pickBest_filter {direction : FillDirection} {limit : ExactFloat} {quotes : List QuoteInfo}
    {q : QuoteInfo}
    (h : pickBest direction (quotes.filter (acceptable direction limit)) = some q) :
    q ∈ quotes ∧ acceptable direction limit q = true :=
  List.mem_filter.mp (pickBest_mem h)

theorem betterHint_le {best : Option ExactFloat} {hint : Option String} {v : ExactFloat}
    (hbest : ∀ v, best = some v → params.minSettlement.le v = true)
    (h : betterHint params best hint = some v) : params.minSettlement.le v = true := by
  unfold betterHint at h
  split at h
  · next x hx =>
    split at h
    · next hle =>
      obtain rfl := Option.some.inj h
      cases best with
      | none => exact hle
      | some current =>
        show params.minSettlement.le (current.max x) = true
        rcases current.max_eq_or x with hcurrent | hx
        · rw [hcurrent]
          exact hbest current rfl
        · rw [hx]
          exact hle
    · exact hbest v h
  · exact hbest v h

/-- A size hint of use is at least the minimum and below what was asked for. -/
theorem adaptedMax_bounds {request v : ExactFloat} {hints : List (Option String)}
    (h : adaptedMax params request hints = some v) :
    params.minSettlement.le v = true ∧ v.lt request = true := by
  obtain ⟨hbest, hlt⟩ := Option.filter_eq_some_iff.mp h
  refine ⟨?_, hlt⟩
  have hfold : ∀ (hints : List (Option String)) (best : Option ExactFloat),
      (∀ v, best = some v → params.minSettlement.le v = true) →
      ∀ v, hints.foldl (betterHint params) best = some v → params.minSettlement.le v = true := by
    intro hints
    induction hints with
    | nil => exact fun best hbest => hbest
    | cons hint hints ih => exact fun best hbest => ih _ fun v hv => betterHint_le hbest hv
  exact hfold hints none (fun v hv => by cases hv) v hbest

/-- What an accepted quote answers: the request, or the retry with an adapted amount. -/
theorem quoteRound_spec {request : ExactFloat} {answers : QuoteAnswers} {a : AcceptedQuote}
    (h : quoteRound params request answers = some a) :
    roundLimit params answers.price = some a.limit ∧
      acceptable params.direction a.limit a.quote = true ∧
      ∃ r, answers.first = .ok r ∧
        (a.quote ∈ r.quotes ∧ a.requested = request ∨
          adaptedMax params request r.maxQuantities = some a.requested ∧
            ∃ r', answers.retry = .ok r' ∧ a.quote ∈ r'.quotes) := by
  unfold quoteRound at h
  obtain ⟨limit, hlimit, h⟩ := Option.bind_eq_some_iff.mp h
  obtain ⟨⟨quote, requested⟩, hchoose, h⟩ := Option.bind_eq_some_iff.mp h
  obtain rfl := Option.some.inj h
  refine ⟨hlimit, ?_⟩
  unfold chooseQuote at hchoose
  split at hchoose
  · cases hchoose
  · next r hfirst =>
    split at hchoose
    · next best hbest =>
      cases hchoose
      obtain ⟨hmem, hacceptable⟩ := pickBest_filter hbest
      exact ⟨hacceptable, r, hfirst, .inl ⟨hmem, rfl⟩⟩
    · split at hchoose
      · next adapted r' hadapted hretry =>
        obtain ⟨best, hbest, heq⟩ := Option.map_eq_some_iff.mp hchoose
        cases heq
        obtain ⟨hmem, hacceptable⟩ := pickBest_filter hbest
        exact ⟨hacceptable, r, hfirst, .inr ⟨hadapted, r', hretry, hmem⟩⟩
      · cases hchoose

/-! ## Amounts within what remains -/

theorem finite_of_isFinite {x : ExactFloat} (h : x.isFinite = true) : ∃ q, x = finite q := by
  cases x with
  | finite q => exact ⟨q, rfl⟩
  | inf s => cases h
  | nan => cases h

/-- Checked parameters are finite. -/
theorem isFinite_of_validateParams (h : validateParams params = .ok ()) :
    params.minSettlement.isFinite = true ∧ params.maxSettlement.isFinite = true := by
  unfold validateParams at h
  dsimp only at h
  split at h
  · cases h
  · next hfind =>
    have hall := List.find?_eq_none.mp hfind
    have hmin := hall ("min_settlement", some params.minSettlement) (by simp)
    have hmax := hall ("max_settlement", some params.maxSettlement) (by simp)
    simp only [Option.any_some, Bool.not_eq_true, Bool.not_eq_false', Bool.and_eq_true] at hmin hmax
    exact ⟨hmin.1, hmax.1⟩

theorem requestAmount_finite (hvalid : validateParams params = .ok ()) {rem : ℚ}
    {request : ExactFloat} (h : requestAmount params (finite rem) = some request) :
    ∃ amount, request = finite amount ∧ amount ≤ rem := by
  obtain ⟨largest, hlargest⟩ := finite_of_isFinite (isFinite_of_validateParams hvalid).2
  unfold requestAmount at h
  dsimp only at h
  split at h
  · cases h
  · obtain rfl := Option.some.inj h
    rw [hlargest, ExactFloat.min_finite]
    exact ⟨_, rfl, min_le_left rem largest⟩

theorem adaptedMax_finite (hvalid : validateParams params = .ok ()) {amount : ℚ}
    {v : ExactFloat} {hints : List (Option String)}
    (h : adaptedMax params (finite amount) hints = some v) : ∃ q, v = finite q ∧ q ≤ amount := by
  obtain ⟨least, hleast⟩ := finite_of_isFinite (isFinite_of_validateParams hvalid).1
  obtain ⟨hle, hlt⟩ := adaptedMax_bounds h
  rw [hleast] at hle
  cases v with
  | finite q => exact ⟨q, rfl, (ExactFloat.lt_finite.mp hlt).le⟩
  | inf negative =>
    cases negative with
    | false => cases hlt
    | true => cases hle
  | nan => cases hle

/-- A fair round requests a finite amount within what remains, and its quote fits it. -/
theorem QuoteAnswers.Fair.accepted (hvalid : validateParams params = .ok ()) {rem : ℚ}
    {request : ExactFloat} {answers : QuoteAnswers} {a : AcceptedQuote}
    (hfair : answers.Fair params (finite rem))
    (hrequest : requestAmount params (finite rem) = some request)
    (h : quoteRound params request answers = some a) :
    a.quote.Fits a.requested ∧ ∃ amount, a.requested = finite amount ∧ amount ≤ rem := by
  obtain ⟨hlimit, hacceptable, r, hfirst, hfrom⟩ := quoteRound_spec h
  obtain ⟨hfits, hretryFits⟩ := hfair request a.limit r hrequest hlimit hfirst
  obtain ⟨amount, rfl, hle⟩ := requestAmount_finite hvalid hrequest
  rcases hfrom with ⟨hmem, hrequested⟩ | ⟨hadapted, r', hretry, hmem⟩
  · rw [hrequested]
    exact ⟨hfits a.quote hmem hacceptable, amount, rfl, hle⟩
  · obtain ⟨q, hq, hqle⟩ := adaptedMax_finite hvalid hadapted
    exact ⟨hretryFits a.requested r' hadapted hretry a.quote hmem hacceptable, q, hq,
      hqle.trans hle⟩

/-- The quote is within its round. -/
theorem QuoteAnswers.Fair.within (hvalid : validateParams params = .ok ()) {rem : ℚ}
    {request : ExactFloat} {answers : QuoteAnswers} {a : AcceptedQuote}
    (hfair : answers.Fair params (finite rem))
    (hrequest : requestAmount params (finite rem) = some request)
    (h : quoteRound params request answers = some a) : a.Within params := by
  obtain ⟨⟨⟨price, hprice⟩, qty, hqty, hbounds⟩, amount, hamount, -⟩ :=
    hfair.accepted hvalid hrequest h
  obtain ⟨hlimit, hacceptable, -⟩ := quoteRound_spec h
  refine ⟨⟨price, hprice, ?_⟩, fun limit hgiven => ?_, ⟨qty, amount, hqty, hamount, ?_⟩⟩
  · rwa [acceptable, ExactFloat.parse_of_number hprice] at hacceptable
  · unfold roundLimit at hlimit
    rw [hgiven] at hlimit
    exact (Option.some.inj hlimit).symm
  · exact (hbounds amount hamount).2

/-! ## Runs -/

/-- A loop holds an accepted quote. -/
def FillWorld.Holds (w : FillWorld) (a : AcceptedQuote) : Prop :=
  ∃ p, w.loop = some p ∧ p.stage = .accepted a

namespace FillWorld

theorem not_holds_of_idle {w : FillWorld} {filled remaining : ExactFloat} {n : Nat}
    (h : w.loop = some ⟨filled, remaining, n, .idle⟩) (a : AcceptedQuote) : ¬ w.Holds a := by
  rintro ⟨p, hp, ha⟩
  obtain rfl := Option.some.inj (h.symm.trans hp)
  cases ha

theorem not_holds_of_none {w : FillWorld} (h : w.loop = none) (a : AcceptedQuote) : ¬ w.Holds a := by
  rintro ⟨p, hp, -⟩
  cases h.symm.trans hp

variable (params) in
theorem start_accepted (hidle : w.loop = none) (probeSaved : Bool) (check : SettleCheck)
    (saved : Bool) : (w.start params probeSaved check saved).accepted = w.accepted ∧
      ∀ a, ¬ (w.start params probeSaved check saved).Holds a := by
  have hkept := not_holds_of_none hidle
  unfold start
  split
  · exact ⟨rfl, hkept⟩
  · cases validateParams params with
    | error e => exact ⟨rfl, hkept⟩
    | ok u =>
      cases restorePlan w.file params with
      | refuse id qty round => exact ⟨rfl, hkept⟩
      | fresh =>
        dsimp only
        split
        · exact ⟨rfl, hkept⟩
        · exact ⟨rfl, not_holds_of_idle rfl⟩
      | resume remaining filled round =>
        dsimp only
        split
        · exact ⟨rfl, hkept⟩
        · exact ⟨rfl, not_holds_of_idle rfl⟩
      | resolve id qty remaining filled round =>
        dsimp only
        split
        · exact ⟨rfl, hkept⟩
        · cases check with
          | committed stage => exact ⟨save_accepted .., not_holds_of_idle rfl⟩
          | ended stage => exact ⟨save_accepted .., not_holds_of_idle rfl⟩
          | notEstablished why => exact ⟨rfl, not_holds_of_none hidle⟩

variable (params w) in
theorem settleEnd_accepted (p : FillProgress) (b : AcceptedQuote) (mark : UnresolvedRound)
    (e : SettleEnd) (saved : Bool) :
    (w.settleEnd params p b mark e saved).accepted = w.accepted ∧
      ∀ a, ¬ (w.settleEnd params p b mark e saved).Holds a := by
  unfold settleEnd
  dsimp only
  have hcleared : (if e.nothingCommitted then
      w.save saved (fillSnapshot params p.filled p.remaining p.round none) else w).accepted =
      w.accepted := by
    split
    · exact save_accepted ..
    · rfl
  cases afterSettle b.quote e with
  | fills qty => exact ⟨(save_accepted ..).trans hcleared, not_holds_of_idle rfl⟩
  | goesOn => exact ⟨hcleared, not_holds_of_idle rfl⟩
  | exits => exact ⟨hcleared, not_holds_of_none rfl⟩
  | exitsMarked => exact ⟨(save_accepted ..).trans hcleared, not_holds_of_none rfl⟩

variable (params w) in
/-- Only a round with a quote accepts one more. -/
theorem quote_accepted {p : FillProgress} (hidle : p.stage = .idle) (answers : QuoteAnswers) :
    ((w.quote params p answers).accepted = w.accepted ∧
      ∀ a, ¬ (w.quote params p answers).Holds a) ∨
    ∃ request a, requestAmount params p.remaining = some request ∧
      quoteRound params request answers = some a ∧
      (w.quote params p answers).accepted = w.accepted ++ [a] ∧
      ∀ b, (w.quote params p answers).Holds b → b = a := by
  obtain ⟨filled, remaining, n, stage⟩ := p
  obtain rfl : stage = .idle := hidle
  unfold quote
  split
  · exact .inl ⟨rfl, not_holds_of_none rfl⟩
  · dsimp only
    cases hrequest : requestAmount params remaining with
    | none => exact .inl ⟨rfl, not_holds_of_none rfl⟩
    | some request =>
      dsimp only
      cases hround : quoteRound params request answers with
      | none => exact .inl ⟨rfl, not_holds_of_idle rfl⟩
      | some a =>
        refine .inr ⟨request, a, rfl, hround, rfl, ?_⟩
        rintro b ⟨p, hp, hb⟩
        obtain rfl := Option.some.inj hp
        cases hb
        rfl

end FillWorld

/-- Every accepted quote is within its round, the one that the loop holds too. -/
structure AcceptedWithin (params : FillParams) (w : FillWorld) : Prop where
  all : ∀ a ∈ w.accepted, a.Within params
  held : ∀ a, w.Holds a → a.Within params

theorem AcceptedWithin.begins (h : w.Begins params) : AcceptedWithin params w := by
  obtain ⟨⟨file, rfl⟩, -⟩ := h
  refine ⟨fun a ha => ?_, fun a ha => absurd ha (FillWorld.not_holds_of_none rfl a)⟩
  cases ha

theorem AcceptedWithin.of_dropped {w' : FillWorld} (h : AcceptedWithin params w)
    (haccepted : w'.accepted = w.accepted) (hdropped : ∀ a, ¬ w'.Holds a) :
    AcceptedWithin params w' := by
  refine ⟨fun a ha => ?_, fun a ha => absurd ha (hdropped a)⟩
  rw [haccepted] at ha
  exact h.all a ha

theorem AcceptedWithin.apply (h : AcceptedWithin params w) {e : FillEvent}
    (hquote : ∀ answers p request a, e = .quote answers → w.loop = some p →
      requestAmount params p.remaining = some request →
      quoteRound params request answers = some a → a.Within params) :
    AcceptedWithin params (w.apply params e) := by
  unfold FillWorld.apply
  split
  · next hidle =>
    obtain ⟨haccepted, hdropped⟩ := FillWorld.start_accepted params hidle _ _ _
    exact h.of_dropped haccepted hdropped
  · next answers p hp =>
    split
    · next hstage =>
      rcases FillWorld.quote_accepted params w hstage answers with
        ⟨haccepted, hdropped⟩ | ⟨request, a, hrequest, hround, haccepted, hheld⟩
      · exact h.of_dropped haccepted hdropped
      · have hwithin := hquote answers p request a rfl hp hrequest hround
        refine ⟨fun b hb => ?_, fun b hb => hheld b hb ▸ hwithin⟩
        rw [haccepted] at hb
        rcases List.mem_append.mp hb with hb | hb
        · exact h.all b hb
        · rw [List.mem_singleton.mp hb]
          exact hwithin
    · exact h
  · next exits p hp =>
    split
    · refine h.of_dropped rfl ?_
      cases exits with
      | true => exact FillWorld.not_holds_of_none rfl
      | false => exact FillWorld.not_holds_of_idle rfl
    · exact h
  · next id envelopeBase base commits saved p hp =>
    split
    · next a hstage =>
      unfold FillWorld.settleStart
      dsimp only
      split
      · refine h.of_dropped rfl ?_
        rintro a ⟨p, hp, ha⟩
        obtain rfl := Option.some.inj hp
        cases ha
      · exact h.of_dropped rfl (FillWorld.not_holds_of_none rfl)
    · exact h
  · next e saved p hp =>
    split
    · next a mark hstage =>
      obtain ⟨haccepted, hdropped⟩ :=
        FillWorld.settleEnd_accepted params w p a mark e saved
      exact h.of_dropped haccepted hdropped
    · exact h
  · exact h.of_dropped rfl (FillWorld.not_holds_of_none rfl)
  · exact h

/-- What is filled and what remains make up the order. -/
def WithinOrder (params : FillParams) (filled remaining : ℚ) : Prop :=
  validateParams params = .ok () ∧ params.totalAmount = finite (filled + remaining) ∧ 0 ≤ remaining

theorem FillInv.total (h : FillInv params (WithinOrder params) w) (hrounds : w.rounds ≠ []) :
    ∃ total, params.totalAmount = finite total ∧ committedTotal w.rounds ≤ total := by
  have hfile := h.file
  generalize w.file = file at hfile
  generalize w.rounds = rounds at hfile hrounds
  cases hfile with
  | foreign => exact absurd rfl hrounds
  | counted f rem n _ htotal hkeeps =>
    obtain ⟨-, hamount, hrem⟩ := hkeeps
    exact ⟨f + rem, hamount, by linarith⟩
  | marked f rem n mark rs r hpos htotal hkeeps hmark hround =>
    obtain ⟨-, hamount, hrem⟩ := hround
    refine ⟨_, hamount, ?_⟩
    cases hcommits : r.commits with
    | false =>
      obtain ⟨-, hbefore, -⟩ := hkeeps
      have heq := ExactFloat.finite.inj (hamount.symm.trans hbefore)
      rw [committedTotal_append_of_not rs hcommits]
      linarith
    | true =>
      rw [committedTotal_append_of_commits rs hcommits]
      linarith

theorem FillInv.progress {Keeps : ℚ → ℚ → Prop} (h : FillInv params Keeps w) {p : FillProgress}
    (hp : w.loop = some p) : ∃ f rem, p.remaining = finite rem ∧ Keeps f rem := by
  have hshows := h.loop p hp
  generalize w.rounds = rounds at hshows
  cases hshows with
  | idle f rem n _ htotal hkeeps => exact ⟨f, rem, rfl, hkeeps⟩
  | accepted f rem n _ a _ htotal hkeeps => exact ⟨f, rem, rfl, hkeeps⟩
  | settling f rem n rs r mark _ htotal hkeeps => exact ⟨f, rem, rfl, hkeeps⟩

/-- A fair event keeps both. -/
theorem FillInv.apply_fair (hinv : FillInv params (WithinOrder params) w)
    (hwithin : AcceptedWithin params w) {e : FillEvent} (hallows : w.Allows params e)
    (hfair : w.Fair params e) :
    FillInv params (WithinOrder params) (w.apply params e) ∧
      AcceptedWithin params (w.apply params e) := by
  constructor
  · refine hinv.apply (fun hvalid t ht => ?_) hallows ?_ ?_
    · obtain ⟨t', ht', hpos⟩ := finite_of_validateParams hvalid
      obtain rfl := ExactFloat.finite.inj (ht'.symm.trans ht)
      exact ⟨hvalid, by rw [ht, zero_add], hpos.le⟩
    · cases e with
      | settleStart id envelopeBase base commits saved =>
        rintro - p a hp ha
        obtain ⟨qty, -, hqty, -⟩ := (hwithin.held a ⟨p, hp, ha⟩).quantity
        exact ⟨qty, hqty⟩
      | _ => exact True.intro
    · rintro answers rfl p f rem request a hp - ⟨hvalid, hamount, -⟩ hrem hrequest hround q hq
      have hfairP := hfair p hp
      rw [hrem] at hfairP hrequest
      obtain ⟨⟨-, qty, hqty, hbounds⟩, amount, hrequested, hle⟩ :=
        hfairP.accepted hvalid hrequest hround
      have hqle := (hbounds amount hrequested).1
      rw [hq qty hqty]
      refine ⟨hvalid, ?_, by linarith⟩
      rw [hamount, add_add_sub_cancel]
  · refine hwithin.apply ?_
    rintro answers p request a rfl hp hrequest hround
    obtain ⟨f, rem, hrem, hvalid, -⟩ := hinv.progress hp
    have hfairP := hfair p hp
    rw [hrem] at hfairP hrequest
    exact hfairP.within hvalid hrequest hround

/-- In every run whose quotes fit what they answer, the committed rounds stay within the order and
every accepted quote within its round. -/
theorem FillWorld.bounded_of_fair {w₀ : FillWorld} (hbegins : w₀.Begins params)
    (run : Reachable (fun w e => w.Allows params e ∧ w.Fair params e) (·.apply params) w₀ w) :
    w.Bounded params := by
  obtain ⟨hinv, hwithin⟩ := run.invariant
    (fun w => FillInv params (WithinOrder params) w ∧ AcceptedWithin params w)
    ⟨.begins hbegins, .begins hbegins⟩
    fun w e hinv hallowed => hinv.1.apply_fair hinv.2 hallowed.1 hallowed.2
  exact ⟨hinv.total, hwithin.all⟩

/-! ### Concrete runs -/

/-- One round of the whole order. -/
def wholeRun : List FillEvent :=
  [.start true (.notEstablished "") true, .quote plainAnswer,
    .settleStart "p1" none 10 true true]

theorem bounded_after_whole_round : (worldAfter wholeRun).Bounded tenBaseOrder ∧
    committedTotal (worldAfter wholeRun).rounds = 10 := by
  have hten : number "10" = some 10 := by decide +kernel
  have hidle : (worldAfter (wholeRun.take 1)).loop = some ⟨finite 0, finite 10, 0, .idle⟩ := by
    decide +kernel
  have haccepted : (worldAfter (wholeRun.take 2)).loop = some ⟨finite 0, finite 10, 1,
      .accepted ⟨⟨"q1", "1", "10"⟩, finite 10, finite 2⟩⟩ := by decide +kernel
  have hfits : QuoteInfo.Fits ⟨"q1", "1", "10"⟩ (finite 10) := by
    refine ⟨⟨1, by decide +kernel⟩, 10, hten, fun amount hamount => ?_⟩
    obtain rfl := ExactFloat.finite.inj hamount
    exact ⟨le_rfl, by decide +kernel⟩
  have hrun : Reachable
      (fun w e => FillWorld.Allows tenBaseOrder w e ∧ FillWorld.Fair tenBaseOrder w e)
      (·.apply tenBaseOrder) (worldAfter []) (worldAfter []) := .start
  replace hrun := hrun.step (e := FillEvent.start true (.notEstablished "") true)
    ⟨fun r hr => (by cases hr), True.intro⟩
  replace hrun := hrun.step (e := FillEvent.quote plainAnswer) (by
    refine ⟨True.intro, fun p hp request limit r hrequest hlimit hfirst => ?_⟩
    obtain rfl := Option.some.inj (hidle.symm.trans hp)
    obtain rfl : finite 10 = request := by
      have hten : requestAmount tenBaseOrder (finite 10) = some (finite 10) := by decide +kernel
      exact Option.some.inj (hten.symm.trans hrequest)
    cases hfirst
    refine ⟨fun q hq _ => ?_, fun adapted r' hadapted => ?_⟩
    · rw [List.mem_singleton.mp hq]
      exact hfits
    · cases hadapted)
  replace hrun := hrun.step (e := FillEvent.settleStart "p1" none 10 true true) (by
    refine ⟨fun p a hp ha q hq => ?_, True.intro⟩
    obtain rfl := Option.some.inj (haccepted.symm.trans hp)
    cases ha
    exact Option.some.inj (hten.symm.trans hq))
  have hbegins : (worldAfter []).Begins tenBaseOrder := ⟨⟨none, rfl⟩, rfl⟩
  exact ⟨FillWorld.bounded_of_fair hbegins hrun, by decide +kernel⟩

/-- A price that is no number, and a hundred times what is asked for. -/
def greedyAnswer : QuoteAnswers :=
  ⟨.error "not asked", .ok ⟨[⟨"q1", "free", "1000"⟩], []⟩, .error "not asked"⟩

def greedyRun : List FillEvent :=
  [.start true (.notEstablished "") true, .quote greedyAnswer,
    .settleStart "p1" none 1000 true true]

/-- An order of 10 with a limit buys 1000 for a price that nobody can read. -/
theorem buys_beyond_order_and_limit : ∃ params w₀ w, FillWorld.Begins params w₀ ∧
    Reachable (fun w e => FillWorld.Allows params w e) (·.apply params) w₀ w ∧
    params.totalAmount = finite 10 ∧ committedTotal w.rounds = 1000 ∧
    (∃ a ∈ w.accepted, parse a.quote.price = none ∧ a.requested = finite 10 ∧
      number a.quote.quantity = some 1000) ∧
    ¬ w.Bounded params := by
  have hquantity : number "1000" = some 1000 := by decide +kernel
  have haccepted : (worldAfter (greedyRun.take 2)).loop = some ⟨finite 0, finite 10, 1,
      .accepted ⟨⟨"q1", "free", "1000"⟩, finite 10, finite 2⟩⟩ := by decide +kernel
  have hall : (worldAfter greedyRun).accepted =
      [⟨⟨"q1", "free", "1000"⟩, finite 10, finite 2⟩] := by decide +kernel
  have htotal : committedTotal (worldAfter greedyRun).rounds = 1000 := by decide +kernel
  have hrounds : (worldAfter greedyRun).rounds ≠ [] := by decide +kernel
  have hrun : Reachable (fun w e => FillWorld.Allows tenBaseOrder w e) (·.apply tenBaseOrder)
      (worldAfter []) (worldAfter []) := .start
  replace hrun := hrun.step (e := FillEvent.start true (.notEstablished "") true)
    fun r hr => by cases hr
  replace hrun := hrun.step (e := FillEvent.quote greedyAnswer) True.intro
  replace hrun := hrun.step (e := FillEvent.settleStart "p1" none 1000 true true) (by
    rintro p a hp ha q hq
    obtain rfl := Option.some.inj (haccepted.symm.trans hp)
    cases ha
    exact Option.some.inj (hquantity.symm.trans hq))
  refine ⟨tenBaseOrder, _, worldAfter greedyRun, ⟨⟨none, rfl⟩, rfl⟩, hrun, rfl, htotal,
    ⟨_, by rw [hall]; exact List.mem_singleton.mpr rfl, by decide +kernel, rfl, hquantity⟩,
    fun hbounded => ?_⟩
  obtain ⟨total, hamount, hle⟩ := hbounded.total hrounds
  obtain rfl := ExactFloat.finite.inj hamount
  rw [htotal] at hle
  exact absurd hle (by decide +kernel)

end BookAgent.CloudAgent
