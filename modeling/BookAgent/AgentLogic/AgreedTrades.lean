import BookAgent.AgentLogic.Admission

/-!
# Adopted proposals are agreed trades

A proposal with an order match is adopted through the order it names for the agent's
role, which the agent signed and which has the capacity left. That the order is in the
proposal's market, on the agent's side and at its price is not checked, and a quote is
matched without its direction.
-/

namespace BookAgent.AgentLogic

open BookAgent.Lib

variable {D : Type}

/-! ## What the tracker's verdicts say -/

/-- The agent signed the order, after it started. -/
def Signed [SignatureCrates] (t : OrderTracker D) (order : TrackedOrder D) : Prop :=
  (∃ key, t.privateKey = .ok key ∧ verifyOrderSignature key order.signedData order.signature = true) ∧
    t.startTimeMs < order.nonce

variable [Amount D]

/-- The requested quantity is positive and fits what is left of the order. -/
def Fits (order : TrackedOrder D) (requested : String) : Prop :=
  0 < (Amount.parseOrZero requested : D) ∧
    ∃ remaining, remainingCapacity order = some remaining ∧ Amount.parseOrZero requested ≤ remaining

theorem checkCapacity_accepted {order : TrackedOrder D} {id other : Nat} {requested : String}
    (h : checkCapacity order id requested = .accepted other) : other = id ∧ Fits order requested := by
  unfold checkCapacity at h
  by_cases hpos : (Amount.parseOrZero requested : D) ≤ 0
  · rw [if_pos hpos] at h
    cases h
  · rw [if_neg hpos] at h
    cases hrem : remainingCapacity order with
    | none =>
      rw [hrem] at h
      cases h
    | some remaining =>
      rw [hrem] at h
      dsimp only at h
      by_cases hlt : remaining < Amount.parseOrZero requested
      · rw [if_pos hlt] at h
        cases h
      · rw [if_neg hlt] at h
        cases h
        exact ⟨rfl, not_le.mp hpos, remaining, hrem, not_lt.mp hlt⟩

namespace OrderTracker

variable [SignatureCrates] {t : OrderTracker D} {p : SettlementProposal} {id : Nat}

theorem verifyTrackedOrder_accepted {order : TrackedOrder D} {other : Nat}
    (h : t.verifyTrackedOrder order p id = .accepted other) :
    other = id ∧ Signed t order ∧ Fits order p.baseQuantity := by
  unfold verifyTrackedOrder at h
  cases hkey : t.privateKey with
  | error e =>
    rw [hkey] at h
    cases h
  | ok key =>
    rw [hkey] at h
    dsimp only at h
    by_cases hsig : verifyOrderSignature key order.signedData order.signature = false
    · rw [if_pos hsig] at h
      cases h
    · rw [if_neg hsig] at h
      by_cases hnonce : order.nonce ≤ t.startTimeMs
      · rw [if_pos hnonce] at h
        cases h
      · rw [if_neg hnonce] at h
        obtain ⟨rfl, hfits⟩ := checkCapacity_accepted h
        exact ⟨rfl, ⟨⟨key, hkey, Bool.not_eq_false _ ▸ hsig⟩, not_le.mp hnonce⟩, hfits⟩

/-- A tracked order is judged without the server. -/
theorem verifyTrackedOrder_ne_lookup {other : Nat} (order : TrackedOrder D) :
    t.verifyTrackedOrder order p id ≠ .needServerLookup other := by
  intro h
  unfold verifyTrackedOrder checkCapacity at h
  dsimp only at h
  split at h
  · cases h
  · split_ifs at h
    split at h
    · cases h
    · split_ifs at h

section Settlement

open SettlementExecutor (namedOrder)

variable {party : String} {now : Instant}

/-- A match is verified through the order that it names. -/
theorem verifySettlement_named {om : OrderMatch} (hmatch : p.orderMatch = some om) :
    t.verifySettlement p party now =
      match t.orders.lookup (namedOrder p (decide (p.buyer = party))) with
      | some order => t.verifyTrackedOrder order p (namedOrder p (decide (p.buyer = party)))
      | none =>
        if t.placementInFlight p.marketId || t.submitFailedRecently p.marketId now then
          .placementInFlight (namedOrder p (decide (p.buyer = party)))
        else .needServerLookup (namedOrder p (decide (p.buyer = party))) := by
  have hnamed : namedOrder p (decide (p.buyer = party))
      = if p.buyer = party then om.bidOrderId else om.offerOrderId := by
    simp only [namedOrder, hmatch, decide_eq_true_eq]
  rw [hnamed]
  unfold verifySettlement
  generalize p.orderMatch = named at hmatch
  subst hmatch
  rfl

theorem verifySettlement_accepted (h : t.verifySettlement p party now = .accepted id) :
    id = namedOrder p (decide (p.buyer = party)) ∧
      ∃ order, t.orders.lookup id = some order ∧ Signed t order ∧ Fits order p.baseQuantity := by
  cases hmatch : p.orderMatch with
  | none =>
    rw [verifySettlement, hmatch] at h
    cases h
  | some om =>
    rw [verifySettlement_named hmatch] at h
    cases horder : t.orders.lookup (namedOrder p (decide (p.buyer = party))) with
    | none =>
      rw [horder] at h
      dsimp only at h
      split at h <;> cases h
    | some order =>
      rw [horder] at h
      obtain ⟨rfl, hsigned, hfits⟩ := verifyTrackedOrder_accepted h
      exact ⟨rfl, order, horder, hsigned, hfits⟩

theorem verifySettlement_lookup (h : t.verifySettlement p party now = .needServerLookup id) :
    id = namedOrder p (decide (p.buyer = party)) ∧ t.orders.lookup id = none := by
  cases hmatch : p.orderMatch with
  | none =>
    rw [verifySettlement, hmatch] at h
    cases h
  | some om =>
    rw [verifySettlement_named hmatch] at h
    cases horder : t.orders.lookup (namedOrder p (decide (p.buyer = party))) with
    | none =>
      rw [horder] at h
      dsimp only at h
      split at h
      · cases h
      · cases h
        exact ⟨rfl, horder⟩
    | some order =>
      rw [horder] at h
      exact absurd h (verifyTrackedOrder_ne_lookup order)

end Settlement

omit [SignatureCrates] in
/-- The order of the server is tracked once it is imported, as the server has it unless it
was tracked before. -/
theorem lookup_importOrderFromServer (order : Order) :
    ∃ tracked, (t.importOrderFromServer order).orders.lookup order.orderId = some tracked ∧
      (order.orderId ∉ t.orders → tracked.nonce = order.nonce ∧
        tracked.signature = order.signature.getD "" ∧ tracked.signedData = order.signedData) := by
  unfold importOrderFromServer
  by_cases hmem : order.orderId ∈ t.orders
  · rw [if_pos hmem]
    obtain ⟨tracked, htracked⟩ := Pool.mem_iff_lookup.mp hmem
    exact ⟨tracked, htracked, fun h => absurd hmem h⟩
  · rw [if_neg hmem]
    exact ⟨_, AList.lookup_insert _, fun _ => ⟨rfl, rfl, rfl⟩⟩

theorem verifyAndImportOrder_accepted {order : Order}
    (h : (t.verifyAndImportOrder order p).1 = .accepted id) :
    id = order.orderId ∧ ∃ tracked, (t.verifyAndImportOrder order p).2.orders.lookup id = some tracked ∧
      Fits tracked p.baseQuantity ∧ (order.orderId ∉ t.orders → Signed t tracked) := by
  unfold verifyAndImportOrder at h ⊢
  dsimp only at h ⊢
  cases hsig : order.signature.filter (· ≠ "") with
  | none =>
    rw [hsig] at h
    cases h
  | some signature =>
    rw [hsig] at h
    dsimp only at h ⊢
    cases hkey : t.privateKey with
    | error e =>
      rw [hkey] at h
      cases h
    | ok key =>
      rw [hkey] at h
      dsimp only at h ⊢
      by_cases hverify : verifyOrderSignature key order.signedData signature = false
      · rw [if_pos hverify] at h
        cases h
      by_cases hnonce : order.nonce ≤ t.startTimeMs
      · rw [if_neg hverify, if_pos hnonce] at h
        cases h
      by_cases hneg : hasNegativeAmount D order = true
      · rw [if_neg hverify, if_neg hnonce, if_pos hneg] at h
        cases h
      rw [if_neg hverify, if_neg hnonce, if_neg hneg] at h ⊢
      obtain ⟨tracked, htracked, hfresh⟩ := lookup_importOrderFromServer (t := t) order
      rw [htracked] at h ⊢
      obtain ⟨rfl, hfits⟩ := checkCapacity_accepted h
      refine ⟨rfl, tracked, htracked, hfits, fun hnew => ?_⟩
      obtain ⟨hn, hs, hd⟩ := hfresh hnew
      have given : order.signature = some signature := (Option.filter_eq_some_iff.mp hsig).1
      refine ⟨⟨key, hkey, ?_⟩, ?_⟩
      · rw [hs, hd, given]
        exact Bool.not_eq_false _ ▸ hverify
      · rw [hn]
        exact not_le.mp hnonce

omit [Amount D] in
theorem signed_congr {t' : OrderTracker D} {order : TrackedOrder D}
    (hkey : t'.privateKey = t.privateKey) (hstart : t'.startTimeMs = t.startTimeMs) :
    Signed t' order ↔ Signed t order := by
  unfold Signed
  rw [hkey, hstart]

theorem signing_verifyAndImportOrder (order : Order) :
    (t.verifyAndImportOrder order p).2.privateKey = t.privateKey ∧
      (t.verifyAndImportOrder order p).2.startTimeMs = t.startTimeMs := by
  have imported : (t.importOrderFromServer order).privateKey = t.privateKey ∧
      (t.importOrderFromServer order).startTimeMs = t.startTimeMs := by
    unfold importOrderFromServer
    split <;> exact ⟨rfl, rfl⟩
  unfold verifyAndImportOrder
  dsimp only
  split
  · exact ⟨rfl, rfl⟩
  · split
    · exact ⟨rfl, rfl⟩
    · split_ifs
      · exact ⟨rfl, rfl⟩
      · exact ⟨rfl, rfl⟩
      · exact ⟨rfl, rfl⟩
      · split <;> exact imported

omit [SignatureCrates] in
/-- An order is not tracked anew without a submit that booked it. -/
theorem orders_adoptFailedSubmit {order : Order} {now : Instant}
    (h : (t.adoptFailedSubmit order now).1 = false) :
    (t.adoptFailedSubmit order now).2.orders = t.orders ∧
      (t.adoptFailedSubmit order now).2.privateKey = t.privateKey ∧
      (t.adoptFailedSubmit order now).2.startTimeMs = t.startTimeMs := by
  unfold adoptFailedSubmit at h ⊢
  dsimp only at h ⊢
  split
  · exact ⟨rfl, rfl, rfl⟩
  · rename_i hmem
    rw [if_neg hmem] at h
    split
    · exact ⟨rfl, rfl, rfl⟩
    · rename_i pos hpos
      rw [hpos] at h
      dsimp only at h
      split
      · exact ⟨rfl, rfl, rfl⟩
      · rename_i hsubmit
        rw [hsubmit] at h
        cases h

end OrderTracker

/-! ## The verdict of the executor -/

/-- The order is in the proposal's market, on the agent's side, and its limit is kept. -/
structure InTerms (order : TrackedOrder D) (p : SettlementProposal) (isBuyer : Bool) : Prop where
  market : order.marketId = p.marketId
  side : order.orderType = if isBuyer then orderTypeBid else orderTypeOffer
  limit : ∃ price, Amount.fromStr p.settlementPrice = some price ∧
    if isBuyer then price ≤ order.price else order.price ≤ price

end BookAgent.AgentLogic

namespace BookAgent.AgentLogic.SettlementExecutor

open BookAgent.Lib

variable {D : Type} [ValuedAmount D] [SignatureCrates] {x : SettlementExecutor D}
  {p : SettlementProposal} {f : ProposalFeed D}

/-- The order the proposal names for the agent. -/
def ourOrder (x : SettlementExecutor D) (p : SettlementProposal) : Nat :=
  namedOrder p (x.config.isBuyer p)

/-- The tracker as the named order was verified in it. -/
def orderTracker (x : SettlementExecutor D) (p : SettlementProposal) (f : ProposalFeed D) :
    OrderTracker D :=
  if x.ourOrder p ∈ f.trackerSeen.orders then f.trackerSeen
  else (verifyUserOrder x.tracker p x.config.partyId (x.ourOrder p) f).2

/-- The agent did not track the order when the proposal came, and did when the server
answered. -/
def TrackedMeanwhile (x : SettlementExecutor D) (p : SettlementProposal) (f : ProposalFeed D) : Prop :=
  x.ourOrder p ∉ f.trackerSeen.orders ∧ x.ourOrder p ∈ x.tracker.orders

/-- What a verified user order is. -/
theorem verifyUserOrder_verified {t : OrderTracker D} {party : String} {id other : Nat}
    (h : (verifyUserOrder t p party id f).1 = .verified other)
    (hid : id = namedOrder p (decide (p.buyer = party))) :
    other = id ∧ ∃ order, (verifyUserOrder t p party id f).2.orders.lookup id = some order ∧
      Fits order p.baseQuantity ∧
      (id ∉ t.orders → Signed (verifyUserOrder t p party id f).2 order) := by
  unfold verifyUserOrder at h ⊢
  cases hlookup : f.lookup with
  | error e =>
    rw [hlookup] at h
    cases h
  | ok orders =>
    rw [hlookup] at h
    dsimp only at h ⊢
    cases hfind : orders.find? fun o => decide (o.orderId = id) with
    | none =>
      rw [hfind] at h
      cases h
    | some order =>
      rw [hfind] at h
      have named : order.orderId = id := by simpa using List.find?_some hfind
      dsimp only at h ⊢
      cases hadopt : t.adoptFailedSubmit order f.instant with
      | mk adopted t' =>
        rw [hadopt] at h
        dsimp only at h ⊢
        by_cases hadopted : adopted = true
        · rw [if_pos hadopted] at h ⊢
          cases hverify : t'.verifySettlement p party f.instant with
          | accepted found =>
            rw [hverify] at h
            cases h
            obtain ⟨rfl, tracked, htracked, hsigned, hfits⟩ :=
              OrderTracker.verifySettlement_accepted hverify
            rw [← hid] at htracked
            exact ⟨hid.symm, tracked, htracked, hfits, fun _ => hsigned⟩
          | rejected reason =>
            rw [hverify] at h
            cases h
          | needServerLookup found =>
            rw [hverify] at h
            cases h
          | placementInFlight found =>
            rw [hverify] at h
            cases h
        · rw [if_neg hadopted] at h ⊢
          have unadopted : (t.adoptFailedSubmit order f.instant).1 = false := by
            rw [hadopt]
            exact Bool.not_eq_true _ ▸ hadopted
          obtain ⟨horders, -, -⟩ := OrderTracker.orders_adoptFailedSubmit unadopted
          rw [hadopt] at horders
          dsimp only at horders
          cases hresult : (t'.verifyAndImportOrder order p).1 with
          | accepted found =>
            rw [hresult] at h
            cases h
            obtain ⟨rfl, tracked, htracked, hfits, hsigned⟩ :=
              OrderTracker.verifyAndImportOrder_accepted hresult
            rw [named] at htracked hsigned ⊢
            rw [horders] at hsigned
            obtain ⟨hkey, hstart⟩ := OrderTracker.signing_verifyAndImportOrder (t := t') (p := p) order
            exact ⟨rfl, tracked, htracked, hfits,
              fun hnew => (OrderTracker.signed_congr hkey hstart).mpr (hsigned hnew)⟩
          | rejected reason =>
            rw [hresult] at h
            cases h
          | needServerLookup found =>
            rw [hresult] at h
            cases h
          | placementInFlight found =>
            rw [hresult] at h
            cases h

/-- The checks accept the order that is named, which has the capacity and, unless it was
tracked meanwhile, the agent's signature. -/
theorem verifyOrderProposal_accepted {id : Nat} (h : (x.verifyOrderProposal p f).1 = .accepted id) :
    id = x.ourOrder p ∧ ∃ order, (x.orderTracker p f).orders.lookup (x.ourOrder p) = some order ∧
      Fits order p.baseQuantity ∧
      (¬ x.TrackedMeanwhile p f → Signed (x.orderTracker p f) order) := by
  unfold verifyOrderProposal at h
  unfold orderTracker
  cases hseen : f.trackerSeen.verifySettlement p x.config.partyId f.instant with
  | accepted found =>
    rw [hseen] at h
    cases h
    obtain ⟨rfl, order, horder, hsigned, hfits⟩ := OrderTracker.verifySettlement_accepted hseen
    have seen : x.ourOrder p ∈ f.trackerSeen.orders := Pool.mem_iff_lookup.mpr ⟨order, horder⟩
    rw [if_pos seen]
    exact ⟨rfl, order, horder, hfits, fun _ => hsigned⟩
  | rejected reason =>
    rw [hseen] at h
    cases h
  | placementInFlight found =>
    rw [hseen] at h
    cases h
  | needServerLookup found =>
    rw [hseen] at h
    obtain ⟨rfl, hunseen⟩ := OrderTracker.verifySettlement_lookup hseen
    have unseen : x.ourOrder p ∉ f.trackerSeen.orders := AList.lookup_eq_none.mp hunseen
    rw [if_neg unseen]
    dsimp only at h
    cases huser : verifyUserOrder x.tracker p x.config.partyId (x.ourOrder p) f with
    | mk verdict t =>
      have named : verifyUserOrder x.tracker p x.config.partyId
          (namedOrder p (decide (p.buyer = x.config.partyId))) f = (verdict, t) := huser
      rw [named] at h
      cases verdict with
      | verified other =>
        cases h
        have hverdict : (verifyUserOrder x.tracker p x.config.partyId (x.ourOrder p) f).1
            = .verified id := congrArg Prod.fst huser
        obtain ⟨rfl, order, horder, hfits, hsigned⟩ := verifyUserOrder_verified hverdict rfl
        rw [huser] at horder hsigned
        exact ⟨rfl, order, horder, hfits, fun hmeanwhile =>
          hsigned fun hmem => hmeanwhile ⟨unseen, hmem⟩⟩
      | rejected => cases h
      | lookupFailed => cases h

/-! ## Recorded trades -/

/-- The record a proposal without an order match is verified with, by the direction of its
trade: that of the proposal's id if it matches, else the first quote that does. -/
def rfqRecord (x : SettlementExecutor D) (p : SettlementProposal) : Option Bool :=
  match x.acceptedRfqTrades.bind fun trades => trades.lookup p.proposalId with
  | some trade => if trade.matches p then some trade.weBuy else none
  | none => (x.quotedRfqTrades.bind fun trades => trades.find? fun t => t.matches p).map (·.weBuy)

/-- One record with the proposal's market, price and quantities, in the given direction, is
used up, and no other. -/
def Consumes (x x' : SettlementExecutor D) (p : SettlementProposal) (weBuy : Bool) : Prop :=
  (∃ trades trade, x.acceptedRfqTrades = some trades ∧ trades.lookup p.proposalId = some trade ∧
    trade.matches p = true ∧ trade.weBuy = weBuy ∧
    x'.acceptedRfqTrades = some (trades.erase p.proposalId) ∧
    x'.quotedRfqTrades = x.quotedRfqTrades) ∨
  (∃ trades trade rest, x.quotedRfqTrades = some trades ∧ trade.matches p = true ∧
    trade.weBuy = weBuy ∧ trades.Perm (trade :: rest) ∧ x'.quotedRfqTrades = some rest ∧
    x'.acceptedRfqTrades = x.acceptedRfqTrades)

omit [ValuedAmount D] [SignatureCrates] in
/-- The trade is verified exactly if there is such a record. -/
theorem verifyRfqProposal_fst : (x.verifyRfqProposal p).1 = (x.rfqRecord p).isSome := by
  unfold verifyRfqProposal rfqRecord
  cases haccepted : x.acceptedRfqTrades.bind fun trades => trades.lookup p.proposalId with
  | some trade =>
    dsimp only
    by_cases hmatch : trade.matches p = true
    · rw [if_pos hmatch, hmatch]
      rfl
    · rw [if_neg hmatch]
      exact Bool.not_eq_true _ ▸ hmatch
  | none =>
    dsimp only
    cases hquoted : x.quotedRfqTrades with
    | none => rfl
    | some trades =>
      rw [Option.bind_some, Option.isSome_map]
      dsimp only
      cases hfind : trades.findIdx? fun t => t.matches p with
      | none =>
        have none_matches := List.findIdx?_eq_none_iff.mp hfind
        symm
        rw [Option.isSome_eq_false_iff, Option.isNone_iff_eq_none, List.find?_eq_none]
        intro trade htrade
        rw [none_matches trade htrade]
        exact Bool.false_ne_true
      | some i =>
        obtain ⟨hlt, hmatch, -⟩ := List.findIdx?_eq_some_iff_getElem.mp hfind
        symm
        rw [List.find?_isSome]
        exact ⟨trades[i], List.getElem_mem hlt, hmatch⟩

omit [ValuedAmount D] [SignatureCrates] in
theorem consumes_of_rfqRecord {weBuy : Bool} (h : x.rfqRecord p = some weBuy) :
    Consumes x (x.verifyRfqProposal p).2 p weBuy := by
  unfold rfqRecord at h
  unfold verifyRfqProposal Consumes
  cases haccepted : x.acceptedRfqTrades.bind fun trades => trades.lookup p.proposalId with
  | some trade =>
    rw [haccepted] at h
    dsimp only at h ⊢
    obtain ⟨trades, htrades, htrade⟩ := Option.bind_eq_some_iff.mp haccepted
    by_cases hmatch : trade.matches p = true
    · rw [if_pos hmatch] at h
      refine .inl ⟨trades, trade, htrades, htrade, hmatch, Option.some.inj h, ?_, rfl⟩
      rw [htrades]
      rfl
    · rw [if_neg hmatch] at h
      cases h
  | none =>
    rw [haccepted] at h
    dsimp only at h ⊢
    obtain ⟨trade, hfind, hdirection⟩ := Option.map_eq_some_iff.mp h
    obtain ⟨trades, htrades, hfirst⟩ := Option.bind_eq_some_iff.mp hfind
    rw [htrades]
    dsimp only
    cases hindex : trades.findIdx? fun t => t.matches p with
    | none =>
      have none_matches := List.findIdx?_eq_none_iff.mp hindex
      have found := List.find?_some hfirst
      rw [none_matches trade (List.mem_of_find?_eq_some hfirst)] at found
      cases found
    | some i =>
      obtain ⟨hlt, hmatch, hbefore⟩ := List.findIdx?_eq_some_iff_getElem.mp hindex
      have first : trade = trades[i] := by
        have found : trades.find? (fun t => t.matches p) = some trades[i] :=
          List.find?_eq_some_iff_getElem.mpr
            ⟨hmatch, i, hlt, rfl, fun j hj => by simpa using hbefore j hj⟩
        rw [hfirst] at found
        exact Option.some.inj found
      refine .inr ⟨trades, trades[i], swapRemove trades i, rfl, hmatch, ?_,
        perm_swapRemove trades hlt, rfl, rfl⟩
      rw [← first]
      exact hdirection

omit [ValuedAmount D] [SignatureCrates] in
/-- Verifying changes no proposal's state. -/
theorem verifyRfqProposal_frame :
    (x.verifyRfqProposal p).2.config = x.config ∧
      (x.verifyRfqProposal p).2.activeSettlements = x.activeSettlements ∧
      (x.verifyRfqProposal p).2.tracker = x.tracker := by
  unfold verifyRfqProposal
  split
  · exact ⟨rfl, rfl, rfl⟩
  · split
    · exact ⟨rfl, rfl, rfl⟩
    · split <;> exact ⟨rfl, rfl, rfl⟩

omit [ValuedAmount D] [SignatureCrates] in
/-- The direction of the record that is used up. -/
theorem consumes_unique {x' : SettlementExecutor D} {weBuy other : Bool}
    (h : Consumes x x' p weBuy) (hother : Consumes x x' p other) : weBuy = other := by
  -- a record taken from the one store leaves the other as long as it was
  have not_both {trades rest : List QuotedTrade} {trade : QuotedTrade}
      (hperm : trades.Perm (trade :: rest)) : trades ≠ rest := by
    rintro rfl
    exact absurd hperm.length_eq (Nat.ne_of_lt (Nat.lt_succ_self _))
  obtain ⟨trades, trade, htrades, htrade, -, rfl, -, hsame⟩ |
    ⟨trades, trade, rest, htrades, -, rfl, hperm, hrest, -⟩ := h
  · obtain ⟨trades', trade', htrades', htrade', -, rfl, -, -⟩ |
      ⟨trades', trade', rest, htrades', -, rfl, hperm, hrest, -⟩ := hother
    · rw [htrades] at htrades'
      obtain rfl := Option.some.inj htrades'
      rw [htrade] at htrade'
      rw [Option.some.inj htrade']
    · rw [hrest, htrades'] at hsame
      exact absurd (Option.some.inj hsame).symm (not_both hperm)
  · obtain ⟨trades', trade', htrades', -, -, rfl, -, hsame⟩ |
      ⟨trades', trade', rest', htrades', -, rfl, hperm', hrest', -⟩ := hother
    · rw [hrest, htrades] at hsame
      exact absurd (Option.some.inj hsame).symm (not_both hperm)
    · rw [htrades] at htrades'
      obtain rfl := Option.some.inj htrades'
      rw [hrest] at hrest'
      obtain rfl := Option.some.inj hrest'
      have same := Multiset.coe_eq_coe.mpr (hperm.symm.trans hperm')
      rw [← Multiset.cons_coe, ← Multiset.cons_coe, Multiset.cons_inj_left] at same
      rw [same]

/-- Verifying an order changes no proposal's record. -/
theorem settlementOrders_verifyUserOrder {t : OrderTracker D} {party : String} {id : Nat} :
    (verifyUserOrder t p party id f).2.settlementOrders = t.settlementOrders := by
  have adopted (order : Order) : (t.adoptFailedSubmit order f.instant).2.settlementOrders
      = t.settlementOrders := by
    unfold OrderTracker.adoptFailedSubmit
    dsimp only
    split
    · rfl
    · split
      · rfl
      · split <;> rfl
  have imported (t : OrderTracker D) (order : Order) :
      (t.verifyAndImportOrder order p).2.settlementOrders = t.settlementOrders := by
    have kept : (t.importOrderFromServer order).settlementOrders = t.settlementOrders := by
      unfold OrderTracker.importOrderFromServer
      split <;> rfl
    unfold OrderTracker.verifyAndImportOrder
    dsimp only
    split
    · rfl
    · split
      · rfl
      · split_ifs
        · rfl
        · rfl
        · rfl
        · split <;> exact kept
  unfold verifyUserOrder
  split
  · rfl
  · split
    · rfl
    · rename_i order _
      dsimp only
      split
      · split <;> exact adopted order
      · exact (imported _ order).trans (adopted order)

theorem verifyOrderProposal_frame :
    (x.verifyOrderProposal p f).2.tracker.settlementOrders = x.tracker.settlementOrders ∧
      (x.verifyOrderProposal p f).2.activeSettlements = x.activeSettlements := by
  unfold verifyOrderProposal
  split
  · exact ⟨rfl, rfl⟩
  · exact ⟨rfl, rfl⟩
  · exact ⟨rfl, rfl⟩
  · dsimp only
    split <;> exact ⟨settlementOrders_verifyUserOrder, rfl⟩

/-! ## Adoption -/

/-- The proposal is new, the agent's, plausible, and passes what is checked before its
terms. -/
def passesGates (x : SettlementExecutor D) (p : SettlementProposal) (f : ProposalFeed D) : Bool :=
  decide (p.proposalId ∉ x.activeSettlements) && decide (p.proposalId ∉ x.completedProposals) &&
    decide (p.proposalId ∉ x.rejectedProposals) && p.settledAt.isNone &&
    (x.config.isBuyer p || x.config.isSeller p) && (implausibleAmount D p).isNone &&
    !x.shuttingDown &&
    decide (x.pendingWith (counterparty p (x.config.isBuyer p)) < x.config.maxPendingPerCounterparty) &&
    decide (x.liquidityGate p f = .passed)

/-- The proposal was not active and is. -/
def BecomesActive (x x' : SettlementExecutor D) (p : SettlementProposal) : Prop :=
  p.proposalId ∉ x.activeSettlements ∧ p.proposalId ∈ x'.activeSettlements

omit [ValuedAmount D] [SignatureCrates] in
theorem mem_active_rejectProposal {pid : String} {sent : Bool}
    (h : pid ∈ (x.rejectProposal pid sent).activeSettlements) : sent = false ∧ pid ∈ x.activeSettlements := by
  unfold rejectProposal at h
  cases sent with
  | false => exact ⟨rfl, h⟩
  | true => exact absurd h fun hmem => (AList.mem_erase.mp hmem).1 rfl

omit [SignatureCrates] in
theorem mem_active_adopt {id : Nat} {through : Bool} :
    p.proposalId ∈ (x.adopt p id through).activeSettlements :=
  (AList.mem_insert _).mpr (.inl rfl)

section Adoption

variable (noReject : x.config.noReject = false) (rfqV2Only : x.config.rfqV2Only = false)
  (unrecorded : x.tracker.hasSettlementOrder p.proposalId = false)

include noReject rfqV2Only unrecorded

theorem handle_of_passesGates (h : x.passesGates p f = true) :
    x.handleProposalCreated p f = x.checkTerms p f := by
  unfold passesGates at h
  simp only [Bool.and_eq_true, decide_eq_true_eq, Bool.not_eq_true', Option.isNone_iff_eq_none,
    Bool.or_eq_true] at h
  obtain ⟨⟨⟨⟨⟨⟨⟨⟨hactive, hcompleted⟩, hrejected⟩, hsettled⟩, hours⟩, hplausible⟩, hrunning⟩, hcap⟩,
    hgate⟩ := h
  unfold handleProposalCreated vet
  rw [if_neg (by rintro (h | h | h) <;> contradiction), hsettled, hplausible, hrunning, noReject,
    rfqV2Only, unrecorded, hgate]
  have ours : ¬ (x.config.isBuyer p = false ∧ x.config.isSeller p = false) := by
    rintro ⟨hbuyer, hseller⟩
    rw [hbuyer, hseller] at hours
    exact hours.elim Bool.false_ne_true Bool.false_ne_true
  simp only [Option.isSome_none, Bool.false_eq_true, if_false, not_le.mpr hcap, ours]

/-- A proposal that fails a gate does not become active. -/
theorem not_active_of_gates (h : x.passesGates p f = false)
    (hactive : p.proposalId ∉ x.activeSettlements) :
    p.proposalId ∉ (x.handleProposalCreated p f).activeSettlements := by
  intro hmem
  unfold handleProposalCreated at hmem
  dsimp only at hmem
  rw [noReject, rfqV2Only, unrecorded] at hmem
  simp only [Bool.false_eq_true, if_false] at hmem
  split_ifs at hmem with hknown hsettled hours hplausible
  · exact hactive hmem
  · exact hactive hmem
  · exact hactive hmem
  · exact hactive (mem_active_rejectProposal hmem).2
  unfold vet at hmem
  dsimp only at hmem
  split_ifs at hmem with hshutting hcap
  · exact hactive (mem_active_rejectProposal hmem).2
  · exact hactive (mem_active_rejectProposal hmem).2
  cases hgate : x.liquidityGate p f with
  | held =>
    rw [hgate] at hmem
    exact hactive hmem
  | refused =>
    rw [hgate] at hmem
    exact hactive (mem_active_rejectProposal hmem).2
  | passed =>
    rw [not_or, not_or] at hknown
    have passes : x.passesGates p f = true := by
      unfold passesGates
      simp only [Bool.and_eq_true, decide_eq_true_eq, Bool.not_eq_true', Bool.or_eq_true,
        Option.isNone_iff_eq_none]
      refine ⟨⟨⟨⟨⟨⟨⟨⟨hknown.1, hknown.2.1⟩, hknown.2.2⟩, ?_⟩, ?_⟩, ?_⟩, ?_⟩, ?_⟩, hgate⟩
      · exact Option.not_isSome_iff_eq_none.mp hsettled
      · by_contra hneither
        rw [not_or] at hneither
        exact hours ⟨Bool.not_eq_true _ ▸ hneither.1, Bool.not_eq_true _ ▸ hneither.2⟩
      · exact Option.not_isSome_iff_eq_none.mp hplausible
      · exact Bool.not_eq_true _ ▸ hshutting
      · exact not_le.mp hcap
    rw [passes] at h
    cases h

/-- The proposal becomes active exactly if it passes the gates and its terms are accepted. -/
theorem becomesActive_iff :
    BecomesActive x (x.handleProposalCreated p f) p ↔ x.passesGates p f = true ∧
      match p.orderMatch with
      | none => (x.rfqRecord p).isSome = true
      | some _ => (x.verifyOrderProposal p f).1 = .accepted (x.ourOrder p) := by
  cases hgates : x.passesGates p f with
  | false =>
    constructor
    · rintro ⟨hnew, hactive⟩
      exact absurd hactive (not_active_of_gates noReject rfqV2Only unrecorded hgates hnew)
    · rintro ⟨h, -⟩
      cases h
  | true =>
    have hnew : p.proposalId ∉ x.activeSettlements := by
      unfold passesGates at hgates
      simp only [Bool.and_eq_true, decide_eq_true_eq] at hgates
      exact hgates.1.1.1.1.1.1.1.1
    unfold BecomesActive
    rw [handle_of_passesGates noReject rfqV2Only unrecorded hgates]
    simp only [hnew, not_false_eq_true, true_and]
    unfold checkTerms
    cases hmatch : p.orderMatch with
    | none =>
      dsimp only
      rw [← verifyRfqProposal_fst]
      have frame := (verifyRfqProposal_frame (x := x) (p := p)).2.1
      cases hverify : x.verifyRfqProposal p with
      | mk verified x' =>
        rw [hverify] at frame
        dsimp only at frame ⊢
        cases verified with
        | false =>
          simp only [Bool.false_eq_true, iff_false]
          intro hactive
          have hold := (mem_active_rejectProposal hactive).2
          rw [frame] at hold
          exact hnew hold
        | true =>
          simp only [iff_true]
          exact mem_active_adopt
    | some om =>
      dsimp only
      have frame := (verifyOrderProposal_frame (x := x) (p := p) (f := f)).2
      cases hverify : x.verifyOrderProposal p f with
      | mk verdict x' =>
        rw [hverify] at frame
        dsimp only at frame ⊢
        cases verdict with
        | accepted id =>
          have named := (verifyOrderProposal_accepted (congrArg Prod.fst hverify)).1
          rw [named]
          simp only [iff_true]
          exact mem_active_adopt
        | rejected =>
          simp only [reduceCtorEq, iff_false]
          intro hactive
          have hold := (mem_active_rejectProposal hactive).2
          rw [frame] at hold
          exact hnew hold
        | held =>
          simp only [reduceCtorEq, iff_false]
          rw [frame]
          exact hnew

end Adoption

/-- How a proposal that becomes active is agreed: a record of the same terms and direction is
used up, or the named order is recorded, which is in terms, signed, and has the capacity. -/
def Agreed (x : SettlementExecutor D) (p : SettlementProposal) (f : ProposalFeed D) : Prop :=
  BecomesActive x (x.handleProposalCreated p f) p →
    match p.orderMatch with
    | none => Consumes x (x.handleProposalCreated p f) p (x.config.isBuyer p)
    | some _ => ∃ order, (x.orderTracker p f).orders.lookup (x.ourOrder p) = some order ∧
        (x.handleProposalCreated p f).tracker.settlementOrders.lookup p.proposalId
          = some ⟨x.ourOrder p, Amount.parseOrZero p.baseQuantity, false⟩ ∧
        InTerms order p (x.config.isBuyer p) ∧ Signed (x.orderTracker p f) order ∧
        Fits order p.baseQuantity

/-- What the code does not check holds of the record or the order it goes by. -/
def TermsHold (x : SettlementExecutor D) (p : SettlementProposal) (f : ProposalFeed D) : Prop :=
  x.passesGates p f = true →
    match p.orderMatch with
    | none => ∀ weBuy, x.rfqRecord p = some weBuy → weBuy = x.config.isBuyer p
    | some _ => ∀ order, (x.orderTracker p f).orders.lookup (x.ourOrder p) = some order →
        (x.verifyOrderProposal p f).1 = .accepted (x.ourOrder p) →
        InTerms order p (x.config.isBuyer p) ∧
          (x.TrackedMeanwhile p f → Signed (x.orderTracker p f) order)

omit [SignatureCrates] in
/-- The recorded adoption of a proposal that was not recorded before. -/
theorem lookup_settlementOrders_adopt {id : Nat} {through : Bool}
    (h : x.tracker.settlementOrders.lookup p.proposalId = none) :
    (x.adopt p id through).tracker.settlementOrders.lookup p.proposalId
      = some ⟨id, Amount.parseOrZero p.baseQuantity, false⟩ := by
  change (x.tracker.recordSettlementOrder p.proposalId id _).settlementOrders.lookup _ = _
  unfold OrderTracker.recordSettlementOrder
  rw [if_neg (AList.lookup_eq_none.mp h)]
  exact AList.lookup_insert _

/-- A proposal that becomes active is agreed exactly if the named order is in the
proposal's market, on the agent's side and at its price, or the record it uses up was for
the agent's direction. -/
theorem agreed_iff_termsHold (noReject : x.config.noReject = false)
    (rfqV2Only : x.config.rfqV2Only = false)
    (unrecorded : x.tracker.hasSettlementOrder p.proposalId = false) :
    x.Agreed p f ↔ x.TermsHold p f := by
  have none_recorded : x.tracker.settlementOrders.lookup p.proposalId = none :=
    AList.lookup_eq_none.mpr (of_decide_eq_false unrecorded)
  unfold Agreed TermsHold
  rw [becomesActive_iff noReject rfqV2Only unrecorded]
  cases hgates : x.passesGates p f with
  | false => simp only [Bool.false_eq_true, false_and, false_implies]
  | true =>
    rw [handle_of_passesGates noReject rfqV2Only unrecorded hgates]
    simp only [true_and, true_implies]
    unfold checkTerms
    cases hmatch : p.orderMatch with
    | none =>
      dsimp only
      cases hrecord : x.rfqRecord p with
      | none => simp only [Option.isSome_none, Bool.false_eq_true, false_implies, reduceCtorEq,
          implies_true]
      | some weBuy =>
        have verified : (x.verifyRfqProposal p).1 = true := by
          rw [verifyRfqProposal_fst, hrecord]
          rfl
        have consumed := consumes_of_rfqRecord hrecord
        cases hverify : x.verifyRfqProposal p with
        | mk ok x' =>
          rw [hverify] at verified consumed
          obtain rfl : ok = true := verified
          dsimp only
          simp only [Option.isSome_some, true_implies, Option.some.injEq, forall_eq']
          constructor
          · intro agreed
            exact consumes_unique consumed agreed
          · intro direction
            rw [← direction]
            exact consumed
    | some om =>
      dsimp only
      constructor
      · intro agreed order horder haccepted
        obtain ⟨found, hfound, -, hterms, hsigned, -⟩ := agreed haccepted
        rw [horder] at hfound
        obtain rfl := Option.some.inj hfound
        exact ⟨hterms, fun _ => hsigned⟩
      · intro terms haccepted
        obtain ⟨-, order, horder, hfits, hsigned⟩ := verifyOrderProposal_accepted haccepted
        obtain ⟨hterms, hmeanwhile⟩ := terms order horder haccepted
        have frame := (verifyOrderProposal_frame (x := x) (p := p) (f := f)).1
        cases hverify : x.verifyOrderProposal p f with
        | mk verdict x' =>
          rw [hverify] at haccepted frame
          obtain rfl : verdict = .accepted (x.ourOrder p) := haccepted
          dsimp only at frame ⊢
          refine ⟨order, horder, ?_, hterms, ?_, hfits⟩
          · rw [← frame] at none_recorded
            exact lookup_settlementOrders_adopt none_recorded
          · by_cases hmem : x.TrackedMeanwhile p f
            · exact hmeanwhile hmem
            · exact hsigned hmem

end BookAgent.AgentLogic.SettlementExecutor

/-! ## An order on other terms -/

namespace BookAgent.AgentLogic.SettlementExecutor

open BookAgent.Lib

/-- Every signature verifies. -/
abbrev signedCrates : SignatureCrates where
  base64Encode bytes := String.ofList (bytes.map fun b => Char.ofNat b.toNat)
  base64Decode _ := some (List.replicate 64 0)
  ed25519Verify _ _ _ := true

section Example

local instance agreedCrates : SignatureCrates := signedCrates

/-- The agent "us" tracks order 7, a bid for 10 in market "A" at 1. -/
def bidding : SettlementExecutor Int where
  config :=
    { partyId := "us", ccTokenId := none, allocateBeforeSecs := 600, settleBeforeSecs := 1200
      maxPendingPerCounterparty := 10, rfqV2Only := false, noReject := false, maxRetries := 30
      unresolvedInstrument := fun _ => none }
  activeSettlements := ∅
  rejectedProposals := ∅
  completedProposals := ∅
  shuttingDown := false
  tracker := (OrderTracker.new 0 (.ok [])).trackOrder 7 "A" orderTypeBid "1" "10" 5 "s" []
  inProgress := ∅
  failedSettlements := ∅
  tasks := ∅
  nextTask := 0
  acceptedRfqTrades := none
  quotedRfqTrades := none
  liquidityManager := none
  releases := []
  history _ := .empty Int

/-- A trade of 4 against order 7. -/
def tradeOfFour (market buyer seller price : String) : SettlementProposal where
  proposalId := "p"
  marketId := market
  buyer := buyer
  seller := seller
  baseInstrument := "X"
  quoteInstrument := "Y"
  baseQuantity := "4"
  quoteQuantity := "20"
  settlementPrice := price
  dvpProcessingFeeBuyer := "0"
  dvpProcessingFeeSeller := "0"
  allocationProcessingFeeBuyer := "0"
  allocationProcessingFeeSeller := "0"
  status := 1
  createdAt := none
  settledAt := none
  orderMatch := some ⟨7, 7⟩
  origin := "orderbook"

def quietFeed (x : SettlementExecutor Int) : ProposalFeed Int where
  now := 0
  instant := 0
  trackerSeen := x.tracker
  rejectSent := true
  balanceStale := false
  feeCc := 0
  lookup := .error "unavailable"
  status := .error "unavailable"
  cancel := .error "unavailable"

/-- "us" buys in market "A" at 1. -/
def purchase : SettlementProposal := tradeOfFour "A" "us" "them" "1"

/-- "us" sells in market "B" at 5. -/
def saleElsewhere : SettlementProposal := tradeOfFour "B" "them" "us" "5"

def bid : TrackedOrder Int where
  orderId := 7
  marketId := "A"
  orderType := orderTypeBid
  price := 1
  quantity := 10
  settledQuantity := 0
  pendingQuantity := 0
  nonce := 5
  signature := "s"
  signedData := []
  placedBy := "agent"
  isActive := true

theorem lookup_bid : bidding.tracker.orders.lookup 7 = some bid := rfl

theorem agreed_iff_termsHold_purchase :
    BecomesActive bidding (bidding.handleProposalCreated purchase (quietFeed bidding)) purchase ∧
      bidding.Agreed purchase (quietFeed bidding) := by
  have seen : bidding.ourOrder purchase ∈ (quietFeed bidding).trackerSeen.orders :=
    Pool.mem_iff_lookup.mpr ⟨bid, lookup_bid⟩
  refine ⟨⟨by decide +kernel, by decide +kernel⟩, ?_⟩
  apply (agreed_iff_termsHold rfl rfl (by decide +kernel)).mpr
  intro _ order horder _
  unfold orderTracker at horder
  rw [if_pos seen] at horder
  obtain rfl : bid = order := Option.some.inj (lookup_bid.symm.trans horder)
  refine ⟨⟨rfl, rfl, 1, by decide +kernel, by decide +kernel⟩, ?_⟩
  rintro ⟨hunseen, -⟩
  exact absurd seen hunseen

/-- The sale is adopted through the bid, which is in another market and on the other side. -/
theorem adopted_on_other_terms :
    BecomesActive bidding (bidding.handleProposalCreated saleElsewhere (quietFeed bidding))
        saleElsewhere ∧
      ¬ bidding.Agreed saleElsewhere (quietFeed bidding) := by
  have seen : bidding.ourOrder saleElsewhere ∈ (quietFeed bidding).trackerSeen.orders :=
    Pool.mem_iff_lookup.mpr ⟨bid, lookup_bid⟩
  have active : BecomesActive bidding
      (bidding.handleProposalCreated saleElsewhere (quietFeed bidding)) saleElsewhere :=
    ⟨by decide +kernel, by decide +kernel⟩
  refine ⟨active, fun agreed => ?_⟩
  obtain ⟨order, horder, -, hterms, -, -⟩ := agreed active
  unfold orderTracker at horder
  rw [if_pos seen] at horder
  obtain rfl : bid = order := Option.some.inj (lookup_bid.symm.trans horder)
  exact absurd hterms.market (by decide)

end Example

end BookAgent.AgentLogic.SettlementExecutor
