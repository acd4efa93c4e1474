import Mathlib.Data.List.Sort
import BookAgent.CloudAgent.HoldingsCache

/-!
# What the cache offers

The holdings of an instrument that can be spent now (`get_selectable`) and the
choice among them that funds a disclosure (`select_for_disclosure_with`). Whatever
the choice, it is made among the selectable holdings.
-/

namespace BookAgent.CloudAgent

open BookAgent.Lib

/-- Dust inputs a single settle may sweep in. -/
def dustMergeMaxInputs : Nat := 5

namespace HoldingsCache

variable {D : Type} [Decimal D]

/-! ## Selectable holdings -/

/-- The holding was seen within the TTL. -/
def isFresh (h : CachedHolding D) (now : Instant) : Bool :=
  decide (secsSince now h.discoveredAt ≤ availableTtlSecs)

/-- By amount, then by contract id. -/
def outranks (a b : CachedHolding D) : Bool :=
  Decimal.lt b.amount a.amount ||
    (!Decimal.lt a.amount b.amount && decide (b.contractId < a.contractId))

/-- The larger of the two, the later one when neither outranks the other. -/
def larger (best : Option (CachedHolding D)) (h : CachedHolding D) : Option (CachedHolding D) :=
  match best with
  | none => some h
  | some b => if outranks b h then some b else some h

/-- The largest fresh holding of the instrument that is not consumed. -/
def splitterReserveCid (c : HoldingsCache D) (now : Instant) (instrument : String) :
    Option String :=
  let candidates := c.available.values.filter fun h =>
    decide (h.instrument = instrument) && decide (h.contractId ∉ c.consumed) && isFresh h now
  (candidates.foldl larger none).map CachedHolding.contractId

/-- The holding can be spent now: fresh, not consumed, not reserved. -/
def isSpendable (c : HoldingsCache D) (h : CachedHolding D) (now : Instant) : Bool :=
  isFresh h now && decide (h.contractId ∉ c.consumed) && !c.isReserved h.contractId now

/-- Ascending by amount, equal amounts in the order they came. -/
def sortByAmount (holdings : List (CachedHolding D)) : List (CachedHolding D) :=
  holdings.insertionSort fun a b => Decimal.le a.amount b.amount = true

/-- Available, not consumed and not reserved, ascending by amount. -/
def getSelectable (c : HoldingsCache D) (instrument : String) (excludeSplitterReserve : Bool)
    (now : Instant) : List (CachedHolding D) :=
  let splitterCid :=
    if excludeSplitterReserve && c.splitterReserveEnabled then c.splitterReserveCid now instrument
    else none
  sortByAmount (c.available.values.filter fun h =>
    decide (h.instrument = instrument) && c.isSpendable h now &&
      decide (some h.contractId ≠ splitterCid))

/-! ## Selection -/

/-- Largest first until the target is met or the inputs run out. `none` when the
running total leaves the decimal range. -/
def greedy (target : D) : Nat → List (CachedHolding D) → List (CachedHolding D) → D →
    Option (List (CachedHolding D) × D)
  | 0, _, picks, total => some (picks, total)
  | _ + 1, [], picks, total => some (picks, total)
  | left + 1, h :: hs, picks, total => do
    let total ← Decimal.checkedAdd total h.amount
    if Decimal.le target total then return (picks ++ [h], total)
    greedy target left hs (picks ++ [h]) total

/-- The smallest holding that can stand in for the last pick. -/
def tightenLast (selectableAsc : List (CachedHolding D)) (target total : D)
    (rest : List (CachedHolding D)) (last : CachedHolding D) : Option (CachedHolding D) := do
  let others ← Decimal.checkedSub total last.amount
  let residual ← Decimal.checkedSub target others
  selectableAsc.find? fun h =>
    Decimal.le residual h.amount && decide (h.contractId ∉ rest.map CachedHolding.contractId)

/-- Smallest single fit, else greedy largest first with the last pick tightened. -/
def selectFrom (selectableAsc : List (CachedHolding D)) (target : D) (maxInputs : Nat) :
    Option (List (CachedHolding D)) :=
  match selectableAsc.find? fun h => Decimal.le target h.amount with
  | some h => some [h]
  | none => do
    let (picks, total) ← greedy target maxInputs selectableAsc.reverse [] Decimal.zero
    if Decimal.lt total target then none
    else match picks.getLast?, picks.dropLast with
      | some last, rest@(_ :: _) =>
        return rest ++ [(tightenLast selectableAsc target total rest last).getD last]
      | _, _ => return picks

/-- The amount to fund: CC carries the holding-fee margin. -/
def disclosureTarget (amount : D) (isCc : Bool) : Option D :=
  if isCc then do
    let scaled ← Decimal.checkedMul amount (Decimal.new 102 2)
    Decimal.checkedAdd scaled Decimal.one
  else some amount

/-- Sub-rung holdings swept into a funded settle. -/
def dustSweep (selectable picks : List (CachedHolding D)) (threshold : D) (maxInputs : Nat) :
    List (CachedHolding D) :=
  let dustInPicks := (picks.filter fun h => Decimal.lt h.amount threshold).length
  (selectable.filter fun h =>
      Decimal.lt h.amount threshold &&
        decide (h.contractId ∉ picks.map CachedHolding.contractId)).take
    (min (dustMergeMaxInputs - dustInPicks) (maxInputs - picks.length))

/-- Fund from the blob-ready holdings: dust alone where the dust budget covers the
target, else a rung with dust swept in. -/
def selectAmong (selectable : List (CachedHolding D)) (dustBelow : Option D) (target : D)
    (maxInputs : Nat) : Option (List (CachedHolding D)) :=
  match dustBelow with
  | none => selectFrom selectable target maxInputs
  | some threshold =>
    let dustPool := selectable.filter fun h => Decimal.lt h.amount threshold
    match selectFrom dustPool target (min dustMergeMaxInputs maxInputs) with
    | some picks => some picks
    | none => do
      let picks ← selectFrom selectable target maxInputs
      return picks ++ dustSweep selectable picks threshold maxInputs

def selectForDisclosureWith (c : HoldingsCache D) (instrument : String) (amount : D)
    (maxInputs : Nat) (isCc includeReserve : Bool) (now : Instant) :
    Option (List (CachedHolding D)) :=
  if Decimal.le amount Decimal.zero || maxInputs == 0 then none
  else do
    let target ← disclosureTarget amount isCc
    let selectable := (c.getSelectable instrument (!includeReserve) now).filter
      fun h => h.createdEventBlob.isSome
    selectAmong selectable (c.dustBelow.lookup instrument) target maxInputs

/-! ## A selection is made among the selectable holdings -/

theorem greedy_subset {target : D} {left : Nat} {hs picks picks' : List (CachedHolding D)}
    {total total' : D} (h : greedy target left hs picks total = some (picks', total')) :
    picks' ⊆ picks ++ hs := by
  induction left generalizing hs picks total with
  | zero =>
    obtain ⟨rfl, -⟩ : picks = picks' ∧ total = total' := by simpa [greedy] using h
    exact List.subset_append_left picks hs
  | succ left ih =>
    cases hs with
    | nil =>
      obtain ⟨rfl, -⟩ : picks = picks' ∧ total = total' := by simpa [greedy] using h
      exact List.subset_append_left picks []
    | cons x hs =>
      rw [greedy, Option.bind_eq_bind, Option.bind_eq_some_iff] at h
      obtain ⟨sum, -, h⟩ := h
      split at h
      · obtain ⟨rfl, -⟩ : picks ++ [x] = picks' ∧ sum = total' := by simpa using h
        intro y hy
        rcases List.mem_append.mp hy with hy | hy
        · exact List.mem_append_left _ hy
        · rw [List.mem_singleton.mp hy]
          exact List.mem_append_right _ List.mem_cons_self
      · intro y hy
        have := ih h hy
        rwa [List.append_assoc, List.singleton_append] at this

theorem tightenLast_mem {selectable rest : List (CachedHolding D)} {target total : D}
    {last h : CachedHolding D} (ht : tightenLast selectable target total rest last = some h) :
    h ∈ selectable := by
  unfold tightenLast at ht
  simp only [Option.bind_eq_bind, Option.bind_eq_some_iff] at ht
  obtain ⟨_, -, _, -, hfind⟩ := ht
  exact List.mem_of_find?_eq_some hfind

/-- Picks come from the list they are picked from. -/
theorem selectFrom_subset {selectable picks : List (CachedHolding D)} {target : D}
    {maxInputs : Nat} (h : selectFrom selectable target maxInputs = some picks) :
    picks ⊆ selectable := by
  unfold selectFrom at h
  split at h
  · rename_i single hsingle
    obtain rfl := Option.some.inj h
    intro x hx
    rw [List.mem_singleton.mp hx]
    exact List.mem_of_find?_eq_some hsingle
  · rw [Option.bind_eq_bind, Option.bind_eq_some_iff] at h
    obtain ⟨⟨greedyPicks, total⟩, hgreedy, h⟩ := h
    have hsub : greedyPicks ⊆ selectable := fun x hx => by
      have := greedy_subset hgreedy hx
      rwa [List.nil_append, List.mem_reverse] at this
    dsimp only at h
    split at h
    · cases h
    · split at h
      · rename_i last head tail hlast hrest
        obtain rfl := Option.some.inj h
        intro x hx
        rcases List.mem_append.mp hx with hx | hx
        · exact hsub (List.dropLast_subset _ (hrest ▸ hx))
        · rw [List.mem_singleton.mp hx]
          cases ht : tightenLast selectable target total (head :: tail) last with
          | none => exact hsub (List.mem_of_getLast? hlast)
          | some y => exact tightenLast_mem ht
      · obtain rfl := Option.some.inj h
        exact hsub

theorem selectAmong_subset {selectable picks : List (CachedHolding D)} {dustBelow : Option D}
    {target : D} {maxInputs : Nat}
    (h : selectAmong selectable dustBelow target maxInputs = some picks) : picks ⊆ selectable := by
  unfold selectAmong at h
  split at h
  · exact selectFrom_subset h
  · dsimp only at h
    split at h
    · rename_i dust hdust
      obtain rfl := Option.some.inj h
      exact List.Subset.trans (selectFrom_subset hdust) (List.filter_subset_self _)
    · rw [Option.bind_eq_bind, Option.bind_eq_some_iff] at h
      obtain ⟨rung, hrung, h⟩ := h
      obtain rfl := Option.some.inj h
      intro x hx
      rcases List.mem_append.mp hx with hx | hx
      · exact selectFrom_subset hrung hx
      · exact List.mem_of_mem_filter (List.mem_of_mem_take hx)

theorem mem_getSelectable {c : HoldingsCache D} {instrument : String} {exclude : Bool}
    {now : Instant} {h : CachedHolding D} (hsel : h ∈ c.getSelectable instrument exclude now) :
    (∃ cid, c.available.lookup cid = some h) ∧ c.isSpendable h now = true := by
  unfold getSelectable sortByAmount at hsel
  rw [List.mem_insertionSort, List.mem_filter, Bool.and_eq_true, Bool.and_eq_true] at hsel
  obtain ⟨hmem, ⟨-, hspend⟩, -⟩ := hsel
  exact ⟨Pool.mem_values.mp hmem, hspend⟩

/-- Whatever a disclosure selects can be spent now. -/
theorem selectForDisclosureWith_subset {c : HoldingsCache D} {instrument : String} {amount : D}
    {maxInputs : Nat} {isCc includeReserve : Bool} {now : Instant}
    {picks : List (CachedHolding D)}
    (h : c.selectForDisclosureWith instrument amount maxInputs isCc includeReserve now =
      some picks) : picks ⊆ c.getSelectable instrument (!includeReserve) now := by
  unfold selectForDisclosureWith at h
  split at h
  · cases h
  · rw [Option.bind_eq_bind, Option.bind_eq_some_iff] at h
    obtain ⟨target, -, h⟩ := h
    exact List.Subset.trans (selectAmong_subset h) (List.filter_subset_self _)

end HoldingsCache

end BookAgent.CloudAgent
