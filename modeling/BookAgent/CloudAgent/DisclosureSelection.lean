import Mathlib.Data.List.Sublists
import BookAgent.CloudAgent.FewestInputs

/-!
# Selecting a disclosure

A selection for a disclosure exists exactly if the total that the cache reports covers its
target, and whatever stage it comes from, its holdings can all be spent and cover the target.
-/

namespace BookAgent.CloudAgent.HoldingsCache

open BookAgent.Lib

variable {D : Type} [Decimal D]

/-! ## The reported total -/

/-- `Decimal::MAX` -/
def decimalMax : D := Decimal.new (2 ^ 96 - 1) 0

def totalOrMax (amounts : List D) : D := (Decimal.decSum amounts).getD decimalMax

/-- The largest amounts first. -/
def sortDescending (amounts : List D) : List D :=
  amounts.insertionSort fun a b => Decimal.le b a = true

/-- What a selection could cover now. -/
def selectableBlobReadyTotal (c : HoldingsCache D) (instrument : String) (maxInputs : Nat)
    (includeReserve : Bool) (now : Instant) : D :=
  let splitterCid :=
    if !includeReserve && c.splitterReserveEnabled then c.splitterReserveCid now instrument
    else none
  let held := c.available.values.filter fun h =>
    decide (h.instrument = instrument) && isFresh h now && decide (h.contractId ∉ c.consumed) &&
      !c.isReserved h.contractId now && decide (some h.contractId ≠ splitterCid) &&
      h.createdEventBlob.isSome
  totalOrMax ((sortDescending (held.map CachedHolding.amount)).take maxInputs)

/-! ## Selecting from a list -/

variable {selectable picks : List (CachedHolding D)} {target : D} {maxInputs : Nat}

/-- Holdings of the list that cover the target. -/
structure Covers (selectable : List (CachedHolding D)) (target : D) (maxInputs : Nat)
    (picks : List (CachedHolding D)) : Prop where
  nodup : (contractIds picks).Nodup
  subset : picks ⊆ selectable
  capped : picks.length ≤ maxInputs
  covers : Decimal.value target ≤ amountOf picks

/-- What the largest holdings amount to. -/
def largestTotal (selectable : List (CachedHolding D)) (maxInputs : Nat) : ℚ :=
  amountOf (selectable.reverse.take maxInputs)

namespace Selectable

theorem of_range
    (hasc : selectable.Pairwise fun a b => Decimal.value a.amount ≤ Decimal.value b.amount)
    (hnonneg : ∀ h ∈ selectable, 0 ≤ Decimal.value h.amount)
    (hnodup : (contractIds selectable).Nodup)
    (hrange : ∀ held, List.Sublist held selectable → IsDecimal (amountOf held)) :
    Selectable selectable where
  ascending := hasc
  nonneg := hnonneg
  nodup := hnodup
  inRange largest hfront := by
    have hsub : largest.reverse.Sublist selectable := by
      have hsub := hfront.sublist.reverse
      rwa [List.reverse_reverse] at hsub
    rw [← amountOf_perm (List.reverse_perm largest)]
    exact hrange _ hsub

/-- A part of the list that any condition keeps. -/
theorem filter (hs : Selectable selectable)
    (hrange : ∀ held, List.Sublist held selectable → IsDecimal (amountOf held))
    (keep : CachedHolding D → Bool) : Selectable (selectable.filter keep) :=
  of_range (hs.ascending.sublist List.filter_sublist)
    (fun h hh => hs.nonneg h (List.mem_of_mem_filter hh))
    (hs.nodup.sublist (List.filter_sublist.map _))
    fun held hheld => hrange held (hheld.trans List.filter_sublist)

/-- Other holdings amount to no more than the largest. -/
theorem le_largestTotal (hs : Selectable selectable) {held : List (CachedHolding D)}
    (hheld : held.Subperm selectable) (hlen : held.length ≤ maxInputs) :
    amountOf held ≤ largestTotal selectable maxInputs := by
  obtain ⟨held', hperm, hsub⟩ := hheld
  rw [← amountOf_perm hperm, ← amountOf_perm (List.reverse_perm held')]
  refine weight_le_take hs.descending (fun a ha => hs.nonneg a (List.mem_reverse.mp ha))
    hsub.reverse ?_
  rwa [List.length_reverse, hperm.length_eq]

end Selectable

/-- What is selected is a part of the list, each holding once. -/
theorem Covers.subperm (h : Covers selectable target maxInputs picks) : picks.Subperm selectable :=
  List.subperm_of_subset (List.Nodup.of_map _ h.nodup) h.subset

section SelectFrom

variable [Decimal.Lawful D]

theorem selectFrom_covers (hs : Selectable selectable) (hmax : 1 ≤ maxInputs)
    (h : selectFrom selectable target maxInputs = some picks) :
    Covers selectable target maxInputs picks := by
  have hspec : Selected selectable target maxInputs (some picks) := h ▸ selectFrom_spec hs
  cases hspec with
  | single found hmem hcovers =>
    refine ⟨List.nodup_singleton _, List.cons_subset.mpr ⟨hmem, List.nil_subset _⟩, hmax, ?_⟩
    rwa [amountOf_singleton]
  | tightened init last hpicks =>
    refine ⟨?_, ?_, ?_, hpicks.covers⟩
    · unfold contractIds
      rw [List.map_append, List.map_singleton]
      exact List.nodup_append'.mpr ⟨hs.nodup_prefix hpicks.largest, List.nodup_singleton _,
        List.disjoint_singleton.mpr hpicks.fresh⟩
    · exact List.append_subset.mpr ⟨fun h hh => Selectable.prefix_mem hpicks.largest h hh,
        List.cons_subset.mpr ⟨hpicks.mem, List.nil_subset _⟩⟩
    · rw [List.length_append, List.length_singleton]
      exact hpicks.capped
  | unneeded hnonpos =>
    exact ⟨List.nodup_nil, List.nil_subset _, Nat.zero_le _, hnonpos⟩

/-- When nothing is selected the largest holdings fall short. -/
theorem selectFrom_none (hs : Selectable selectable)
    (h : selectFrom selectable target maxInputs = none) :
    largestTotal selectable maxInputs < Decimal.value target := by
  have hspec : Selected selectable target maxInputs none := h ▸ selectFrom_spec hs
  cases hspec with
  | short _ hshort => exact hshort

end SelectFrom

/-! ## The dust -/

section Dust

variable {threshold : D}

/-- The sweep takes holdings that are not picked yet, within the cap. -/
theorem Covers.sweep (hs : Selectable selectable) (h : Covers selectable target maxInputs picks)
    (threshold : D) :
    Covers selectable target maxInputs
      (picks ++ dustSweep selectable picks threshold maxInputs) := by
  have hsub : (dustSweep selectable picks threshold maxInputs).Sublist
      (selectable.filter fun h => Decimal.lt h.amount threshold &&
        decide (h.contractId ∉ picks.map CachedHolding.contractId)) :=
    List.take_sublist _ _
  have hmem : ∀ h ∈ dustSweep selectable picks threshold maxInputs,
      h ∈ selectable ∧ h.contractId ∉ contractIds picks := by
    intro h hh
    obtain ⟨hsel, hkeep⟩ := List.mem_filter.mp (hsub.subset hh)
    exact ⟨hsel, of_decide_eq_true (Bool.and_eq_true_iff.mp hkeep).2⟩
  have hlen : (dustSweep selectable picks threshold maxInputs).length ≤
      maxInputs - picks.length :=
    (List.length_take_le _ _).trans (min_le_right _ _)
  have hcap := h.capped
  refine ⟨?_, ?_, ?_, ?_⟩
  · unfold contractIds
    rw [List.map_append]
    refine List.nodup_append'.mpr ⟨h.nodup, ?_, ?_⟩
    · exact hs.nodup.sublist ((hsub.trans List.filter_sublist).map _)
    · intro cid hpicked hswept
      obtain ⟨dust, hdust, rfl⟩ := List.mem_map.mp hswept
      exact (hmem dust hdust).2 hpicked
  · exact List.append_subset.mpr ⟨h.subset, fun h hh => (hmem h hh).1⟩
  · rw [List.length_append]
    omega
  · rw [amountOf_append]
    refine h.covers.trans (le_add_of_nonneg_right ?_)
    exact weight_nonneg fun dust hdust => hs.nonneg dust (hmem dust hdust).1

/-- A cover from part of the list, with a smaller cap. -/
theorem Covers.widen {part : List (CachedHolding D)} {cap : Nat} (h : Covers part target cap picks)
    (hpart : part ⊆ selectable) (hcap : cap ≤ maxInputs) :
    Covers selectable target maxInputs picks :=
  ⟨h.nodup, List.Subset.trans h.subset hpart, h.capped.trans hcap, h.covers⟩

variable [Decimal.Lawful D]

/-- Whichever stage a selection comes from, it covers the target. -/
theorem selectAmong_covers (hs : Selectable selectable)
    (hrange : ∀ held, List.Sublist held selectable → IsDecimal (amountOf held))
    (hmax : 1 ≤ maxInputs) {dustBelow : Option D}
    (h : selectAmong selectable dustBelow target maxInputs = some picks) :
    Covers selectable target maxInputs picks := by
  unfold selectAmong at h
  cases dustBelow with
  | none => exact selectFrom_covers hs hmax h
  | some threshold =>
    dsimp only at h
    have hdustCap : 1 ≤ min dustMergeMaxInputs maxInputs := le_min (by decide) hmax
    split at h
    · rename_i dust hdust
      obtain rfl := Option.some.inj h
      have hcovers := selectFrom_covers (hs.filter hrange _) hdustCap hdust
      exact hcovers.widen (List.filter_subset_self _) (min_le_right _ _)
    · rw [Option.bind_eq_bind, Option.bind_eq_some_iff] at h
      obtain ⟨rung, hrung, h⟩ := h
      obtain rfl := Option.some.inj h
      exact (selectFrom_covers hs hmax hrung).sweep hs threshold

/-- Nothing is selected only if the largest holdings fall short. -/
theorem selectAmong_none (hs : Selectable selectable) {dustBelow : Option D}
    (h : selectAmong selectable dustBelow target maxInputs = none) :
    largestTotal selectable maxInputs < Decimal.value target := by
  unfold selectAmong at h
  cases dustBelow with
  | none => exact selectFrom_none hs h
  | some threshold =>
    dsimp only at h
    split at h
    · cases h
    · rw [Option.bind_eq_bind, Option.bind_eq_none_iff] at h
      refine selectFrom_none hs (Option.eq_none_iff_forall_ne_some.mpr fun rung hrung => ?_)
      exact Option.some_ne_none _ (h rung hrung)

theorem selectAmong_isSome_iff (hs : Selectable selectable)
    (hrange : ∀ held, List.Sublist held selectable → IsDecimal (amountOf held))
    (hmax : 1 ≤ maxInputs) {dustBelow : Option D} :
    (selectAmong selectable dustBelow target maxInputs).isSome
      ↔ Decimal.value target ≤ largestTotal selectable maxInputs := by
  cases hresult : selectAmong selectable dustBelow target maxInputs with
  | none => exact iff_of_false Bool.false_ne_true (selectAmong_none hs hresult).not_ge
  | some picks =>
    have hcovers := selectAmong_covers hs hrange hmax hresult
    exact iff_of_true rfl (hcovers.covers.trans (hs.le_largestTotal hcovers.subperm hcovers.capped))

end Dust

/-! ## From the cache -/

section Cache

variable {c : HoldingsCache D} {instrument : String} {includeReserve isCc : Bool} {now : Instant}
  {amount : D}

/-- The holdings of an instrument. -/
def heldOf (c : HoldingsCache D) (instrument : String) : List (CachedHolding D) :=
  c.available.values.filter fun h => decide (h.instrument = instrument)

/-- The holdings that a disclosure may select. -/
def disclosable (c : HoldingsCache D) (instrument : String) (includeReserve : Bool)
    (now : Instant) : List (CachedHolding D) :=
  (c.getSelectable instrument (!includeReserve) now).filter fun h => h.createdEventBlob.isSome

/-- The splitter reserve, unless it may be spent. -/
def withheldCid (c : HoldingsCache D) (instrument : String) (includeReserve : Bool)
    (now : Instant) : Option String :=
  if !includeReserve && c.splitterReserveEnabled then c.splitterReserveCid now instrument else none

/-- A holding may be disclosed. -/
def isDisclosable (c : HoldingsCache D) (includeReserve : Bool) (now : Instant)
    (instrument : String) (h : CachedHolding D) : Bool :=
  isFresh h now && decide (h.contractId ∉ c.consumed) && !c.isReserved h.contractId now &&
    decide (some h.contractId ≠ c.withheldCid instrument includeReserve now) &&
    h.createdEventBlob.isSome

omit [Decimal D] in
theorem contractIds_values (c : HoldingsCache D) :
    contractIds c.available.values = c.available.keys := by
  unfold contractIds Pool.values AList.keys List.keys
  rw [List.map_map]
  refine List.map_congr_left fun e he => ?_
  exact c.keyed e.1 e.2 (AList.mem_lookup_iff.mpr he)

omit [Decimal D] in
theorem nodup_heldOf (c : HoldingsCache D) (instrument : String) :
    (contractIds (c.heldOf instrument)).Nodup := by
  refine List.Nodup.sublist (List.filter_sublist.map _) ?_
  change (contractIds c.available.values).Nodup
  rw [contractIds_values]
  exact c.available.keys_nodup

/-- What may be selected, in any order, is what of the instrument may be disclosed. -/
theorem disclosable_perm (c : HoldingsCache D) (instrument : String) (includeReserve : Bool)
    (now : Instant) : (c.disclosable instrument includeReserve now).Perm
      ((c.heldOf instrument).filter (c.isDisclosable includeReserve now instrument)) := by
  unfold disclosable getSelectable sortByAmount
  refine ((List.perm_insertionSort _ _).filter _).trans (List.Perm.of_eq ?_)
  unfold heldOf
  rw [List.filter_filter, List.filter_filter]
  refine List.filter_congr fun h _ => ?_
  unfold isDisclosable isSpendable withheldCid
  rw [Bool.eq_iff_iff]
  simp only [Bool.and_eq_true]
  tauto

theorem ascending_sortByAmount (holdings : List (CachedHolding D)) :
    (sortByAmount holdings).Pairwise fun a b =>
      Decimal.value a.amount ≤ Decimal.value b.amount := by
  unfold sortByAmount
  have : Std.Total fun a b : CachedHolding D => Decimal.le a.amount b.amount = true :=
    ⟨fun a b => (le_total (Decimal.value a.amount) (Decimal.value b.amount)).imp decide_eq_true
      decide_eq_true⟩
  have : IsTrans (CachedHolding D) fun a b => Decimal.le a.amount b.amount = true :=
    ⟨fun a b c hab hbc => decide_eq_true ((of_decide_eq_true hab).trans (of_decide_eq_true hbc))⟩
  exact (List.pairwise_insertionSort _ _).imp of_decide_eq_true

theorem descending_sortDescending (amounts : List D) :
    (sortDescending amounts).Pairwise fun a b => Decimal.value b ≤ Decimal.value a := by
  unfold sortDescending
  have : Std.Total fun a b : D => Decimal.le b a = true :=
    ⟨fun a b => (le_total (Decimal.value b) (Decimal.value a)).imp decide_eq_true decide_eq_true⟩
  have : IsTrans D fun a b => Decimal.le b a = true :=
    ⟨fun a b c hab hbc => decide_eq_true ((of_decide_eq_true hbc).trans (of_decide_eq_true hab))⟩
  exact (List.pairwise_insertionSort _ _).imp of_decide_eq_true

/-- What the instrument's holdings are assumed to be. -/
structure Countable (c : HoldingsCache D) (instrument : String) : Prop where
  nonneg : ∀ h ∈ c.heldOf instrument, 0 ≤ Decimal.value h.amount
  /-- Sums of holdings are decimal numbers. -/
  inRange : ∀ held, List.Sublist held (c.heldOf instrument) → IsDecimal (amountOf held)

theorem mem_disclosable {h : CachedHolding D}
    (hmem : h ∈ c.disclosable instrument includeReserve now) :
    h ∈ c.heldOf instrument ∧ c.isDisclosable includeReserve now instrument h = true :=
  List.mem_filter.mp ((c.disclosable_perm instrument includeReserve now).mem_iff.mp hmem)

namespace Countable

theorem disclosable_inRange (hc : c.Countable instrument) {held : List (CachedHolding D)}
    (hheld : held.Sublist (c.disclosable instrument includeReserve now)) :
    IsDecimal (amountOf held) := by
  have hsub : held.Subperm (c.heldOf instrument) :=
    hheld.subperm.trans ((c.disclosable_perm instrument includeReserve now).subperm.trans
      List.filter_sublist.subperm)
  obtain ⟨held', hperm, hsub⟩ := hsub
  rw [← amountOf_perm hperm]
  exact hc.inRange held' hsub

theorem selectable_disclosable (hc : c.Countable instrument) :
    Selectable (c.disclosable instrument includeReserve now) := by
  refine Selectable.of_range ?_ ?_ ?_ fun held hheld => hc.disclosable_inRange hheld
  · exact (ascending_sortByAmount _).sublist List.filter_sublist
  · exact fun h hh => hc.nonneg h (mem_disclosable hh).1
  · have hperm := (c.disclosable_perm instrument includeReserve now).map CachedHolding.contractId
    exact hperm.nodup_iff.mpr ((nodup_heldOf c instrument).sublist (List.filter_sublist.map _))

/-- The amounts that are counted are those of the holdings that may be selected. -/
theorem counted_values (hc : c.Countable instrument) :
    (sortDescending (((c.heldOf instrument).filter
        (c.isDisclosable includeReserve now instrument)).map CachedHolding.amount)).map
          Decimal.value
      = (c.disclosable instrument includeReserve now).reverse.map fun h =>
        Decimal.value h.amount := by
  have hsorted : Selectable (c.disclosable instrument includeReserve now) :=
    hc.selectable_disclosable
  have hanti (a b : ℚ) (hba : b ≤ a) (hab : a ≤ b) : a = b := le_antisymm hab hba
  refine List.Perm.eq_of_pairwise (fun a b _ _ => hanti a b) ?_ ?_ ?_
  · exact List.pairwise_map.mpr (descending_sortDescending _)
  · exact List.pairwise_map.mpr hsorted.descending
  · refine ((List.perm_insertionSort _ _).map _).trans ?_
    rw [List.map_map]
    exact ((c.disclosable_perm instrument includeReserve now).symm.trans
      (List.reverse_perm _).symm).map _

variable [Decimal.Lawful D]

/-- The reported total is that of the largest holdings that may be selected. -/
theorem value_selectableBlobReadyTotal (hc : c.Countable instrument) :
    Decimal.value (c.selectableBlobReadyTotal instrument maxInputs includeReserve now)
      = largestTotal (c.disclosable instrument includeReserve now) maxInputs := by
  have hheld : (c.available.values.filter fun h =>
      decide (h.instrument = instrument) && isFresh h now && decide (h.contractId ∉ c.consumed) &&
        !c.isReserved h.contractId now &&
        decide (some h.contractId ≠ c.withheldCid instrument includeReserve now) &&
        h.createdEventBlob.isSome)
      = (c.heldOf instrument).filter (c.isDisclosable includeReserve now instrument) := by
    unfold heldOf
    rw [List.filter_filter]
    refine List.filter_congr fun h _ => ?_
    unfold isDisclosable
    rw [Bool.eq_iff_iff]
    simp only [Bool.and_eq_true]
    tauto
  have hvalues : ((sortDescending (((c.heldOf instrument).filter
      (c.isDisclosable includeReserve now instrument)).map CachedHolding.amount)).map
        Decimal.value) = _ := hc.counted_values
  unfold selectableBlobReadyTotal
  rw [withheldCid] at hheld
  dsimp only
  rw [hheld]
  generalize sortDescending (((c.heldOf instrument).filter
    (c.isDisclosable includeReserve now instrument)).map CachedHolding.amount) = amounts
    at hvalues ⊢
  have htake (k : Nat) : ((amounts.take k).map Decimal.value).sum
      = largestTotal (c.disclosable instrument includeReserve now) k := by
    rw [List.map_take, hvalues, ← List.map_take]
    rfl
  have hsorted : Selectable (c.disclosable instrument includeReserve now) :=
    hc.selectable_disclosable
  obtain ⟨total, htotal, hvalue⟩ := Decimal.decSum_exact fun front hfront => by
    rw [List.prefix_iff_eq_take.mp (hfront.trans (List.take_prefix maxInputs amounts)), htake]
    exact hsorted.inRange _ (List.take_prefix _ _)
  rw [totalOrMax, htotal, Option.getD_some, hvalue, htake]

end Countable

/-- Holdings that a disclosure with these parameters may consist of. -/
structure Disclosed (c : HoldingsCache D) (instrument : String) (maxInputs : Nat)
    (includeReserve : Bool) (now : Instant) (target : D) (picks : List (CachedHolding D)) :
    Prop where
  distinct : (contractIds picks).Nodup
  held : ∀ h ∈ picks, c.available.lookup h.contractId = some h ∧ h.instrument = instrument
  fresh : ∀ h ∈ picks, isFresh h now = true
  unconsumed : ∀ h ∈ picks, h.contractId ∉ c.consumed
  unreserved : ∀ h ∈ picks, c.isReserved h.contractId now = false
  blobReady : ∀ h ∈ picks, h.createdEventBlob.isSome
  /-- The splitter reserve is left out unless it may be spent. -/
  withoutReserve : includeReserve = false → c.splitterReserveEnabled = true →
    ∀ h ∈ picks, c.splitterReserveCid now instrument ≠ some h.contractId
  capped : picks.length ≤ maxInputs
  covers : Decimal.value target ≤ amountOf picks

omit [Decimal D] in
theorem lookup_of_mem_values {h : CachedHolding D} (hmem : h ∈ c.available.values) :
    c.available.lookup h.contractId = some h := by
  obtain ⟨cid, hlookup⟩ := Pool.mem_values.mp hmem
  rwa [← c.keyed cid h hlookup] at hlookup

/-- What covers the target from the holdings that may be disclosed is a disclosure. -/
theorem Covers.disclosed {target : D}
    (h : Covers (c.disclosable instrument includeReserve now) target maxInputs picks) :
    c.Disclosed instrument maxInputs includeReserve now target picks := by
  have hheld : ∀ p ∈ picks, p ∈ c.available.values ∧ p.instrument = instrument := fun p hp => by
    obtain ⟨hvalues, hinstrument⟩ := List.mem_filter.mp (mem_disclosable (h.subset hp)).1
    exact ⟨hvalues, of_decide_eq_true hinstrument⟩
  have hpick : ∀ p ∈ picks, (((isFresh p now = true ∧ p.contractId ∉ c.consumed) ∧
      c.isReserved p.contractId now = false) ∧
      some p.contractId ≠ c.withheldCid instrument includeReserve now) ∧
      p.createdEventBlob.isSome := fun p hp => by
    have hkeep := (mem_disclosable (h.subset hp)).2
    unfold isDisclosable at hkeep
    simpa only [Bool.and_eq_true, decide_eq_true_eq, Bool.not_eq_true'] using hkeep
  exact {
    distinct := h.nodup
    held := fun p hp => ⟨lookup_of_mem_values (hheld p hp).1, (hheld p hp).2⟩
    fresh := fun p hp => (hpick p hp).1.1.1.1
    unconsumed := fun p hp => (hpick p hp).1.1.1.2
    unreserved := fun p hp => (hpick p hp).1.1.2
    blobReady := fun p hp => (hpick p hp).2
    withoutReserve := fun hinclude henabled p hp hreserve => (hpick p hp).1.2 <| by
      rw [withheldCid, hinclude, henabled]
      exact hreserve.symm
    capped := h.capped
    covers := h.covers }

variable [Decimal.Lawful D]

/-- Whatever is selected is a disclosure of what was asked for. -/
theorem disclosed_of_select (hc : c.Countable instrument) (hmax : 1 ≤ maxInputs)
    (h : c.selectForDisclosureWith instrument amount maxInputs isCc includeReserve now =
      some picks) :
    0 < Decimal.value amount ∧ ∃ target, disclosureTarget amount isCc = some target ∧
      c.Disclosed instrument maxInputs includeReserve now target picks := by
  have hzero : Decimal.value (Decimal.zero : D) = 0 := Decimal.Lawful.value_zero
  unfold selectForDisclosureWith at h
  split at h
  · cases h
  · rename_i hasked
    rw [Bool.or_eq_true, not_or, Decimal.le, decide_eq_true_eq, hzero, not_le] at hasked
    rw [Option.bind_eq_bind, Option.bind_eq_some_iff] at h
    obtain ⟨target, htarget, h⟩ := h
    refine ⟨hasked.1, target, htarget, Covers.disclosed ?_⟩
    exact selectAmong_covers hc.selectable_disclosable
      (fun held hheld => hc.disclosable_inRange hheld) hmax h

/-- **A disclosure is selected exactly if the reported total covers its target, and it is
sound.** -/
theorem selectForDisclosureWith_iff (hc : c.Countable instrument)
    (hamount : 0 < Decimal.value amount) (hmax : 1 ≤ maxInputs) :
    ((c.selectForDisclosureWith instrument amount maxInputs isCc includeReserve now).isSome ↔
        ∃ target, disclosureTarget amount isCc = some target ∧ Decimal.value target ≤
          Decimal.value (c.selectableBlobReadyTotal instrument maxInputs includeReserve now)) ∧
      ∀ picks,
        c.selectForDisclosureWith instrument amount maxInputs isCc includeReserve now = some picks →
        ∃ target, disclosureTarget amount isCc = some target ∧
          c.Disclosed instrument maxInputs includeReserve now target picks := by
  have hsorted : Selectable (c.disclosable instrument includeReserve now) :=
    hc.selectable_disclosable
  have hrange : ∀ held, List.Sublist held (c.disclosable instrument includeReserve now) →
      IsDecimal (amountOf held) :=
    fun held hheld => hc.disclosable_inRange hheld
  have hasked : ¬ (Decimal.le amount Decimal.zero || maxInputs == 0) = true := by
    have hzero : Decimal.value (Decimal.zero : D) = 0 := Decimal.Lawful.value_zero
    rw [Bool.or_eq_true, Decimal.le, decide_eq_true_eq, beq_iff_eq, hzero]
    exact not_or.mpr ⟨hamount.not_ge, Nat.one_le_iff_ne_zero.mp hmax⟩
  refine ⟨?_, fun picks hpicks => (disclosed_of_select hc hmax hpicks).2⟩
  unfold selectForDisclosureWith
  rw [if_neg hasked, Option.bind_eq_bind, hc.value_selectableBlobReadyTotal]
  cases disclosureTarget amount isCc with
  | none =>
    refine iff_of_false Bool.false_ne_true ?_
    rintro ⟨target, htarget, -⟩
    cases htarget
  | some target =>
    rw [Option.bind_some]
    refine (selectAmong_isSome_iff hsorted hrange hmax).trans ⟨fun h => ⟨target, rfl, h⟩, ?_⟩
    rintro ⟨target', htarget, h⟩
    obtain rfl := Option.some.inj htarget
    exact h

end Cache

/-! ## A cache of three holdings -/

/-- The three holdings, with the reserve of the splitter and a dust threshold of five. -/
def cacheOfThree : HoldingsCache ExactDecimal :=
  ((HoldingsCache.new true).addCreated threeHoldings).setDustThresholds
    (AList.insert "USDC" five ∅)

theorem countable_cacheOfThree : cacheOfThree.Countable "USDC" where
  nonneg := by decide +kernel
  inRange held h :=
    (by decide +kernel : ∀ held ∈ (cacheOfThree.heldOf "USDC").sublists, IsDecimal (amountOf held))
      held (List.mem_sublists.mpr h)

/-- Eight is disclosed from the holdings of four and five, the reserve of six left out. -/
theorem selectForDisclosureWith_iff_eight :
    ((cacheOfThree.selectForDisclosureWith "USDC" eight 3 false false 0).isSome ↔
        ∃ target, disclosureTarget eight false = some target ∧ Decimal.value target ≤
          Decimal.value (cacheOfThree.selectableBlobReadyTotal "USDC" 3 false 0)) ∧
      ∀ picks, cacheOfThree.selectForDisclosureWith "USDC" eight 3 false false 0 = some picks →
        ∃ target, disclosureTarget eight false = some target ∧
          cacheOfThree.Disclosed "USDC" 3 false 0 target picks :=
  selectForDisclosureWith_iff countable_cacheOfThree (by decide +kernel) (by decide)

example : (cacheOfThree.selectForDisclosureWith "USDC" eight 3 false false 0).map contractIds =
    some ["b", "a"] := by
  decide +kernel

end BookAgent.CloudAgent.HoldingsCache
