import Mathlib.Data.List.Forall2
import BookAgent.CloudAgent.LadderChunks

/-!
# Funding a split

What a splitter reserve funds of the missing rungs (`fund_splits`) under the cap on the outputs of
a transaction (`cap_split_outputs`). The counts never exceed what is missing; that the rungs cost
at most 95 percent of the reserve, and that none is cut short needlessly, holds where the amounts
have few enough digits for the products and differences to be exact.
-/

namespace BookAgent.CloudAgent

open BookAgent.Lib Decimal

/-- Division rounds too, and the whole part of a quotient is read if it is a `u32`. -/
class LadderRounding (D : Type) [LadderDecimal D] extends Rounding D where
  checkedDiv (a b : D) (h : value b ≠ 0) :
    RoundsTo round (LadderDecimal.checkedDiv a b) (value a / value b)
  truncToU32 (d : D) (h : 0 ≤ value d) :
    LadderDecimal.truncToU32 d = if ⌊value d⌋ ≤ u32Max then some ⌊value d⌋.toNat else none

/-! ## Funded rungs -/

section Funded

variable {D : Type} [Decimal D]

/-- What the rungs are worth. -/
def totalValue (splits : List (D × Nat)) : ℚ := (splits.map fun s => s.2 * value s.1).sum

@[simp] theorem totalValue_nil : totalValue ([] : List (D × Nat)) = 0 := rfl

@[simp] theorem totalValue_cons (s : D × Nat) (rest : List (D × Nat)) :
    totalValue (s :: rest) = s.2 * value s.1 + totalValue rest := by
  simp [totalValue]

/-- Part of what is missing of a rung. -/
def PartOf (taken rung : D × Nat) : Prop := taken.1 = rung.1 ∧ 1 ≤ taken.2 ∧ taken.2 ≤ rung.2

/-- Rungs taken in the order of the ladder, each up to what is missing, what is left of the
budget, and the outputs that are left. -/
inductive FundedWithin : ℚ → Nat → List (D × Nat) → List (D × Nat) → Prop
  | nil {budget : ℚ} {room : Nat} : FundedWithin budget room [] []
  /-- Not one more is missing, affordable or allowed. -/
  | leave {budget : ℚ} {room : Nat} {rung : D × Nat} {ladder taken : List (D × Nat)}
      (none : rung.2 = 0 ∨ budget < value rung.1 ∨ room = 0)
      (rest : FundedWithin budget room ladder taken) :
      FundedWithin budget room (rung :: ladder) taken
  | take {budget : ℚ} {room count : Nat} {rung : D × Nat} {ladder taken : List (D × Nat)}
      (pos : 1 ≤ count) (missing : count ≤ rung.2) (affordable : count * value rung.1 ≤ budget)
      (allowed : count ≤ room)
      (more : count < rung.2 → budget < (count + 1) * value rung.1 ∨ room = count)
      (rest : FundedWithin (budget - count * value rung.1) (room - count) ladder taken) :
      FundedWithin budget room (rung :: ladder) ((rung.1, count) :: taken)

namespace FundedWithin

variable {budget : ℚ} {room : Nat} {ladder taken : List (D × Nat)}

theorem totalValue_le (h : FundedWithin budget room ladder taken) (hbudget : 0 ≤ budget) :
    totalValue taken ≤ budget := by
  induction h with
  | nil => simpa using hbudget
  | leave _ _ ih => exact ih hbudget
  | take _ _ affordable _ _ _ ih =>
    have := ih (sub_nonneg.mpr affordable)
    rw [totalValue_cons]
    dsimp only
    linarith

/-- Where no more outputs are allowed all rungs are left. -/
theorem of_no_room (budget : ℚ) (ladder : List (D × Nat)) : FundedWithin budget 0 ladder [] := by
  induction ladder with
  | nil => exact .nil
  | cons rung ladder ih => exact .leave (.inr (.inr rfl)) ih

end FundedWithin

end Funded

variable {D : Type} [LadderDecimal D]

/-! ## Without regard to the digits -/

theorem fundFrom_partOf {budget : D} {ladder : List (D × Nat)} :
    List.SublistForall₂ PartOf (fundFrom budget ladder) ladder := by
  induction ladder generalizing budget with
  | nil => exact .nil
  | cons rung ladder ih =>
    obtain ⟨denom, deficit⟩ := rung
    rw [fundFrom]
    split
    · exact .cons_right ih
    · dsimp only
      split
      · exact .cons_right ih
      · rename_i hcount
        split
        · exact .nil
        · exact .cons ⟨rfl, Nat.one_le_iff_ne_zero.mpr hcount, min_le_left _ _⟩ ih

omit [LadderDecimal D] in
theorem counts_of_partOf {ladder splits : List (D × Nat)}
    (h : List.SublistForall₂ PartOf splits ladder) : ∀ s ∈ splits, 1 ≤ s.2 := by
  induction h with
  | nil => simp
  | cons hpart _ ih => exact List.forall_mem_cons.mpr ⟨hpart.2.1, ih⟩
  | cons_right _ ih => exact ih

omit [LadderDecimal D] in
theorem partOf_cap {max used : Nat} {ladder splits : List (D × Nat)}
    (h : List.SublistForall₂ PartOf splits ladder) :
    List.SublistForall₂ PartOf (capSplitOutputs max splits used) ladder := by
  induction h generalizing used with
  | nil => exact .nil
  | @cons s rung splits ladder hpart h ih =>
    obtain ⟨hdenom, -, hle⟩ := hpart
    simp only [capSplitOutputs]
    split
    · exact .nil
    · split
      · exact .cons_right ih
      · rename_i htake
        exact .cons ⟨hdenom, Nat.one_le_iff_ne_zero.mpr htake, (min_le_left _ _).trans hle⟩ ih
  | cons_right h ih => exact .cons_right ih

/-! ## With few enough digits -/

/-- The number is that many units of the scale. -/
def HasUnits (scale : Nat) (number : ℚ) (units : Nat) : Prop := number * 10 ^ scale = units

theorem HasUnits.isDecimal {scale : Nat} {number : ℚ} {units : Nat} (hscale : scale < 29)
    (h : HasUnits scale number units) (hbound : units < 2 ^ 96) : IsDecimal number :=
  isDecimal_iff.mpr ⟨scale, hscale, units, by simpa [HasUnits] using h, by simpa using hbound⟩

theorem HasUnits.eq_div {scale : Nat} {number : ℚ} {units : Nat} (h : HasUnits scale number units) :
    number = units / 10 ^ scale := by
  rw [eq_div_iff (by positivity)]
  exact h

section Exact

variable [LadderRounding D] {scale budgetUnits denomUnits : Nat} {budget denom : D}

/-- The whole part of the quotient, as far as the count asks for it. -/
theorem affordable_eq (hbudget : HasUnits scale (value budget) budgetUnits)
    (hdenom : HasUnits scale (value denom) denomUnits) (hpos : 1 ≤ denomUnits)
    (hle : denomUnits ≤ budgetUnits) (hbound : 20 * budgetUnits < 2 ^ 96) {deficit : Nat}
    (hdeficit : deficit ≤ u32Max) :
    min deficit (((LadderDecimal.checkedDiv budget denom).bind LadderDecimal.truncToU32).getD u32Max)
      = min deficit (budgetUnits / denomUnits) := by
  have hpow : (10 : ℚ) ^ scale ≠ 0 := by positivity
  have hquotient : value budget / value denom = (budgetUnits : ℚ) / denomUnits := by
    rw [hbudget.eq_div, hdenom.eq_div, div_div_div_cancel_right₀ hpow]
  have hne : value denom ≠ 0 := by
    rw [hdenom.eq_div]
    have : (denomUnits : ℚ) ≠ 0 := Nat.cast_ne_zero.mpr (by omega)
    exact div_ne_zero this hpow
  have hround := LadderRounding.checkedDiv budget denom hne
  rw [hquotient] at hround
  have hsmall : (budgetUnits : ℚ) / denomUnits ≤ budgetUnits :=
    div_le_self (Nat.cast_nonneg _) (by exact_mod_cast hpos)
  cases hdiv : LadderDecimal.checkedDiv budget denom with
  | none =>
    -- the quotient is no larger than the budget's units
    rw [hdiv] at hround
    have hlarge : maxDecimal < |(budgetUnits : ℚ) / denomUnits| := hround
    rw [abs_of_nonneg (by positivity)] at hlarge
    have : (budgetUnits : ℚ) ≤ maxDecimal := by
      have : budgetUnits ≤ 2 ^ 96 - 1 := by omega
      have hcast : ((2 ^ 96 - 1 : Nat) : ℚ) = maxDecimal := by norm_num [maxDecimal]
      rw [← hcast]
      exact_mod_cast this
    exact absurd hlarge (not_lt.mpr (hsmall.trans this))
  | some quotient =>
    rw [hdiv] at hround
    have hvalue : value quotient = Rounding.round D ((budgetUnits : ℚ) / denomUnits) := hround
    have hfloor : ⌊value quotient⌋ = (budgetUnits / denomUnits : Nat) := by
      rw [hvalue]
      exact Rounding.floor_round_div D hpos hle hbound
    have hnonneg : 0 ≤ value quotient := by
      rw [hvalue, ← Rounding.exact (D := D) isDecimal_zero]
      exact Rounding.mono (by positivity)
    rw [Option.bind_some, LadderRounding.truncToU32 quotient hnonneg, hfloor]
    split
    · rw [Option.getD_some, Int.toNat_natCast]
    · rw [Option.getD_none]
      omega

/-- What is left of the budget, exactly. -/
theorem budget_rest (hscale : scale < 29) (hbudget : HasUnits scale (value budget) budgetUnits)
    (hdenom : HasUnits scale (value denom) denomUnits) (hbound : 20 * budgetUnits < 2 ^ 96)
    {count : Nat} (hcount : count * denomUnits ≤ budgetUnits) (hu32 : count ≤ u32Max) :
    ∃ cost rest, Decimal.checkedMul denom (Decimal.new (count : Int) 0) = some cost ∧
      Decimal.checkedSub budget cost = some rest ∧
      value rest = value budget - count * value denom ∧
      HasUnits scale (value rest) (budgetUnits - count * denomUnits) := by
  have hcostUnits : HasUnits scale (value denom * count) (count * denomUnits) := by
    unfold HasUnits at hdenom ⊢
    push_cast
    rw [← hdenom]
    ring
  have hcast : value (Decimal.new (count : Int) 0 : D) = count := by
    have hdecimal : IsDecimal (((count : Int) : ℚ) / 10 ^ 0) := by
      rw [pow_zero, div_one]
      refine isDecimal_intCast ?_
      rw [Int.natAbs_natCast]
      unfold u32Max at hu32
      omega
    rw [Rounding.value_new hdecimal]
    simp
  have hcostDecimal : IsDecimal (value denom * value (Decimal.new (count : Int) 0 : D)) := by
    rw [hcast]
    exact hcostUnits.isDecimal hscale (by omega)
  obtain ⟨cost, hcost, hcostValue⟩ := (Rounding.checkedMul denom (Decimal.new (count : Int) 0)).exact
    (Rounding.exact hcostDecimal) hcostDecimal
  rw [hcast] at hcostValue
  have hrestUnits : HasUnits scale (value budget - value cost) (budgetUnits - count * denomUnits) := by
    unfold HasUnits at hbudget hcostUnits ⊢
    rw [sub_mul, hcostValue, hbudget, hcostUnits, Nat.cast_sub hcount]
  have hrestDecimal := hrestUnits.isDecimal hscale (by omega)
  obtain ⟨rest, hrest, hrestValue⟩ := (Rounding.checkedSub budget cost).exact
    (Rounding.exact hrestDecimal) hrestDecimal
  refine ⟨cost, rest, hcost, hrest, ?_, hrestValue ▸ hrestUnits⟩
  rw [hrestValue, hcostValue, mul_comm]

/-- Every rung that is worth something is worth a number of units, at least one. -/
def LadderUnits (scale : Nat) (ladder : List (D × Nat)) : Prop :=
  ∀ s ∈ ladder, s.2 ≤ u32Max ∧ (0 < value s.1 → ∃ units ≥ 1, HasUnits scale (value s.1) units)

/-- The rungs that are worth something: the others are skipped. -/
def positiveRungs (ladder : List (D × Nat)) : List (D × Nat) := ladder.filter fun s => 0 < value s.1

omit [LadderDecimal D] [LadderRounding D] in
theorem cap_full {max used : Nat} (splits : List (D × Nat)) (h : max ≤ used) :
    capSplitOutputs max splits used = [] := by
  cases splits with
  | nil => rfl
  | cons s rest => simp [capSplitOutputs, h]

omit [LadderRounding D] in
/-- A rung that is affordable, cut to the outputs that are left. -/
theorem fundedWithin_take {max used count : Nat} {rung : D × Nat} {ladder funded : List (D × Nat)}
    {room : ℚ} (hmax : max ≤ u32Max) (hfree : used < max) (hpos : 1 ≤ count)
    (hmissing : count ≤ rung.2) (hcost : count * value rung.1 ≤ room)
    (hdenom : 0 ≤ value rung.1)
    (hmore : count < rung.2 → room < (count + 1) * value rung.1)
    (hrest : FundedWithin (room - count * value rung.1) (max - (used + count)) ladder
      (capSplitOutputs max funded (used + count))) :
    FundedWithin room (max - used) (rung :: ladder)
      (capSplitOutputs max ((rung.1, count) :: funded) used) := by
  have htake : ¬ min count (max - used) = 0 := by omega
  have hused : min (used + min count (max - used)) u32Max = used + min count (max - used) := by
    omega
  simp only [capSplitOutputs]
  rw [if_neg (by omega), if_neg htake, hused]
  rcases le_or_gt count (max - used) with hfits | hcut
  · rw [min_eq_left hfits]
    refine .take hpos hmissing hcost hfits (fun h => .inl (hmore h)) ?_
    rwa [Nat.sub_sub]
  · -- the rung is cut, and none is allowed after it
    rw [min_eq_right hcut.le, cap_full funded (by omega)]
    refine .take (by omega) (by omega) ?_ le_rfl (fun _ => .inr rfl) ?_
    · refine le_trans (mul_le_mul_of_nonneg_right ?_ hdenom) hcost
      exact_mod_cast hcut.le
    · rw [Nat.sub_self]
      exact .of_no_room _ ladder

theorem fundedWithin_cap {max used : Nat} {ladder : List (D × Nat)} (hmax : max ≤ u32Max)
    (hused : used ≤ max) (hscale : scale < 29) (hbudget : HasUnits scale (value budget) budgetUnits)
    (hbound : 20 * budgetUnits < 2 ^ 96) (hladder : LadderUnits scale ladder) :
    FundedWithin (value budget) (max - used) (positiveRungs ladder)
      (capSplitOutputs max (fundFrom budget ladder) used) := by
  induction ladder generalizing budget budgetUnits used with
  | nil => exact .nil
  | cons rung ladder ih =>
    obtain ⟨denom, deficit⟩ := rung
    obtain ⟨⟨hdeficit, hworth⟩, hrungs⟩ := List.forall_mem_cons.mp hladder
    rcases le_or_gt (value denom) 0 with hnothing | hpositive
    · have hle : Decimal.le denom Decimal.zero = true := by
        rwa [Decimal.le, decide_eq_true_eq, Rounding.value_zero]
      rw [positiveRungs, List.filter_cons_of_neg (by simpa using hnothing), fundFrom, hle, Bool.true_or,
        if_pos rfl]
      exact ih hused hbudget hbound hrungs
    obtain ⟨denomUnits, hpos, hdenom⟩ := hworth hpositive
    rw [positiveRungs, List.filter_cons_of_pos (by simpa using hpositive)]
    have hpow : (0 : ℚ) < 10 ^ scale := by positivity
    have hzero : Decimal.le denom Decimal.zero = false := by
      rw [Decimal.le, decide_eq_false_iff_not, Rounding.value_zero]
      exact not_le.mpr hpositive
    rw [fundFrom, hzero, Bool.false_or]
    split
    · rename_i hshort
      exact .leave (.inr (.inl (of_decide_eq_true hshort))) (ih hused hbudget hbound hrungs)
    · rename_i hcovers
      have hle : denomUnits ≤ budgetUnits := by
        have : value denom ≤ value budget := not_lt.mp fun h => hcovers (decide_eq_true h)
        have := mul_le_mul_of_nonneg_right this hpow.le
        unfold HasUnits at hbudget hdenom
        rw [hbudget, hdenom] at this
        exact_mod_cast this
      dsimp only
      rw [affordable_eq hbudget hdenom hpos hle hbound hdeficit]
      have hone : 1 ≤ budgetUnits / denomUnits := (Nat.one_le_div_iff hpos).mpr hle
      split
      · rename_i hnone
        exact .leave (.inl (by dsimp only; omega)) (ih hused hbudget hbound hrungs)
      · rename_i hsome
        have hcost : min deficit (budgetUnits / denomUnits) * denomUnits ≤ budgetUnits :=
          (Nat.mul_le_mul_right _ (min_le_right _ _)).trans (Nat.div_mul_le_self _ _)
        have hmore : min deficit (budgetUnits / denomUnits) < deficit →
            budgetUnits < (min deficit (budgetUnits / denomUnits) + 1) * denomUnits := fun h => by
          rw [min_eq_right (by omega), mul_comm]
          exact Nat.lt_mul_div_succ _ hpos
        have hcount : min deficit (budgetUnits / denomUnits) ≤ deficit := min_le_left _ _
        generalize min deficit (budgetUnits / denomUnits) = count at hsome hcost hmore hcount ⊢
        obtain ⟨cost, rest, hmul, hsub, hvalue, hunits⟩ :=
          budget_rest hscale hbudget hdenom hbound hcost (hcount.trans hdeficit)
        rw [Option.bind_eq_bind, hmul, Option.bind_some, hsub]
        dsimp only
        rcases hused.lt_or_eq with hfree | rfl
        · have hdiv : value budget = budgetUnits / 10 ^ scale := hbudget.eq_div
          refine fundedWithin_take hmax hfree (Nat.one_le_iff_ne_zero.mpr hsome) hcount ?_
            hpositive.le (fun h => ?_) ?_
          · dsimp only
            rw [hdiv, hdenom.eq_div, ← mul_div_assoc]
            exact div_le_div_of_nonneg_right (by exact_mod_cast hcost) hpow.le
          · dsimp only
            rw [hdiv, hdenom.eq_div, ← mul_div_assoc]
            exact div_lt_div_of_pos_right (by exact_mod_cast hmore h) hpow
          · dsimp only
            rw [← hvalue]
            rcases le_or_gt (used + count) max with hfits | hover
            · exact ih hfits hunits (by omega) hrungs
            · rw [cap_full _ hover.le, Nat.sub_eq_zero_of_le hover.le]
              exact .of_no_room _ _
        · rw [cap_full _ le_rfl, Nat.sub_self]
          exact .of_no_room _ _

/-! ## The split -/

/-- Amounts of few enough digits: at most that many decimals, the reserve within 25 digits. -/
structure FewDigits (scale : Nat) (reserveAmount : D) (ladder : List (D × Nat)) : Prop where
  scale_le : scale ≤ 26
  reserve : ∃ units ≤ 10 ^ 25, HasUnits scale (value reserveAmount) units
  ladder : ∀ s ∈ ladder, 0 < value s.1 → ∃ units, HasUnits scale (value s.1) units

/-- Two more decimals. -/
theorem HasUnits.hundredfold {number : ℚ} {units : Nat} (h : HasUnits scale number units) :
    HasUnits (scale + 2) number (100 * units) := by
  unfold HasUnits at h ⊢
  push_cast
  rw [← h, pow_add]
  ring

theorem value_budget {reserveAmount : D} {units : Nat} (hscale : scale ≤ 26)
    (hreserve : HasUnits scale (value reserveAmount) units) (hunits : units ≤ 10 ^ 25) :
    ∃ budget, Decimal.checkedMul reserveAmount (Decimal.new 95 2 : D) = some budget ∧
      value budget = 95 / 100 * value reserveAmount ∧
      HasUnits (scale + 2) (value budget) (95 * units) := by
  have hnew : value (Decimal.new 95 2 : D) = 95 / 100 := by
    have hdecimal : IsDecimal (((95 : Int) : ℚ) / 10 ^ 2) :=
      isDecimal_iff.mpr ⟨2, by decide, 95, by norm_num, by decide⟩
    rw [Rounding.value_new hdecimal]
    norm_num
  have hproduct : HasUnits (scale + 2) (value reserveAmount * value (Decimal.new 95 2 : D))
      (95 * units) := by
    unfold HasUnits at hreserve ⊢
    rw [hnew]
    push_cast
    rw [← hreserve, pow_add]
    ring
  have hdecimal := hproduct.isDecimal (by omega) (by omega)
  obtain ⟨budget, hbudget, hvalue⟩ :=
    (Rounding.checkedMul reserveAmount (Decimal.new 95 2)).exact (Rounding.exact hdecimal) hdecimal
  refine ⟨budget, hbudget, ?_, hvalue ▸ hproduct⟩
  rw [hvalue, hnew, mul_comm]

/-- **A split takes part of what is missing, within the cap; and within 95 percent of the
reserve, without leaving out what is worth something and affordable, where the amounts have few
enough digits.** -/
theorem fundSplits_capped {reserveAmount : D} {ladder : List (D × Nat)} {cap : Nat}
    (hcap : cap ≤ u32Max) (hladder : ∀ s ∈ ladder, s.2 ≤ u32Max) :
    let splits := capSplitOutputs cap (fundSplits reserveAmount ladder) 0
    List.SublistForall₂ PartOf splits ladder ∧ outputs splits ≤ cap ∧
      ∀ scale, FewDigits scale reserveAmount ladder →
        FundedWithin (95 / 100 * value reserveAmount) cap (positiveRungs ladder) splits ∧
          totalValue splits ≤ 95 / 100 * value reserveAmount := by
  intro splits
  have hcapped := outputs_cap_le (fundSplits reserveAmount ladder) hcap (Nat.zero_le cap)
  rw [Nat.zero_add] at hcapped
  refine ⟨partOf_cap fundFrom_partOf, hcapped, fun scale hdigits => ?_⟩
  obtain ⟨units, hunits, hreserve⟩ := hdigits.reserve
  obtain ⟨budget, hbudget, hvalue, hbudgetUnits⟩ :=
    value_budget hdigits.scale_le hreserve hunits
  have hrungs : LadderUnits (scale + 2) ladder := fun s hs => by
    refine ⟨hladder s hs, fun hpos => ?_⟩
    obtain ⟨units, hs'⟩ := hdigits.ladder s hs hpos
    have hunits : units ≠ 0 := by
      rintro rfl
      rw [hs'.eq_div, Nat.cast_zero, zero_div] at hpos
      exact lt_irrefl 0 hpos
    exact ⟨100 * units, by omega, hs'.hundredfold⟩
  have hscale := hdigits.scale_le
  have hfunded : FundedWithin (95 / 100 * value reserveAmount) cap (positiveRungs ladder) splits := by
    have := fundedWithin_cap hcap (Nat.zero_le cap) (by omega) hbudgetUnits (by omega) hrungs
    rwa [hvalue, Nat.sub_zero, ← Option.getD_some (a := budget) (b := reserveAmount), ← hbudget]
      at this
  refine ⟨hfunded, hfunded.totalValue_le ?_⟩
  rw [hreserve.eq_div]
  positivity

end Exact

omit [LadderDecimal D] in
/-- A plan within the cap is kept whole. -/
theorem capSplitOutputs_eq_self {splits : List (D × Nat)} {used : Nat}
    (hpos : ∀ s ∈ splits, 1 ≤ s.2) (hle : used + outputs splits ≤ maxSplitOutputsPerTx) :
    capSplitOutputs maxSplitOutputsPerTx splits used = splits := by
  induction splits generalizing used with
  | nil => rfl
  | cons s rest ih =>
    obtain ⟨hs, hrest⟩ := List.forall_mem_cons.mp hpos
    rw [outputs_cons] at hle
    have htake : min s.2 (maxSplitOutputsPerTx - used) = s.2 := by omega
    have hused : min (used + s.2) u32Max = used + s.2 := by
      unfold maxSplitOutputsPerTx at hle
      unfold u32Max
      omega
    simp only [capSplitOutputs]
    rw [if_neg (by omega), htake, if_neg (by omega), hused, ih hrest (by omega)]

/-- The cap is only asked about when it matters. -/
theorem planSplits_eq_cap {reserveAmount : D} {deficits : List (D × Nat)} :
    planSplits reserveAmount deficits
      = capSplitOutputs maxSplitOutputsPerTx (fundSplits reserveAmount deficits) 0 := by
  unfold planSplits
  dsimp only
  split
  · rfl
  · rename_i hsmall
    rw [countSum_eq] at hsmall
    have hcounts : ∀ s ∈ fundSplits reserveAmount deficits, 1 ≤ s.2 :=
      counts_of_partOf fundFrom_partOf
    refine (capSplitOutputs_eq_self hcounts ?_).symm
    rw [Nat.zero_add, outputs]
    unfold maxSplitOutputsPerTx u32Max at *
    omega

/-! ## Where the digits do not suffice -/

/-- `saturating_mul`, `checked_div` and `trunc().to_u32()`. -/
instance : LadderDecimal RoundedDecimal where
  saturatingMul a b :=
    (RoundedDecimal.result (a.number * b.number)).getD
      (if a.number * b.number < 0 then ⟨-maxDecimal, by decide +kernel⟩
        else ⟨maxDecimal, isDecimal_maxDecimal⟩)
  checkedDiv a b := if b.number = 0 then none else RoundedDecimal.result (a.number / b.number)
  truncToU32 d := if 0 ≤ d.number ∧ ⌊d.number⌋ ≤ u32Max then some ⌊d.number⌋.toNat else none

instance : LadderRounding RoundedDecimal where
  checkedDiv a b h := by
    have hne : ¬ b.number = 0 := h
    change RoundsTo _ (if b.number = 0 then none else _) _
    rw [if_neg hne]
    exact RoundedDecimal.roundsTo_result _
  truncToU32 d h := by
    change (if 0 ≤ d.number ∧ ⌊d.number⌋ ≤ u32Max then _ else _) = _
    have : 0 ≤ d.number := h
    simp only [this, true_and]
    rfl

/-- The smallest decimal number. -/
def smallest : RoundedDecimal := ⟨1 / 10 ^ 28, by decide +kernel⟩

def largeDenomination : RoundedDecimal := ⟨30000000000000000000000000002, by decide +kernel⟩

/-- Ninety-five percent of it are twice the denomination, less one. -/
def largeReserve : RoundedDecimal := ⟨63157894736842105263157894740, by decide +kernel⟩

/-- A reserve of the smallest number is spent whole; two of the large denomination are taken where
one is affordable; less than nothing is not kept; and a rung of zero is left out. -/
theorem fundSplits_rounds :
    95 / 100 * value smallest < totalValue
      (capSplitOutputs maxSplitOutputsPerTx (fundSplits smallest [(smallest, 1)]) 0) ∧
    95 / 100 * value largeReserve < totalValue (capSplitOutputs maxSplitOutputsPerTx
      (fundSplits largeReserve [(largeDenomination, 2)]) 0) ∧
    95 / 100 * value (⟨-1, by decide +kernel⟩ : RoundedDecimal) < totalValue
      (capSplitOutputs maxSplitOutputsPerTx
        (fundSplits (⟨-1, by decide +kernel⟩ : RoundedDecimal) []) 0) ∧
    ¬ FundedWithin (95 / 100 * value (⟨1, by decide +kernel⟩ : RoundedDecimal))
      maxSplitOutputsPerTx [((⟨0, by decide +kernel⟩ : RoundedDecimal), 1)]
      (capSplitOutputs maxSplitOutputsPerTx (fundSplits (⟨1, by decide +kernel⟩ : RoundedDecimal)
        [((⟨0, by decide +kernel⟩ : RoundedDecimal), 1)]) 0) := by
  refine ⟨by decide +kernel, by decide +kernel, by decide +kernel, fun h => ?_⟩
  have hnone : capSplitOutputs maxSplitOutputsPerTx (fundSplits
      (⟨1, by decide +kernel⟩ : RoundedDecimal)
      [((⟨0, by decide +kernel⟩ : RoundedDecimal), 1)]) 0 = [] := by
    decide +kernel
  rw [hnone] at h
  cases h with
  | leave none _ => exact absurd none (by decide +kernel)

/-! ## A reserve of a hundred -/

def hundred : RoundedDecimal := ⟨100, by decide +kernel⟩

/-- Two rungs of thirty, one of zero and four of ten. -/
def thirtiesAndTens : List (RoundedDecimal × Nat) :=
  [(⟨30, by decide +kernel⟩, 2), (⟨0, by decide +kernel⟩, 1), (⟨10, by decide +kernel⟩, 4)]

/-- Of the tens only three are affordable, and the zero is skipped. -/
theorem fundSplits_capped_hundred :
    let splits := capSplitOutputs 90 (fundSplits hundred thirtiesAndTens) 0
    FundedWithin (95 / 100 * value hundred) 90 (positiveRungs thirtiesAndTens) splits ∧
      totalValue splits ≤ 95 / 100 * value hundred := by
  refine (fundSplits_capped (by decide) (by decide)).2.2 0
    ⟨by decide, ⟨100, by decide, ?_⟩, fun s hs _ => ?_⟩
  · norm_num [HasUnits, hundred, value]
  · simp only [thirtiesAndTens, List.mem_cons, List.not_mem_nil, or_false] at hs
    rcases hs with rfl | rfl | rfl
    · exact ⟨30, by norm_num [HasUnits, value]⟩
    · exact ⟨0, by norm_num [HasUnits, value]⟩
    · exact ⟨10, by norm_num [HasUnits, value]⟩

example : (fundSplits hundred thirtiesAndTens).map Prod.snd = [2, 3] := by
  decide +kernel

end BookAgent.CloudAgent
