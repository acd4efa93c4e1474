import Mathlib.Data.List.Forall2
import BookAgent.Lib.DecimalRounding

/-!
# Sums that reach a target

A sum of decimals is added up in the order of its items, each partial sum rounded. It reaches a
target if it is at least the target, or beyond the range. More items, or larger ones, reach
whatever fewer or smaller ones do, whatever the rounding.
-/

namespace BookAgent.Lib.Decimal

variable {D : Type} [Decimal D] {target total total' : D} {items items' : List D}

/-- The total and the items, added up in order, reach the target. -/
def ReachesFrom (target total : D) (items : List D) : Prop :=
  match items.foldlM checkedAdd total with
  | some sum => value target ≤ value sum
  | none => True

/-- The items, added up in order, reach the target. -/
def Reaches (target : D) (items : List D) : Prop := ReachesFrom target zero items

@[simp] theorem reachesFrom_nil : ReachesFrom target total [] ↔ value target ≤ value total := Iff.rfl

theorem reachesFrom_cons_none {d : D} (h : checkedAdd total d = none) :
    ReachesFrom target total (d :: items) := by
  simp [ReachesFrom, List.foldlM_cons, h]

theorem reachesFrom_cons_some {d next : D} (h : checkedAdd total d = some next) :
    ReachesFrom target total (d :: items) ↔ ReachesFrom target next items := by
  simp [ReachesFrom, List.foldlM_cons, h]

variable [Rounding D]

/-- A larger sum is beyond the range too, or it rounds to no less. -/
theorem checkedAdd_le {d d' : D} (htotal : value total ≤ value total') (hd : value d ≤ value d')
    (hnonneg : 0 ≤ value total + value d) :
    checkedAdd total' d' = none ∨ ∃ next', checkedAdd total' d' = some next' ∧
      match checkedAdd total d with
      | some next => value next ≤ value next' ∧ 0 ≤ value next
      | none => value next' = maxDecimal := by
  have hround' := Rounding.checkedAdd total' d'
  cases hsum' : checkedAdd total' d' with
  | none => exact .inl rfl
  | some next' =>
    rw [hsum'] at hround'
    change value next' = _ at hround'
    refine .inr ⟨next', rfl, ?_⟩
    have hround := Rounding.checkedAdd total d
    have hle : value total + value d ≤ value total' + value d' := add_le_add htotal hd
    cases hsum : checkedAdd total d with
    | none =>
      rw [hsum] at hround
      change maxDecimal < |_| at hround
      rw [abs_of_nonneg hnonneg] at hround
      refine le_antisymm (Rounding.le_max next') ?_
      rw [hround', ← Rounding.exact (D := D) isDecimal_maxDecimal]
      exact Rounding.mono (hround.le.trans hle)
    | some next =>
      rw [hsum] at hround
      change value next = _ at hround
      refine ⟨?_, ?_⟩
      · rw [hround, hround']
        exact Rounding.mono hle
      · rw [hround, ← Rounding.exact (D := D) isDecimal_zero]
        exact Rounding.mono hnonneg

/-- Adding an item takes nothing away. -/
theorem le_checkedAdd {d next : D} (hd : 0 ≤ value d) (h : checkedAdd total d = some next) :
    value total ≤ value next := by
  have hround := Rounding.checkedAdd total d
  rw [h] at hround
  calc value total = Rounding.round D (value total) :=
        (Rounding.exact (Rounding.isDecimal total)).symm
    _ ≤ Rounding.round D (value total + value d) := Rounding.mono (le_add_of_nonneg_right hd)
    _ = value next := hround.symm

/-- A total that has reached the target is not taken back. -/
theorem reachesFrom_of_le (hnonneg : ∀ d ∈ items, 0 ≤ value d) (htotal : 0 ≤ value total)
    (h : value target ≤ value total) : ReachesFrom target total items := by
  induction items generalizing total with
  | nil => exact h
  | cons d items ih =>
    obtain ⟨hd, hnonneg⟩ := List.forall_mem_cons.mp hnonneg
    cases hsum : checkedAdd total d with
    | none => exact reachesFrom_cons_none hsum
    | some next =>
      have hle : value total ≤ value next := le_checkedAdd hd hsum
      rw [reachesFrom_cons_some hsum]
      exact ih hnonneg (htotal.trans hle) (h.trans hle)

/-- **More and larger items reach what fewer and smaller ones do.** -/
theorem ReachesFrom.mono (h : ReachesFrom target total items)
    (hitems : List.SublistForall₂ (fun a b => value a ≤ value b) items items')
    (hnonneg : ∀ d ∈ items, 0 ≤ value d) (hnonneg' : ∀ d ∈ items', 0 ≤ value d)
    (htotal : 0 ≤ value total) (hle : value total ≤ value total') :
    ReachesFrom target total' items' := by
  induction hitems generalizing total total' with
  | nil => exact reachesFrom_of_le hnonneg' (htotal.trans hle) (h.trans hle)
  | @cons d d' items items' hd hitems ih =>
    obtain ⟨hd0, hnonneg⟩ := List.forall_mem_cons.mp hnonneg
    obtain ⟨hd0', hnonneg'⟩ := List.forall_mem_cons.mp hnonneg'
    rcases checkedAdd_le hle hd (add_nonneg htotal hd0) with hnone | ⟨next', hnext', hsum⟩
    · exact reachesFrom_cons_none hnone
    · rw [reachesFrom_cons_some hnext']
      cases hnext : checkedAdd total d with
      | none =>
        rw [hnext] at hsum
        have hmax : value next' = maxDecimal := hsum
        have hpos : 0 ≤ value next' := by
          rw [hmax]
          norm_num [maxDecimal]
        exact reachesFrom_of_le hnonneg' hpos (hmax ▸ Rounding.le_max target)
      | some next =>
        rw [hnext] at hsum
        rw [reachesFrom_cons_some hnext] at h
        exact ih h hnonneg hnonneg' hsum.2 hsum.1
  | @cons_right d' items items' hitems ih =>
    obtain ⟨hd0', hnonneg'⟩ := List.forall_mem_cons.mp hnonneg'
    cases hsum : checkedAdd total' d' with
    | none => exact reachesFrom_cons_none hsum
    | some next' =>
      rw [reachesFrom_cons_some hsum]
      exact ih h hnonneg hnonneg' htotal (hle.trans (le_checkedAdd hd0' hsum))

theorem Reaches.mono (h : Reaches target items)
    (hitems : List.SublistForall₂ (fun a b => value a ≤ value b) items items')
    (hnonneg : ∀ d ∈ items, 0 ≤ value d) (hnonneg' : ∀ d ∈ items', 0 ≤ value d) :
    Reaches target items' :=
  ReachesFrom.mono h hitems hnonneg hnonneg' Rounding.value_zero.ge le_rfl

/-- Nothing is left to rounding where the partial sums are decimal numbers. -/
theorem reaches_iff_of_exact (h : ∀ front, front <+: items → IsDecimal (front.map value).sum) :
    Reaches target items ↔ value target ≤ (items.map value).sum := by
  obtain ⟨sum, hsum, hvalue⟩ := decSum_exact h
  unfold decSum at hsum
  simp [Reaches, ReachesFrom, hsum, hvalue]

end BookAgent.Lib.Decimal
