import Mathlib.Algebra.BigOperators.Group.List.Basic
import Mathlib.Algebra.Order.BigOperators.Group.List

/-!
# Taking the largest first

Of all ways to take a number of items, taking the largest weighs the most, item by item too.
-/

namespace BookAgent.Lib

variable {α K : Type} [AddCommMonoid K] [PartialOrder K] [IsOrderedAddMonoid K] {w : α → K}

/-- The weight of some items. -/
def weight (w : α → K) (items : List α) : K := (items.map w).sum

omit [PartialOrder K] [IsOrderedAddMonoid K] in
@[simp] theorem weight_nil : weight w [] = 0 := rfl

omit [PartialOrder K] [IsOrderedAddMonoid K] in
@[simp] theorem weight_cons (a : α) (items : List α) :
    weight w (a :: items) = w a + weight w items :=
  List.sum_cons

omit [PartialOrder K] [IsOrderedAddMonoid K] in
@[simp] theorem weight_append (items items' : List α) :
    weight w (items ++ items') = weight w items + weight w items' := by
  unfold weight
  rw [List.map_append, List.sum_append]

omit [PartialOrder K] [IsOrderedAddMonoid K] in
theorem weight_perm {items items' : List α} (h : items.Perm items') :
    weight w items = weight w items' :=
  (h.map w).sum_eq

theorem weight_nonneg {items : List α} (h : ∀ a ∈ items, 0 ≤ w a) : 0 ≤ weight w items :=
  List.sum_nonneg fun x hx => by
    obtain ⟨a, ha, rfl⟩ := List.mem_map.mp hx
    exact h a ha

/-- **The largest items weigh at least as much as any others.** -/
theorem weight_le_take {items : List α} (hdesc : items.Pairwise fun a b => w b ≤ w a)
    (hnonneg : ∀ a ∈ items, 0 ≤ w a) {sub : List α} (hsub : sub.Sublist items) {k : Nat}
    (hlen : sub.length ≤ k) : weight w sub ≤ weight w (items.take k) := by
  induction items generalizing sub k with
  | nil =>
    rw [List.sublist_nil.mp hsub, List.take_nil]
  | cons a items ih =>
    obtain ⟨ha, hdesc⟩ := List.pairwise_cons.mp hdesc
    obtain ⟨-, hnonneg'⟩ := List.forall_mem_cons.mp hnonneg
    cases sub with
    | nil => exact weight_nonneg fun b hb => hnonneg b (List.mem_of_mem_take hb)
    | cons b sub =>
      cases k with
      | zero => exact absurd hlen (Nat.not_succ_le_zero _)
      | succ k =>
        rw [List.take_succ_cons, weight_cons, weight_cons]
        -- the first of the others weighs at most as much as the largest
        refine add_le_add ?_ (ih hdesc hnonneg' hsub.of_cons_cons (Nat.le_of_succ_le_succ hlen))
        rcases List.mem_cons.mp (hsub.subset List.mem_cons_self) with rfl | hb
        · exact le_rfl
        · exact ha b hb

omit [AddCommMonoid K] [IsOrderedAddMonoid K] in
/-- Of the others, the first weighs no more than the largest, the second no more than the next
largest, and so on. -/
theorem forall₂_take {items : List α} (hdesc : items.Pairwise fun a b => w b ≤ w a)
    {sub : List α} (hsub : sub.Sublist items) :
    List.Forall₂ (fun a b => w a ≤ w b) sub (items.take sub.length) := by
  induction items generalizing sub with
  | nil =>
    rw [List.sublist_nil.mp hsub]
    exact .nil
  | cons a items ih =>
    obtain ⟨ha, hdesc⟩ := List.pairwise_cons.mp hdesc
    cases sub with
    | nil => exact .nil
    | cons b sub =>
      refine .cons ?_ (ih hdesc hsub.of_cons_cons)
      rcases List.mem_cons.mp (hsub.subset List.mem_cons_self) with rfl | hb
      · exact le_rfl
      · exact ha b hb

end BookAgent.Lib
