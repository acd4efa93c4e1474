import Mathlib.Data.List.Perm.Basic

/-!
# Removal by swap

`Vec::swap_remove`: the last element of a list takes the place of the removed one.
-/

namespace BookAgent.Lib

variable {α : Type}

def swapRemove (l : List α) (i : Nat) : List α :=
  match l.getLast? with
  | none => l
  | some last => (l.set i last).dropLast

/-- A replaced element and the new list are the new element and the old list. -/
theorem perm_set (l : List α) {i : Nat} (a : α) (h : i < l.length) :
    (l[i] :: l.set i a).Perm (a :: l) := by
  induction l generalizing i with
  | nil => exact absurd h (Nat.not_lt_zero i)
  | cons b l ih =>
    cases i with
    | zero => exact List.Perm.swap a b l
    | succ i =>
      have tail := ih (Nat.lt_of_succ_lt_succ h)
      exact (List.Perm.swap b (l.get ⟨i, Nat.lt_of_succ_lt_succ h⟩) (l.set i a)).trans
        ((tail.cons b).trans (List.Perm.swap a b l))

/-- Removing by swap takes out the element at the index, and no other. -/
theorem perm_swapRemove (l : List α) {i : Nat} (h : i < l.length) :
    l.Perm (l[i] :: swapRemove l i) := by
  obtain rfl | ⟨front, last, rfl⟩ := List.eq_nil_or_concat' l
  · exact absurd h (Nat.not_lt_zero i)
  unfold swapRemove
  rw [List.getLast?_concat]
  dsimp only
  by_cases hi : i < front.length
  · rw [List.set_append_left _ _ hi, List.dropLast_concat, List.getElem_append_left hi]
    exact (List.perm_append_singleton last front).trans (perm_set front last hi).symm
  · rw [List.length_append, List.length_singleton] at h
    obtain rfl : i = front.length := by omega
    rw [List.set_append_right _ _ (Nat.le_refl _), Nat.sub_self, List.set_cons_zero, List.dropLast_concat,
      List.getElem_append_right (Nat.le_refl _)]
    simp only [Nat.sub_self, List.getElem_cons_zero]
    exact List.perm_append_singleton last front

end BookAgent.Lib
