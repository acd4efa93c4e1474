import Mathlib.Data.List.Sort

/-!
# Stable sorting

Insertion sort by a key keeps the order of members with equal keys; what stands before a
member of a sorted list is counted by the keys.
-/

namespace BookAgent.Lib

variable {α K : Type} [LinearOrder K] {key : α → K} {S : α → α → Prop}

/-- Smaller keys first, and members with equal keys in an order that they were in. -/
def StableOrder (key : α → K) (S : α → α → Prop) (a b : α) : Prop :=
  key a < key b ∨ (key a = key b ∧ S a b)

theorem StableOrder.le {a b : α} (h : StableOrder key S a b) : key a ≤ key b := by
  rcases h with hlt | ⟨heq, -⟩
  · exact hlt.le
  · exact heq.le

theorem pairwise_orderedInsert_stable {a : α} {l : List α} (ha : ∀ b ∈ l, S a b)
    (h : l.Pairwise (StableOrder key S)) :
    (l.orderedInsert (fun a b => key a ≤ key b) a).Pairwise (StableOrder key S) := by
  induction l with
  | nil => exact List.pairwise_singleton _ _
  | cons b l ih =>
    obtain ⟨hb, hl⟩ := List.pairwise_cons.mp h
    rw [List.orderedInsert_cons]
    split_ifs with hle
    · refine List.pairwise_cons.mpr ⟨fun x hx => ?_, h⟩
      have later : key b ≤ key x := by
        rcases List.mem_cons.mp hx with rfl | hx
        · exact le_rfl
        · exact (hb x hx).le
      rcases (hle.trans later).lt_or_eq with hlt | heq
      · exact .inl hlt
      · exact .inr ⟨heq, ha x hx⟩
    · refine List.pairwise_cons.mpr ⟨fun x hx => ?_, ih (fun x hx => ha x (List.mem_cons_of_mem _ hx)) hl⟩
      rcases (List.mem_orderedInsert _).mp hx with rfl | hx
      · exact .inl (not_le.mp hle)
      · exact hb x hx

theorem pairwise_insertionSort_stable {l : List α} (h : l.Pairwise S) :
    (l.insertionSort fun a b => key a ≤ key b).Pairwise (StableOrder key S) := by
  induction l with
  | nil => exact List.Pairwise.nil
  | cons a l ih =>
    obtain ⟨ha, hl⟩ := List.pairwise_cons.mp h
    rw [List.insertionSort_cons]
    exact pairwise_orderedInsert_stable
      (fun b hb => ha b ((List.mem_insertionSort _).mp hb)) (ih hl)

/-- The members of a kind before `a` are those of the whole list that `a` comes after. -/
theorem countP_before {l before after : List α} {a : α} {R : α → α → Prop} {p q : α → Bool}
    (h : l.Pairwise R) (hl : l = before ++ a :: after)
    (hbefore : ∀ x, R x a → (q x = true ↔ p x = true)) (ha : q a = false)
    (hafter : ∀ x, R a x → q x = false) : before.countP p = l.countP q := by
  subst hl
  obtain ⟨-, hrest, hcross⟩ := List.pairwise_append.mp h
  have first : before.countP p = before.countP q :=
    List.countP_congr fun x hx => (hbefore x (hcross x hx a List.mem_cons_self)).symm
  have rest : (a :: after).countP q = 0 := by
    refine List.countP_eq_zero.mpr fun x hx => ?_
    rcases List.mem_cons.mp hx with rfl | hx
    · rw [ha]
      exact Bool.noConfusion
    · rw [hafter x ((List.pairwise_cons.mp hrest).1 x hx)]
      exact Bool.noConfusion
  rw [List.countP_append, rest, Nat.add_zero, first]

end BookAgent.Lib
