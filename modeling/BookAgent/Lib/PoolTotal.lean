import Mathlib.Algebra.BigOperators.Group.List.Basic
import Mathlib.Algebra.Order.BigOperators.Group.List
import BookAgent.Lib.Pool

/-!
# Totals over a pool

The sum of a weight over the entries of a pool, and how each map operation moves
it: an insertion adds the new weight and takes back the one it replaces, a removal
takes back what was there, and dropping entries of non-negative weight never adds.
-/

namespace BookAgent.Lib.Pool

variable {κ α M : Type} [DecidableEq κ]

section AddCommMonoid

variable [AddCommMonoid M] {w w' : κ → α → M} {p : Pool κ α} {k : κ} {v : α}

/-- The sum of the entries' weights. -/
def total (w : κ → α → M) (p : Pool κ α) : M := (p.entries.map fun e => w e.1 e.2).sum

omit [DecidableEq κ] in
@[simp] theorem total_empty : total w (∅ : Pool κ α) = 0 := rfl

omit [DecidableEq κ] in
theorem sum_values_eq_total (p : Pool κ M) : p.values.sum = p.total fun _ x => x := rfl

theorem total_insert : total w (AList.insert k v p) = w k v + total w (AList.erase k p) := by
  rw [total, AList.entries_insert, List.map_cons, List.sum_cons]
  rfl

/-- An entry's weight is part of the total. -/
theorem total_erase (h : p.lookup k = some v) : w k v + total w (AList.erase k p) = total w p := by
  have hkey : k ∈ p.entries.keys := AList.mem_keys.mp (mem_iff_lookup.mpr ⟨v, h⟩)
  obtain ⟨v', front, back, -, hsplit, herase⟩ := List.exists_of_kerase hkey
  have hv : v' = v := by
    have hmem : ⟨k, v'⟩ ∈ p.entries := hsplit ▸ List.mem_append_right _ List.mem_cons_self
    have found : p.lookup k = some v' := AList.mem_lookup_iff.mpr hmem
    exact Option.some.inj (found.symm.trans h)
  subst hv
  have whole : total w p = ((front ++ ⟨k, v'⟩ :: back).map fun e => w e.1 e.2).sum := by
    rw [total, hsplit]
  have rest : total w (AList.erase k p) = ((front ++ back).map fun e => w e.1 e.2).sum := by
    exact congrArg (fun es => (es.map fun e => w e.1 e.2).sum) herase
  rw [whole, rest]
  simp only [List.map_append, List.map_cons, List.sum_append, List.sum_cons]
  exact add_left_comm _ _ _

theorem total_eq_zero (h : ∀ k v, p.lookup k = some v → w k v = 0) : total w p = 0 := by
  refine List.sum_eq_zero ?_
  intro x hx
  obtain ⟨⟨k, v⟩, hmem, rfl⟩ := List.mem_map.mp hx
  exact h k v (AList.mem_lookup_iff.mpr hmem)

/-- The total is that of the lookups, whatever the order of the entries. -/
theorem total_eq_of_lookup {q : Pool κ α} (h : ∀ k, p.lookup k = q.lookup k) :
    total w p = total w q := by
  have perm : p.entries.Perm q.entries := by
    refine List.lookup_ext p.nodupKeys q.nodupKeys ?_
    intro k v
    exact iff_of_eq (congrArg (v ∈ ·) (h k))
  exact (perm.map _).sum_eq

theorem total_insert_new (h : p.lookup k = none) :
    total w (AList.insert k v p) = w k v + total w p := by
  rw [total_insert, erase_of_lookup h]

end AddCommMonoid

section Ordered

variable [AddCommMonoid M] [PartialOrder M] [IsOrderedAddMonoid M]
variable {w : κ → α → M} {p : Pool κ α} {k : κ} {v : α}

theorem total_nonneg (h : ∀ k v, p.lookup k = some v → 0 ≤ w k v) : 0 ≤ total w p := by
  refine List.sum_nonneg ?_
  intro x hx
  obtain ⟨⟨k, v⟩, hmem, rfl⟩ := List.mem_map.mp hx
  exact h k v (AList.mem_lookup_iff.mpr hmem)

/-- Removing a key takes no non-negative weight out of the total but its own. -/
theorem total_erase_le (h : ∀ k v, p.lookup k = some v → 0 ≤ w k v) :
    total w (AList.erase k p) ≤ total w p := by
  cases hk : p.lookup k with
  | none => rw [erase_of_lookup hk]
  | some v =>
    rw [← total_erase hk]
    exact le_add_of_nonneg_left (h k v hk)

/-- Replacing an entry of non-negative weight adds at most the new weight. -/
theorem total_insert_le (h : ∀ k v, p.lookup k = some v → 0 ≤ w k v) :
    total w (AList.insert k v p) ≤ w k v + total w p := by
  rw [total_insert]
  exact add_le_add_right (total_erase_le h) _

end Ordered

end BookAgent.Lib.Pool
