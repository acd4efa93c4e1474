import Mathlib.Data.List.Basic

/-!
# Taking the best of a list

The first element that no other one beats is taken out of a list, as a binary heap does;
`better` says which of two elements is the better one.
-/

namespace BookAgent.Lib

variable {α : Type} {better : α → α → Bool}

def takeBest (better : α → α → Bool) : List α → Option (α × List α)
  | [] => none
  | x :: xs =>
    match takeBest better xs with
    | none => some (x, [])
    | some (y, rest) => if better x y then some (x, xs) else some (y, x :: rest)

theorem takeBest_eq_none {xs : List α} (h : takeBest better xs = none) : xs = [] := by
  cases xs with
  | nil => rfl
  | cons x xs =>
    rw [takeBest] at h
    split at h
    · cases h
    · split at h <;> cases h

/-- Nothing is lost. -/
theorem takeBest_perm {xs rest : List α} {best : α} (h : takeBest better xs = some (best, rest)) :
    xs.Perm (best :: rest) := by
  induction xs generalizing best rest with
  | nil => cases h
  | cons x xs ih =>
    rw [takeBest] at h
    split at h
    · next hnone =>
      cases h
      rw [takeBest_eq_none hnone]
    · next y ys hsome =>
      split at h
      · cases h
        exact .refl _
      · cases h
        exact ((ih hsome).cons x).trans (.swap best x ys)

/-- Nothing that is left is better than what was taken. -/
theorem takeBest_best (hasymm : ∀ a b, better a b = true → better b a = false)
    (hweak : ∀ a b c, better a b = false → better b c = false → better a c = false)
    {xs rest : List α} {best : α} (h : takeBest better xs = some (best, rest)) :
    ∀ x ∈ rest, better x best = false := by
  induction xs generalizing best rest with
  | nil => cases h
  | cons x xs ih =>
    rw [takeBest] at h
    split at h
    · cases h
      exact fun z hz => by cases hz
    · next y ys hsome =>
      split at h
      · next hbetter =>
        cases h
        rintro z hz
        rcases List.mem_cons.mp ((takeBest_perm hsome).mem_iff.mp hz) with rfl | hz
        · exact hasymm x z hbetter
        · exact hweak z y x (ih hsome z hz) (hasymm x y hbetter)
      · next hnot =>
        cases h
        rintro z hz
        rcases List.mem_cons.mp hz with rfl | hz
        · exact Bool.not_eq_true _ ▸ hnot
        · exact ih hsome z hz

end BookAgent.Lib
