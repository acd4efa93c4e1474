import Mathlib.Data.List.Basic

/-!
# Spaced times

A log of times in which two entries are at least a gap apart and no window holds
more than a cap of them, and when a further time may follow.
-/

namespace BookAgent.Lib

structure Spaced (gap window cap : Nat) (times : List Nat) : Prop where
  apart : times.Pairwise fun earlier later => earlier + gap ≤ later
  windows : ∀ start, (times.countP fun t => decide (start ≤ t ∧ t < start + window)) ≤ cap

/-- Every time of the log is a gap ago, and the window up to now has room. -/
structure MayFollow (gap window cap : Nat) (times : List Nat) (now : Nat) : Prop where
  gap : ∀ t ∈ times, t + gap ≤ now
  room : (times.countP fun t => decide (now < t + window)) < cap

variable {gap window cap now now' : Nat} {times : List Nat}

theorem Spaced.nil : Spaced gap window cap [] := ⟨.nil, fun _ => Nat.zero_le _⟩

/-- What may follow now may follow later. -/
theorem MayFollow.later (h : MayFollow gap window cap times now) (hle : now ≤ now') :
    MayFollow gap window cap times now' where
  gap t ht := Nat.le_trans (h.gap t ht) hle
  room := by
    refine Nat.lt_of_le_of_lt (List.countP_mono_left fun t _ ht => ?_) h.room
    simp only [decide_eq_true_eq] at ht ⊢
    omega

theorem Spaced.concat (h : Spaced gap window cap times) (hmay : MayFollow gap window cap times now) :
    Spaced gap window cap (times ++ [now]) where
  apart := by
    refine List.pairwise_append.mpr ⟨h.apart, List.pairwise_singleton .., fun t ht later hlater => ?_⟩
    rw [List.mem_singleton.mp hlater]
    exact hmay.gap t ht
  windows start := by
    rw [List.countP_append]
    by_cases hin : start ≤ now ∧ now < start + window
    · -- the window ends after now, so it sees no more than the window up to now
      have hle : (times.countP fun t => decide (start ≤ t ∧ t < start + window)) ≤
          times.countP fun t => decide (now < t + window) := by
        refine List.countP_mono_left fun t _ ht => ?_
        simp only [decide_eq_true_eq] at ht ⊢
        omega
      have hroom := hmay.room
      simp only [List.countP_singleton, hin, and_self, decide_true, if_true]
      omega
    · simpa [List.countP_singleton, hin] using h.windows start

end BookAgent.Lib
