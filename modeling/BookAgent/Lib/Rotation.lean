import Mathlib.Data.List.Rotate
import Mathlib.Data.Nat.ModEq

/-!
# Turns in rotation

`total` takers in a circle, served from `start` on: how many are served before `j`, and that one who
waits is served after at most that many rounds, when every round serves somebody and the next one goes
on where it stopped.
-/

namespace BookAgent.Lib.Rotation

/-- How many are served before `j`. -/
def wait (total start j : Nat) : Nat := (j + total - start) % total

variable {total start j served : Nat}

theorem wait_lt (h : 0 < total) : wait total start j < total := Nat.mod_lt _ h

theorem wait_eq (hstart : start < total) (hj : j < total) :
    wait total start j = if start ≤ j then j - start else j + total - start := by
  unfold wait
  split_ifs with h
  · rw [show j + total - start = j - start + total by omega, Nat.add_mod_right]
    exact Nat.mod_eq_of_lt (by omega)
  · exact Nat.mod_eq_of_lt (by omega)

/-- The turn of `j` comes after those that wait before it. -/
theorem turn_wait (hstart : start < total) (hj : j < total) :
    (start + wait total start j) % total = j := by
  rw [wait_eq hstart hj]
  split_ifs with h
  · rw [show start + (j - start) = j by omega]
    exact Nat.mod_eq_of_lt hj
  · rw [show start + (j + total - start) = j + total by omega, Nat.add_mod_right]
    exact Nat.mod_eq_of_lt hj

/-- Who is served waits for one fewer. -/
theorem wait_served (hstart : start < total) (hj : j < total) (h : served ≤ wait total start j) :
    wait total ((start + served) % total) j = wait total start j - served := by
  have hlt : (start + served) % total < total := Nat.mod_lt _ (by omega)
  have hserved : served < total := h.trans_lt (wait_lt (by omega))
  have hmod : (start + served) % total =
      if start + served < total then start + served else start + served - total := by
    split_ifs with hsum
    · exact Nat.mod_eq_of_lt hsum
    · rw [Nat.mod_eq_sub_mod (by omega)]
      exact Nat.mod_eq_of_lt (by omega)
  rw [wait_eq hlt hj, hmod]
  rw [wait_eq hstart hj] at h ⊢
  split_ifs at * <;> omega

/-- A rotated list is served from `start` on. -/
theorem getElem?_rotate {α : Type} {l : List α} {i : Nat} (hi : i < l.length) :
    (l.rotate start)[i]? = l[(start + i) % l.length]? := by
  rw [List.getElem?_rotate hi, Nat.add_comm]

/-- Rounds that each serve some and go on where the last one stopped: `j` is served in one of more
rounds than it waits. -/
theorem served_of_rounds {σ ρ : Type} (turn : σ → Nat) (round : σ → ρ → σ)
    (serves : σ → ρ → Nat → Prop) (inv : σ → Prop) (rounds : List ρ) (s : σ) (hj : j < total)
    (hinv : inv s) (hturn : ∀ s, inv s → turn s < total)
    (hround : ∀ s, inv s → ∀ r ∈ rounds, serves s r j ∨ inv (round s r) ∧
      ∃ served, 0 < served ∧ served ≤ wait total (turn s) j ∧
        turn (round s r) = (turn s + served) % total)
    (hmany : wait total (turn s) j < rounds.length) :
    ∃ before r after, rounds = before ++ r :: after ∧ serves (before.foldl round s) r j := by
  induction rounds generalizing s with
  | nil => exact absurd hmany (Nat.not_lt_zero _)
  | cons r rounds ih =>
    rcases hround s hinv r List.mem_cons_self with hserved | ⟨hinv', served, hpos, hle, hnext⟩
    · exact ⟨[], r, rounds, rfl, hserved⟩
    · have hwait : wait total (turn (round s r)) j = wait total (turn s) j - served := by
        rw [hnext]
        exact wait_served (hturn s hinv) hj hle
      obtain ⟨before, r', after, hrounds, hserves⟩ := ih (round s r) hinv'
        (fun s hs r' hr' => hround s hs r' (List.mem_cons_of_mem _ hr'))
        (by simp only [List.length_cons] at hmany; omega)
      exact ⟨r :: before, r', after, by rw [hrounds, List.cons_append], hserves⟩

/-- Nobody is served twice in a round. -/
theorem nodup_turns (h : served ≤ total) :
    ((List.range served).map fun i => (start + i) % total).Nodup := by
  refine List.nodup_range.map_on fun i hi k hk heq => ?_
  rw [List.mem_range] at hi hk
  exact (Nat.ModEq.add_left_cancel' start heq).eq_of_lt_of_lt (by omega) (by omega)

end BookAgent.Lib.Rotation
