import Mathlib.Logic.Basic

/-!
# Retry loops

An attempt ends its loop or asks for one more, and leaves a trace of what it has sent. What
every attempt preserves holds of the trace when the loop ends.
-/

namespace BookAgent.Lib

variable {σ ρ τ : Type}

/-- What an attempt comes to, with the state it leaves. -/
inductive Attempt (σ ρ : Type)
  | stop (state : σ) (result : ρ)
  | again (state : σ)

/-- The attempts from the `n`th, at most `left` of them: what they sent, the state after the
last one and its result. -/
def attempts (step : Nat → σ → List τ × Attempt σ ρ) (exhausted : ρ) :
    (left : Nat) → (n : Nat) → σ → List τ × σ × ρ
  | 0, _, s => ([], s, exhausted)
  | left + 1, n, s =>
    match step n s with
    | (sent, .stop s' r) => (sent, s', r)
    | (sent, .again s') =>
      let rest := attempts step exhausted left (n + 1) s'
      (sent ++ rest.1, rest.2)

variable {step : Nat → σ → List τ × Attempt σ ρ} {exhausted : ρ}

/-- The rule of the loop: an invariant of what was sent before the `n`th attempt, and what it
establishes where the loop ends. -/
theorem attempts_rule {I : Nat → List τ → σ → Prop} {Q : List τ → σ → ρ → Prop}
    (hagain : ∀ n sent s t s', I n sent s → step n s = (t, .again s') → I (n + 1) (sent ++ t) s')
    (hstop : ∀ n sent s t s' r, I n sent s → step n s = (t, .stop s' r) → Q (sent ++ t) s' r)
    (hexhausted : ∀ n sent s, I n sent s → Q sent s exhausted) (left : Nat) :
    ∀ n sent s, I n sent s →
      Q (sent ++ (attempts step exhausted left n s).1) (attempts step exhausted left n s).2.1
        (attempts step exhausted left n s).2.2 := by
  induction left with
  | zero =>
    intro n sent s inv
    rw [attempts, List.append_nil]
    exact hexhausted n sent s inv
  | succ left ih =>
    intro n sent s inv
    rw [attempts]
    rcases hstep : step n s with ⟨t, s' | s'⟩
    · exact hstop n sent s t _ _ inv hstep
    · have later := ih (n + 1) (sent ++ t) s' (hagain n sent s t s' inv hstep)
      rw [List.append_assoc] at later
      exact later

/-- What the first attempt sends is sent. -/
theorem mem_attempts_of_first {x : τ} {left n : Nat} {s : σ} (h : x ∈ (step n s).1) :
    x ∈ (attempts step exhausted (left + 1) n s).1 := by
  rw [attempts]
  rcases hstep : step n s with ⟨t, s' | s'⟩
  · rw [hstep] at h
    exact h
  · rw [hstep] at h
    exact List.mem_append_left _ h

/-- Attempts that end alike leave the same state and result, whatever they record. -/
theorem attempts_snd_eq {υ : Type} {other : Nat → σ → List υ × Attempt σ ρ}
    (h : ∀ n s, (other n s).2 = (step n s).2) (left : Nat) : ∀ n s,
      (attempts other exhausted left n s).2 = (attempts step exhausted left n s).2 := by
  induction left with
  | zero => exact fun n s => rfl
  | succ left ih =>
    intro n s
    have same := h n s
    rw [attempts, attempts]
    rcases hstep : step n s with ⟨t, s' | s'⟩ <;> rcases hother : other n s with ⟨u, next⟩ <;>
      rw [hstep, hother] at same <;> subst same
    · rfl
    · exact ih (n + 1) s'

end BookAgent.Lib
