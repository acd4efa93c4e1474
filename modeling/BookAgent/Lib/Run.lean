/-!
# Runs of a guarded system

A system takes one event after another; a rule says which events may come in a
state. What holds at the start and is preserved by every allowed event holds in
every state a run reaches.
-/

namespace BookAgent.Lib

variable {σ ε : Type}

/-- The states reached from `start` by events that `allowed` admits. -/
inductive Reachable (allowed : σ → ε → Prop) (apply : σ → ε → σ) (start : σ) : σ → Prop
  | start : Reachable allowed apply start start
  | step {s : σ} {e : ε} : Reachable allowed apply start s → allowed s e →
      Reachable allowed apply start (apply s e)

namespace Reachable

variable {allowed allowed' : σ → ε → Prop} {apply : σ → ε → σ} {start s : σ}

/-- An invariant of the single event is an invariant of the run. -/
theorem invariant (inv : σ → Prop) (base : inv start)
    (preserved : ∀ s e, inv s → allowed s e → inv (apply s e))
    (run : Reachable allowed apply start s) : inv s := by
  induction run with
  | start => exact base
  | step _ hallowed ih => exact preserved _ _ ih hallowed

/-- A run goes on with another one. -/
theorem trans {last : σ} (run : Reachable allowed apply start s)
    (rest : Reachable allowed apply s last) : Reachable allowed apply start last :=
  rest.invariant _ run fun _ _ h hallowed => .step h hallowed

/-- A run under a stricter rule is a run under the laxer one. -/
theorem mono (weaker : ∀ s e, allowed s e → allowed' s e)
    (run : Reachable allowed apply start s) : Reachable allowed' apply start s := by
  induction run with
  | start => exact .start
  | step _ hallowed ih => exact .step ih (weaker _ _ hallowed)

end Reachable

/-- The rule admits the events one after the other. -/
def Admits (allowed : σ → ε → Prop) (apply : σ → ε → σ) : σ → List ε → Prop
  | _, [] => True
  | s, e :: es => allowed s e ∧ Admits allowed apply (apply s e) es

def decideAdmits (allowed : σ → ε → Prop) (apply : σ → ε → σ) [∀ s e, Decidable (allowed s e)] :
    ∀ (s : σ) (events : List ε), Decidable (Admits allowed apply s events)
  | _, [] => isTrue trivial
  | s, e :: es =>
    have := decideAdmits allowed apply (apply s e) es
    inferInstanceAs (Decidable (allowed s e ∧ Admits allowed apply (apply s e) es))

instance (allowed : σ → ε → Prop) (apply : σ → ε → σ) [∀ s e, Decidable (allowed s e)] (s : σ)
    (events : List ε) : Decidable (Admits allowed apply s events) :=
  decideAdmits allowed apply s events

theorem Reachable.foldl {allowed : σ → ε → Prop} {apply : σ → ε → σ} {start s : σ}
    (run : Reachable allowed apply start s) {events : List ε} (h : Admits allowed apply s events) :
    Reachable allowed apply start (events.foldl apply s) := by
  induction events generalizing s with
  | nil => exact run
  | cons e es ih => exact ih (run.step h.1) h.2

end BookAgent.Lib
