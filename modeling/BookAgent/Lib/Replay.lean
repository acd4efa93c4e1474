import Mathlib.Data.List.Basic

/-!
# Replay

A value goes through a sequence of events. When an event outdoes whatever an event like it did
before, events can be applied first and then again as part of a longer sequence: the result is
that of the sequence alone. A log that is cut short and applied anew from its start is the case
in mind.
-/

namespace BookAgent.Lib

variable {ε β : Type}

/-- The value after the events. -/
def afterAll (act : ε → β → β) (events : List ε) (x : β) : β := events.foldl (fun y e => act e y) x

/-- An event leaves nothing of one like it that came before. -/
def Outdoes (act : ε → β → β) (like : ε → ε → Prop) : Prop :=
  ∀ e e', like e e' → ∀ events x, act e' (afterAll act events (act e x)) = act e' (afterAll act events x)

section Replay

variable {act : ε → β → β} {like : ε → ε → Prop}

theorem afterAll_append (events events' : List ε) (x : β) :
    afterAll act (events ++ events') x = afterAll act events' (afterAll act events x) :=
  List.foldl_append ..

/-- An event that sets the value outdoes all, one that leaves it as it is has none like it that
does not. -/
theorem Outdoes.of_sets (h : ∀ e e', like e e' →
    (∃ v, ∀ x, act e' x = v) ∨ ∀ x, act e x = x) : Outdoes act like := by
  intro e e' hlike events x
  rcases h e e' hlike with ⟨v, hsets⟩ | hleaves
  · rw [hsets, hsets]
  · rw [hleaves]

/-- Events that commute and do nothing twice. -/
theorem Outdoes.of_commutes (commutes : ∀ e e' x, act e (act e' x) = act e' (act e x))
    (twice : ∀ e e', like e e' → ∀ x, act e' (act e x) = act e' x) : Outdoes act like := by
  intro e e' hlike events x
  have pull : ∀ (events : List ε) (y : β),
      act e' (afterAll act events y) = afterAll act events (act e' y) := by
    intro events
    induction events with
    | nil => exact fun _ => rfl
    | cons f events ih =>
      intro y
      change act e' (afterAll act events (act f y)) = afterAll act events (act f (act e' y))
      rw [ih, commutes]
  rw [pull, pull, twice e e' hlike]

/-- One event before a sequence that has one like it. -/
theorem afterAll_of_mem (h : Outdoes act like) {e e' : ε} (hlike : like e e') {events : List ε}
    (he' : e' ∈ events) (x : β) : afterAll act events (act e x) = afterAll act events x := by
  obtain ⟨earlier, later, rfl⟩ := List.append_of_mem he'
  rw [afterAll_append, afterAll_append]
  exact congrArg (afterAll act later) (h e e' hlike earlier x)

/-- **Events that come again later might as well not have come.** -/
theorem afterAll_replay (h : Outdoes act like) {first events : List ε}
    (hagain : ∀ e ∈ first, ∃ e' ∈ events, like e e') (x : β) :
    afterAll act events (afterAll act first x) = afterAll act events x := by
  induction first generalizing x with
  | nil => rfl
  | cons e first ih =>
    obtain ⟨⟨e', he', hlike⟩, hrest⟩ := List.forall_mem_cons.mp hagain
    exact (ih hrest (act e x)).trans (afterAll_of_mem h hlike he' x)

variable {σ : Type} {step : σ → ε → σ} (read : σ → β)

/-- What is read of a state after the events, when each changes it by itself. -/
theorem read_foldl (hread : ∀ s e, read (step s e) = act e (read s)) (events : List ε) (s : σ) :
    read (events.foldl step s) = afterAll act events (read s) := by
  induction events generalizing s with
  | nil => rfl
  | cons e events ih => exact (ih (step s e)).trans (congrArg (afterAll act events) (hread s e))

/-- What no event changes. -/
theorem read_kept (hread : ∀ s e, read (step s e) = read s) (events : List ε) (s : σ) :
    read (events.foldl step s) = read s := by
  induction events generalizing s with
  | nil => rfl
  | cons e events ih => exact (ih (step s e)).trans (hread s e)

theorem read_replay (hread : ∀ s e, read (step s e) = act e (read s)) (h : Outdoes act like)
    {first events : List ε} (hagain : ∀ e ∈ first, ∃ e' ∈ events, like e e') (s : σ) :
    read ((first ++ events).foldl step s) = read (events.foldl step s) := by
  rw [read_foldl read hread, read_foldl read hread, afterAll_append, afterAll_replay h hagain]

end Replay

/-! ## Writes to a map -/

section Writes

variable {κ ν : Type} [DecidableEq κ]

/-- What is at a key after a write, which sets or removes one key, if any. -/
def written (k : κ) (write : Option (κ × Option ν)) (old : Option ν) : Option ν :=
  match write with
  | some (key, new) => if k = key then new else old
  | none => old

/-- Writes of like events are to the same key, hence the later one stays. -/
theorem outdoes_written {write : ε → Option (κ × Option ν)} {like : ε → ε → Prop}
    (hkey : ∀ e e', like e e' → (write e).map Prod.fst = (write e').map Prod.fst) (k : κ) :
    Outdoes (fun e => written k (write e)) like := by
  refine .of_sets fun e e' hlike => ?_
  have hkeys := hkey e e' hlike
  unfold written
  cases he : write e with
  | none => exact .inr fun x => rfl
  | some w =>
    obtain ⟨key, new⟩ := w
    cases he' : write e' with
    | none =>
      rw [he, he'] at hkeys
      cases hkeys
    | some w' =>
      obtain ⟨key', new'⟩ := w'
      rw [he, he'] at hkeys
      obtain rfl : key = key' := Option.some.inj hkeys
      by_cases hk : k = key
      · exact .inl ⟨new', fun x => if_pos hk⟩
      · exact .inr fun x => if_neg hk

end Writes

end BookAgent.Lib
