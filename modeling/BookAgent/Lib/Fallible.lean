import BookAgent.Lib.PrefixCode

/-!
# Fallible computations

`Except` computations read off a successful result: a `bind` that succeeds
succeeds in both parts, and an optional value that must be present is present.
-/

namespace BookAgent.Lib

variable {ε : Type*} {α β γ : Type}

theorem bind_eq_ok {x : Except ε α} {f : α → Except ε β} {b : β} :
    x >>= f = .ok b ↔ ∃ a, x = .ok a ∧ f a = .ok b := by
  cases x <;> simp [bind, Except.bind]

@[simp] theorem pure_eq_ok {a b : α} : (pure a : Except ε α) = .ok b ↔ a = b := by
  simp [pure, Except.pure]

theorem map_eq_ok {f : α → β} {x : Except ε α} {b : β} :
    f <$> x = .ok b ↔ ∃ a, x = .ok a ∧ f a = b := by
  cases x <;> simp [Functor.map, Except.map]

@[simp] theorem mapError_eq_ok {δ : Type*} {x : Except ε α} {f : ε → δ} {a : α} :
    x.mapError f = .ok a ↔ x = .ok a := by
  cases x <;> simp [Except.mapError]

theorem exists_of_isOk {x : Except ε α} (h : x.isOk = true) : ∃ a, x = .ok a := by
  cases x with
  | error e => cases h
  | ok a => exact ⟨a, rfl⟩

/-- The value an option must carry, or the given error (`Option::context`). -/
def context (msg : ε) : Option α → Except ε α
  | some a => .ok a
  | none => .error msg

@[simp] theorem context_eq_ok {msg : ε} {o : Option α} {a : α} :
    context msg o = .ok a ↔ o = some a := by
  cases o <;> simp [context]

@[simp] theorem context_some {msg : ε} {a : α} : context msg (some a) = .ok a := rfl

@[simp] theorem context_none {msg : ε} : context msg (none : Option α) = .error msg := rfl

/-- Functions that agree pairwise along two lists map them to the same result. -/
theorem mapM_eq_of_forall₂ {m : Type → Type*} [Monad m] [LawfulMonad m] {f : α → m γ}
    {g : β → m γ} {xs : List α} {ys : List β} (h : List.Forall₂ (fun x y => f x = g y) xs ys) :
    xs.mapM f = ys.mapM g := by
  induction h with
  | nil => rfl
  | cons e _ ih => rw [List.mapM_cons, List.mapM_cons, e, ih]

/-- A member-wise fallible map succeeds when each member has a result. -/
theorem isSome_mapM {f : α → Option β} {xs : List α} (h : ∀ x ∈ xs, (f x).isSome) :
    (xs.mapM f).isSome := by
  induction xs with
  | nil => rfl
  | cons x xs ih =>
    obtain ⟨y, hy⟩ := Option.isSome_iff_exists.mp (h x List.mem_cons_self)
    obtain ⟨ys, hys⟩ := Option.isSome_iff_exists.mp
      (ih fun u hu => h u (List.mem_cons_of_mem _ hu))
    rw [List.mapM_cons, hy, hys]
    rfl

/-- Every member a successful `mapM` visited had a result. -/
theorem mem_of_forall₂_left {E : α → β → Prop} {xs : List α} {ys : List β}
    (h : List.Forall₂ E xs ys) {x : α} (hx : x ∈ xs) : ∃ y ∈ ys, E x y := by
  induction h with
  | nil => cases hx
  | @cons u v us vs huv _ ih =>
    rcases List.mem_cons.mp hx with rfl | hx
    · exact ⟨v, List.mem_cons_self, huv⟩
    · obtain ⟨y, hy, hE⟩ := ih hx
      exact ⟨y, List.mem_cons_of_mem _ hy, hE⟩

end BookAgent.Lib
