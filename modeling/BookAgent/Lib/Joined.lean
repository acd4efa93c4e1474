import BookAgent.Lib.Lines

/-!
# Joined lists

A list printed with a separator between its elements. An element whose own text is
that of two elements makes the list ambiguous; a list without such elements is read
back from its text, and every list has the text of one.
-/

namespace BookAgent.Lib

section Joined

variable {α : Type} (print : α → String) (sep : Char)

/-- The texts of the elements with the separator between them. -/
def joined (xs : List α) : String := (String.singleton sep).intercalate (xs.map print)

/-- The texts of the elements, each ended by the separator. -/
def terminated (xs : List α) : List Char := xs.flatMap fun x => (print x).toList ++ [sep]

/-- The text of the element is that of two elements. -/
def Divisible (x : α) : Prop :=
  ∃ y z, (print x).toList = (print y).toList ++ sep :: (print z).toList

/-- No element can be divided. -/
def Finest (xs : List α) : Prop := ∀ x ∈ xs, ¬ Divisible print sep x

/-- No element can be divided, and the list is not a single empty text. -/
structure Separated (xs : List α) : Prop where
  finest : Finest print sep xs
  notEmpty : ∀ x, print x = "" → xs ≠ [x]

variable {print sep}

theorem terminated_cons (x : α) (xs : List α) :
    terminated print sep (x :: xs) = (print x).toList ++ sep :: terminated print sep xs := by
  unfold terminated
  rw [List.flatMap_cons, List.append_assoc, List.singleton_append]

theorem terminated_append (xs ys : List α) :
    terminated print sep (xs ++ ys) = terminated print sep xs ++ terminated print sep ys :=
  List.flatMap_append

theorem terminated_ne_nil {x : α} {xs : List α} : terminated print sep (x :: xs) ≠ [] := by
  rw [terminated_cons]
  exact List.append_ne_nil_of_right_ne_nil _ (List.cons_ne_nil _ _)

theorem joined_cons_cons (x y : α) (xs : List α) :
    (joined print sep (x :: y :: xs)).toList =
      (print x).toList ++ sep :: (joined print sep (y :: xs)).toList := by
  unfold joined
  rw [List.map_cons, List.map_cons, String.intercalate_cons_cons, String.toList_append,
    String.toList_append, String.toList_singleton, List.append_assoc, List.singleton_append]

theorem joined_terminated {xs : List α} (h : xs ≠ []) :
    (joined print sep xs).toList ++ [sep] = terminated print sep xs := by
  induction xs with
  | nil => exact absurd rfl h
  | cons x xs ih =>
    cases xs with
    | nil =>
      unfold joined
      rw [List.map_singleton, String.intercalate_singleton, terminated_cons]
      rfl
    | cons y xs =>
      rw [joined_cons_cons, List.append_assoc, List.cons_append, ih (List.cons_ne_nil _ _),
        ← terminated_cons]

theorem joined_eq_of_terminated {xs ys : List α}
    (h : terminated print sep xs = terminated print sep ys) :
    joined print sep xs = joined print sep ys := by
  cases xs with
  | nil =>
    cases ys with
    | nil => rfl
    | cons y ys => exact absurd h.symm terminated_ne_nil
  | cons x xs =>
    cases ys with
    | nil => exact absurd h terminated_ne_nil
    | cons y ys =>
      rw [← joined_terminated (List.cons_ne_nil _ _), ← joined_terminated (List.cons_ne_nil _ _)] at h
      exact String.toList_inj.mp (List.append_cancel_right h)

/-! ## Reading a list back -/

/-- A list without divisible elements is read back, where what a text goes on with
after a separator is the text of an element too. -/
theorem terminated_injective (hinj : Function.Injective print)
    (hrest : ∀ x y t, (print x).toList = (print y).toList ++ sep :: t → ∃ z, (print z).toList = t)
    {xs ys : List α} (hx : Finest print sep xs) (hy : Finest print sep ys)
    (h : terminated print sep xs = terminated print sep ys) : xs = ys := by
  have indivisible : ∀ {x y t}, ¬ Divisible print sep x →
      (print x).toList ≠ (print y).toList ++ sep :: t := by
    intro x y t hdiv ht
    obtain ⟨z, rfl⟩ := hrest x y t ht
    exact hdiv ⟨y, z, ht⟩
  induction xs generalizing ys with
  | nil =>
    cases ys with
    | nil => rfl
    | cons y ys => exact absurd h.symm terminated_ne_nil
  | cons x xs ih =>
    cases ys with
    | nil => exact absurd h terminated_ne_nil
    | cons y ys =>
      rw [terminated_cons, terminated_cons] at h
      rcases cut_cases h with ⟨hxy, hxs⟩ | ⟨t, ht, -⟩ | ⟨t, ht, -⟩
      · rw [hinj (String.toList_inj.mp hxy), ih (fun z hz => hx z (List.mem_cons_of_mem _ hz))
          (fun z hz => hy z (List.mem_cons_of_mem _ hz)) hxs]
      · exact absurd ht (indivisible (hx x List.mem_cons_self))
      · exact absurd ht (indivisible (hy y List.mem_cons_self))

theorem joined_injective_of_ne_nil (hinj : Function.Injective print)
    (hrest : ∀ x y t, (print x).toList = (print y).toList ++ sep :: t → ∃ z, (print z).toList = t)
    {xs ys : List α} (hx : Finest print sep xs) (hy : Finest print sep ys) (hxs : xs ≠ [])
    (hys : ys ≠ []) (h : joined print sep xs = joined print sep ys) : xs = ys := by
  refine terminated_injective hinj hrest hx hy ?_
  rw [← joined_terminated hxs, ← joined_terminated hys, h]

theorem nil_of_joined_eq_empty {xs : List α} (hx : Separated print sep xs)
    (h : joined print sep xs = "") : xs = [] := by
  cases xs with
  | nil => rfl
  | cons x xs =>
    cases xs with
    | nil =>
      have text : joined print sep [x] = print x := String.intercalate_singleton
      exact absurd rfl (hx.notEmpty x (text ▸ h))
    | cons y xs =>
      have text : (joined print sep (x :: y :: xs)).toList =
          (print x).toList ++ sep :: (joined print sep (y :: xs)).toList := joined_cons_cons x y xs
      rw [h] at text
      exact absurd text.symm (List.append_ne_nil_of_right_ne_nil _ (List.cons_ne_nil _ _))

/-- **Separated lists are read back from their joined text.** -/
theorem joined_injective (hinj : Function.Injective print)
    (hrest : ∀ x y t, (print x).toList = (print y).toList ++ sep :: t → ∃ z, (print z).toList = t)
    {xs ys : List α} (hx : Separated print sep xs) (hy : Separated print sep ys)
    (h : joined print sep xs = joined print sep ys) : xs = ys := by
  by_cases hxs : xs = []
  · subst hxs
    exact (nil_of_joined_eq_empty hy h.symm).symm
  · by_cases hys : ys = []
    · subst hys
      exact absurd (nil_of_joined_eq_empty hx h) hxs
    · exact joined_injective_of_ne_nil hinj hrest hx.finest hy.finest hxs hys h

/-! ## Dividing a list -/

variable (print) (sep)

/-- An element has the text of a list without divisible elements. -/
theorem exists_finest_one (x : α) : ∃ ys, Finest print sep ys ∧
    terminated print sep ys = (print x).toList ++ [sep] := by
  induction hn : (print x).toList.length using Nat.strongRecOn generalizing x with
  | ind n ih =>
    by_cases hdiv : Divisible print sep x
    · obtain ⟨y, z, hyz⟩ := hdiv
      have length := congrArg List.length hyz
      rw [List.length_append, List.length_cons, hn] at length
      obtain ⟨ys, hys, ytext⟩ := ih _ (by omega) y rfl
      obtain ⟨zs, hzs, ztext⟩ := ih _ (by omega) z rfl
      refine ⟨ys ++ zs, ?_, ?_⟩
      · intro w hw
        rcases List.mem_append.mp hw with hw | hw
        · exact hys w hw
        · exact hzs w hw
      · rw [terminated_append, ytext, ztext, hyz]
        simp only [List.append_assoc, List.cons_append, List.nil_append]
    · refine ⟨[x], ?_, ?_⟩
      · intro y hy
        obtain rfl := List.mem_singleton.mp hy
        exact hdiv
      · exact terminated_cons x []

theorem exists_finest (xs : List α) : ∃ ys, Finest print sep ys ∧
    terminated print sep ys = terminated print sep xs := by
  induction xs with
  | nil => exact ⟨[], fun _ h => (nomatch h), rfl⟩
  | cons x xs ih =>
    obtain ⟨ys, hys, ytext⟩ := exists_finest_one print sep x
    obtain ⟨zs, hzs, ztext⟩ := ih
    refine ⟨ys ++ zs, ?_, ?_⟩
    · intro w hw
      rcases List.mem_append.mp hw with hw | hw
      · exact hys w hw
      · exact hzs w hw
    · rw [terminated_append, ytext, ztext, terminated_cons, List.append_assoc, List.singleton_append]

/-- **Every list has the text of a separated one.** -/
theorem exists_separated (xs : List α) : ∃ ys, Separated print sep ys ∧
    joined print sep ys = joined print sep xs := by
  by_cases hempty : joined print sep xs = ""
  · exact ⟨[], ⟨fun _ h => (nomatch h), fun _ _ h => (nomatch h)⟩, hempty.symm⟩
  · obtain ⟨ys, finest, htext⟩ := exists_finest print sep xs
    have same := joined_eq_of_terminated htext
    refine ⟨ys, ⟨finest, ?_⟩, same⟩
    rintro x hx rfl
    have text : joined print sep [x] = print x := String.intercalate_singleton
    exact hempty (same ▸ text.trans hx)

end Joined

end BookAgent.Lib
