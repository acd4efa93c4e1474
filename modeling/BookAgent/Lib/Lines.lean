import Mathlib.Data.List.Basic

/-!
# Lines

Text made of newline-terminated lines. Lines without a newline inside are read
back from the text, and so are a key without `=` and its value from a line.
-/

namespace BookAgent.Lib

/-- The text has no newline. -/
def OneLine (s : String) : Prop := '\n' ∉ s.toList

instance (s : String) : Decidable (OneLine s) := inferInstanceAs (Decidable (¬ _))

theorem oneLine_ofList {cs : List Char} (h : '\n' ∉ cs) : OneLine (String.ofList cs) := by
  unfold OneLine
  rwa [String.toList_ofList]

/-- The lines in order, each ended by a newline. -/
def unlines : List String → String
  | [] => ""
  | l :: ls => l ++ "\n" ++ unlines ls

/-- What stands before the first occurrence of a delimiter is read back. -/
theorem append_delimiter_inj {α : Type} {a b x y : List α} {c : α} (ha : c ∉ a) (hb : c ∉ b)
    (h : a ++ c :: x = b ++ c :: y) : a = b ∧ x = y := by
  induction a generalizing b with
  | nil =>
    cases b with
    | nil => exact ⟨rfl, (List.cons.inj h).2⟩
    | cons d b => exact absurd ((List.cons.inj h).1 ▸ List.mem_cons_self) hb
  | cons d a ih =>
    cases b with
    | nil => exact absurd ((List.cons.inj h).1 ▸ List.mem_cons_self) ha
    | cons e b =>
      rw [List.mem_cons, not_or] at ha hb
      obtain ⟨rfl, htail⟩ := List.cons.inj h
      obtain ⟨rfl, rfl⟩ := ih ha.2 hb.2 htail
      exact ⟨rfl, rfl⟩

/-- What stands after the last occurrence of a delimiter is read back. -/
theorem append_last_delimiter_inj {α : Type} {a b x y : List α} {c : α} (hx : c ∉ x) (hy : c ∉ y)
    (h : a ++ c :: x = b ++ c :: y) : a = b ∧ x = y := by
  have reversed : x.reverse ++ c :: a.reverse = y.reverse ++ c :: b.reverse := by
    have := congrArg List.reverse h
    simpa only [List.reverse_append, List.reverse_cons, List.append_assoc,
      List.singleton_append] using this
  obtain ⟨hxy, hab⟩ := append_delimiter_inj (mt List.mem_reverse.mp hx) (mt List.mem_reverse.mp hy)
    reversed
  exact ⟨List.reverse_injective hab, List.reverse_injective hxy⟩

/-- Two texts cut at a delimiter agree at the cut, or one is cut later. -/
theorem cut_cases {α : Type} {a b x y : List α} {c : α} (h : a ++ c :: x = b ++ c :: y) :
    a = b ∧ x = y ∨ (∃ t, a = b ++ c :: t ∧ y = t ++ c :: x) ∨
      ∃ t, b = a ++ c :: t ∧ x = t ++ c :: y := by
  rcases List.append_eq_append_iff.mp h with ⟨u, rfl, hu⟩ | ⟨u, rfl, hu⟩
  · cases u with
    | nil => exact .inl ⟨(List.append_nil a).symm, (List.cons.inj hu).2⟩
    | cons d u =>
      obtain ⟨rfl, hx⟩ := List.cons.inj hu
      exact .inr (.inr ⟨u, rfl, hx⟩)
  · cases u with
    | nil => exact .inl ⟨List.append_nil b, (List.cons.inj hu).2.symm⟩
    | cons d u =>
      obtain ⟨rfl, hy⟩ := List.cons.inj hu
      exact .inr (.inl ⟨u, rfl, hy⟩)

theorem delimited_inj {a b x y : String} {c : Char} (ha : c ∉ a.toList) (hb : c ∉ b.toList)
    (h : a ++ String.singleton c ++ x = b ++ String.singleton c ++ y) : a = b ∧ x = y := by
  have hlist : a.toList ++ c :: x.toList = b.toList ++ c :: y.toList := by
    have := congrArg String.toList h
    simpa only [String.toList_append, String.toList_singleton, List.append_assoc,
      List.singleton_append] using this
  obtain ⟨hab, hxy⟩ := append_delimiter_inj ha hb hlist
  exact ⟨String.toList_inj.mp hab, String.toList_inj.mp hxy⟩

theorem line_inj {a b x y : String} (ha : OneLine a) (hb : OneLine b)
    (h : a ++ "\n" ++ x = b ++ "\n" ++ y) : a = b ∧ x = y :=
  delimited_inj ha hb h

theorem unlines_cons_ne_nil (l : String) (ls : List String) : unlines (l :: ls) ≠ unlines [] := by
  intro h
  have newline : '\n' ∈ (unlines (l :: ls)).toList := by
    rw [unlines, String.toList_append, String.toList_append]
    exact List.mem_append_left _ (List.mem_append_right _ (by decide))
  rw [h] at newline
  cases newline

theorem unlines_injective {xs ys : List String} (hx : ∀ x ∈ xs, OneLine x)
    (hy : ∀ y ∈ ys, OneLine y) (h : unlines xs = unlines ys) : xs = ys := by
  induction xs generalizing ys with
  | nil =>
    cases ys with
    | nil => rfl
    | cons y ys => exact absurd h.symm (unlines_cons_ne_nil y ys)
  | cons x xs ih =>
    cases ys with
    | nil => exact absurd h (unlines_cons_ne_nil x xs)
    | cons y ys =>
      obtain ⟨rfl, hrest⟩ := line_inj (hx x List.mem_cons_self) (hy y List.mem_cons_self) h
      rw [ih (fun z hz => hx z (List.mem_cons_of_mem _ hz))
        (fun z hz => hy z (List.mem_cons_of_mem _ hz)) hrest]

end BookAgent.Lib
