import BookAgent.Lib.Numeral

/-!
# Floating-point operations as a parameter

The operations of a floating-point type that a program computes prices with. Of their results only
this is assumed: comparisons order the values that are numbers, and plain decimal texts are read as
numbers, in their order. Nothing is assumed of how a result is rounded.
-/

namespace BookAgent.Lib

/-- The operations of `f64`. -/
class FloatOps where
  F : Type
  /-- The float of a number that is one. -/
  ofValue : ℚ → F
  add : F → F → F
  sub : F → F → F
  mul : F → F → F
  div : F → F → F
  floor : F → F
  ceil : F → F
  abs : F → F
  /-- `a <= b` -/
  le : F → F → Bool
  /-- `a.total_cmp(&b).is_le()` -/
  totalLe : F → F → Bool
  /-- `{:.10}` -/
  fixed10 : F → String
  /-- `str::parse::<f64>` -/
  parse : String → Option F
  le_self {a b : F} : le a b = true → le a a = true ∧ le b b = true
  le_trans {a b c : F} : le a b = true → le b c = true → le a c = true
  le_total {a b : F} : le a a = true → le b b = true → le a b = true ∨ le b a = true
  parse_mono {s t : String} {p q : ℚ} : plainValue s = some p → plainValue t = some q → p ≤ q →
    ∃ x y, parse s = some x ∧ parse t = some y ∧ le x y = true

/-- `Iterator::reduce` -/
def reduce {α : Type} (f : α → α → α) : List α → Option α
  | [] => none
  | x :: xs => some (xs.foldl f x)

/-- What holds of a member, is kept by the operation and holds where the member comes in holds of the
result. -/
theorem reduce_of_mem {α : Type} {f : α → α → α} {P : α → Prop} {l : List α} {x : α} (hx : x ∈ l)
    (hself : P x) (henters : ∀ b, P (f b x)) (hkept : ∀ b y, P b → P (f b y)) :
    ∃ best, reduce f l = some best ∧ P best := by
  have kept (xs : List α) : ∀ {b : α}, P b → P (xs.foldl f b) := by
    induction xs with
    | nil => exact fun h => h
    | cons y xs ih => exact fun h => ih (hkept _ y h)
  have entered (xs : List α) : ∀ {b : α}, x ∈ xs → P (xs.foldl f b) := by
    induction xs with
    | nil => exact fun h => absurd h List.not_mem_nil
    | cons y xs ih =>
      intro b h
      rcases List.mem_cons.mp h with rfl | h
      · exact kept xs (henters b)
      · exact ih h
  cases l with
  | nil => exact absurd hx List.not_mem_nil
  | cons y ys =>
    refine ⟨_, rfl, ?_⟩
    rcases List.mem_cons.mp hx with rfl | hx
    · exact kept ys hself
    · exact entered ys hx

namespace FloatOps

variable [FloatOps]

def isNumber (a : F) : Bool := le a a

/-- `f64::max`: the other value where one is not a number. -/
def max (a b : F) : F :=
  if isNumber a = false then b else if isNumber b = false then a else if le a b then b else a

/-- `f64::min` -/
def min (a b : F) : F :=
  if isNumber a = false then b else if isNumber b = false then a else if le a b then a else b

theorem le_max_left {a b c : F} (h : le a b = true) : le a (max b c) = true := by
  have hb : isNumber b ≠ false := ne_false_of_eq_true (le_self h).2
  unfold max
  rw [if_neg hb]
  split_ifs with hc hle
  · exact h
  · exact le_trans h hle
  · exact h

theorem le_max_right {b c : F} (hc : isNumber c = true) : le c (max b c) = true := by
  unfold max
  rw [if_neg (ne_false_of_eq_true hc)]
  split_ifs with hb hle
  · exact hc
  · exact hc
  · exact (le_total (eq_true_of_ne_false hb) hc).resolve_left hle

theorem min_le_left {a b c : F} (h : le b a = true) : le (min b c) a = true := by
  have hb : isNumber b = true := (le_self h).1
  unfold min
  rw [if_neg (ne_false_of_eq_true hb)]
  split_ifs with hc hle
  · exact h
  · exact h
  · exact le_trans ((le_total hb (eq_true_of_ne_false hc)).resolve_left hle) h

theorem min_le_right {b c : F} (hc : isNumber c = true) : le (min b c) c = true := by
  unfold min
  rw [if_neg (ne_false_of_eq_true hc)]
  split_ifs with hb hle
  · exact hc
  · exact hle
  · exact hc

/-- The greatest is at least each number among the values. -/
theorem le_reduce_max {l : List F} {x : F} (hx : x ∈ l) (hnumber : isNumber x = true) :
    ∃ best, reduce max l = some best ∧ le x best = true :=
  reduce_of_mem hx hnumber (fun _ => le_max_right hnumber) fun _ _ => le_max_left

theorem reduce_min_le {l : List F} {x : F} (hx : x ∈ l) (hnumber : isNumber x = true) :
    ∃ best, reduce min l = some best ∧ le best x = true :=
  reduce_of_mem hx hnumber (fun _ => min_le_right hnumber) fun _ _ => min_le_left

end FloatOps

end BookAgent.Lib
